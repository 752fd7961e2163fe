import Statewalk.Proofs.ChoiceStack

/-! # Building a graph

A graph is built by a sequence of calls, of which some may fail.  Whatever the calls are, no edge leads out
of the graph: a state is never taken away, and an edge is added only between states that are there.
-/

namespace Statewalk.StateGraph

/-- A call that builds a graph. -/
inductive Edit where
  | addState (label : String)
  | addTransition (source target : StateId) (thread : Nat) (label : String)
  | markEnd (state : StateId)
  | setThreads (state : StateId) (threads : List Thread)
deriving DecidableEq, Repr

namespace Edit

def addsState : Edit → Bool
  | .addState _ => true
  | _ => false

/-- The state that a call is about, in a graph with `n` states. -/
def address (n : Nat) : Edit → StateId
  | .addState _ => n
  | .addTransition source _ _ _ => source
  | .markEnd s => s
  | .setThreads s _ => s

/-- What a call makes of the state that it is about. -/
def apply : Edit → Option GraphState → Option GraphState
  | .addState label, _ => some { label }
  | .addTransition _ target thread label, q =>
    q.map fun q => { q with edges := q.edges ++ [{ target, thread, label }] }
  | .markEnd _, q => q.map fun q => { q with flaggedEnd := true }
  | .setThreads _ threads, q => q.map fun q => { q with threads := some threads }

end Edit

/-- What is returned by a call that gives no id. -/
def Change.answer (change : Change) : Except GraphError (Option StateId) × StateGraph :=
  (change.1.map fun _ => none, change.2)

/-- Carries out a call: what it returns, and the graph after it. -/
def edit (g : StateGraph) : Edit → Except GraphError (Option StateId) × StateGraph
  | .addState label => (.ok (some (g.addState label).1), (g.addState label).2)
  | .addTransition source target thread label => (g.addTransition source target thread label).answer
  | .markEnd s => (g.markEnd s).answer
  | .setThreads s threads => (g.setThreads s threads).answer

/-- The graph that calls build. -/
def built (name : String) (edits : List Edit) : StateGraph :=
  edits.foldl (fun g c => (g.edit c).2) { name }

variable {g g' : StateGraph} {c : Edit} {s : StateId} {f : GraphState → GraphState}

/-! ## One call -/

/-- The graph `g'` after a call that succeeded on `g`: only the state that the call is about differs. -/
structure Amends (g : StateGraph) (c : Edit) (g' : StateGraph) : Prop where
  name : g'.name = g.name
  threads : g'.threads = g.threads
  size : g'.size = g.size + if c.addsState then 1 else 0
  state : ∀ s, g'.state? s = if s = c.address g.size then c.apply (g.state? s) else g.state? s

/-- What comes of a call: it fails and changes nothing, or succeeds, and then a new edge leads to a state. -/
inductive Edited (g : StateGraph) (c : Edit) : Except GraphError (Option StateId) × StateGraph → Prop where
  | failed (err : GraphError) : c.addsState = false → Edited g c (.error err, g)
  | amended {id : Option StateId} {g' : StateGraph} : g.Amends c g' →
      (∀ source target thread label, c = .addTransition source target thread label → target < g.size) →
      Edited g c (.ok id, g')

theorem fst_answer_modifyState :
    (g.modifyState s f).answer.1 = if g.size ≤ s then .error (.unknownState s) else .ok none := by
  unfold modifyState
  by_cases known : s < g.size
  · rw [if_pos known, if_neg (Nat.not_le.2 known)]
    rfl
  · rw [if_neg known, if_pos (Nat.not_lt.1 known)]
    rfl

theorem edited_modifyState (old : c.addsState = false) (address : c.address g.size = s)
    (apply : ∀ q, c.apply q = q.map f)
    (inside : ∀ source target thread label, c = .addTransition source target thread label →
      target < g.size) :
    Edited g c (g.modifyState s f).answer := by
  unfold modifyState
  split
  · refine .amended ⟨rfl, rfl, by simp [old, size], fun q => ?_⟩ inside
    rw [state?, List.getElem?_modify, address, apply]
    by_cases same : q = s
    · simp [same, state?]
    · simp [same, Ne.symm same, state?]
  · exact .failed _ old

theorem edited_edit (g : StateGraph) (c : Edit) : Edited g c (g.edit c) := by
  cases c with
  | addState label =>
    refine .amended ⟨rfl, rfl, by simp [addState, size, Edit.addsState], fun s => ?_⟩ (by simp)
    show (g.states ++ [{ label := label }])[s]? =
      if s = g.states.length then some { label := label } else g.states[s]?
    rcases Nat.lt_trichotomy s g.states.length with old | rfl | beyond
    · rw [List.getElem?_append_left old, if_neg (Nat.ne_of_lt old)]
    · simp
    · rw [if_neg (Nat.ne_of_gt beyond), List.getElem?_eq_none (Nat.le_of_lt beyond)]
      exact List.getElem?_eq_none (by simp; omega)
  | addTransition source target thread label =>
    simp only [edit, addTransition]
    split
    · refine edited_modifyState rfl rfl (fun _ => rfl) fun _ _ _ _ same => ?_
      cases same
      assumption
    · exact .failed _ rfl
  | markEnd s => exact edited_modifyState rfl rfl (fun _ => rfl) (by simp)
  | setThreads s threads => exact edited_modifyState rfl rfl (fun _ => rfl) (by simp)

/-! ## Sequences of calls -/

/-- The graph has `n` states, and all edges lead to them. -/
structure Enclosed (n : Nat) (g : StateGraph) : Prop where
  size : g.size = n
  inside : ∀ s q, g.state? s = some q → ∀ e ∈ q.edges, e.target < n

theorem Enclosed.edit {n : Nat} (h : Enclosed n g) (c : Edit) :
    Enclosed (n + if c.addsState then 1 else 0) (g.edit c).2 := by
  generalize result : g.edit c = answer
  cases result ▸ edited_edit g c with
  | failed err old => simpa [old] using h
  | amended amends target =>
    refine ⟨h.size ▸ amends.size, fun s q found e member => Nat.lt_add_right _ ?_⟩
    rw [amends.state] at found
    split at found
    · -- A new edge is the last one of its source; the others were there before.
      cases c with
      | addState label =>
        cases found
        cases member
      | addTransition source t thread label =>
        obtain ⟨p, was, rfl⟩ := Option.map_eq_some_iff.1 found
        rcases List.mem_append.1 member with old | new
        · exact h.inside s p was e old
        · rw [List.mem_singleton.1 new, ← h.size]
          exact target _ _ _ _ rfl
      | markEnd _ | setThreads _ _ =>
        obtain ⟨p, was, rfl⟩ := Option.map_eq_some_iff.1 found
        exact h.inside s p was e member
    · exact h.inside s q found e member

theorem enclosed_foldl {n : Nat} (h : Enclosed n g) (edits : List Edit) :
    Enclosed (n + edits.countP Edit.addsState) (edits.foldl (fun g c => (g.edit c).2) g) := by
  induction edits generalizing g n with
  | nil => exact h
  | cons c edits ih =>
    rw [List.countP_cons, Nat.add_comm (edits.countP _), ← Nat.add_assoc]
    exact ih (h.edit c)

theorem Enclosed.validate_iff {n : Nat} (h : Enclosed n g) : g.validate = .ok () ↔ 0 < n := by
  rw [validate_eq_ok_iff, h.size, and_iff_left_iff_imp]
  intro _ q member e edge
  obtain ⟨s, found⟩ := List.getElem?_of_mem member
  exact h.inside s q found e edge

/-- Whatever calls built a graph, every edge of it leads to one of its states, so that it is valid as soon as
    a state was added.  States are numbered in order.  A call fails exactly if a state that it names was not
    added before, and then it changes nothing; otherwise it changes the state that it is about. -/
theorem built_graph_is_enclosed (name : String) (edits : List Edit) :
    let g := built name edits
    let n := edits.countP Edit.addsState
    g.size = n ∧ (∀ s, ∀ e ∈ g.edges s, e.target < n) ∧
      (g.validate = .ok () ↔ ∃ label, .addState label ∈ edits) ∧
      ((∃ e, GraphEngine.ofGraph g = .ok e) ↔ ∃ label, .addState label ∈ edits) ∧
      (∀ label, (g.edit (.addState label)).1 = .ok (some n)) ∧
      (∀ source target thread label, (g.edit (.addTransition source target thread label)).1 =
        if n ≤ target then .error (.unknownTarget source target)
        else if n ≤ source then .error (.unknownState source) else .ok none) ∧
      (∀ s, (g.edit (.markEnd s)).1 = if n ≤ s then .error (.unknownState s) else .ok none) ∧
      (∀ s threads, (g.edit (.setThreads s threads)).1 =
        if n ≤ s then .error (.unknownState s) else .ok none) ∧
      ∀ c, (∀ err, (g.edit c).1 = .error err → (g.edit c).2 = g) ∧
        ∀ id, (g.edit c).1 = .ok id → g.Amends c (g.edit c).2 := by
  intro g n
  have enclosed : Enclosed n g := by
    have start : Enclosed 0 { name } := ⟨rfl, by simp [state?]⟩
    exact Nat.zero_add n ▸ enclosed_foldl start edits
  have some_iff : 0 < n ↔ ∃ label, .addState label ∈ edits := by
    rw [List.countP_pos_iff]
    constructor
    · rintro ⟨c, member, adds⟩
      cases c with
      | addState label => exact ⟨label, member⟩
      | _ => cases adds
    · rintro ⟨label, member⟩
      exact ⟨_, member, rfl⟩
  have valid := enclosed.validate_iff.trans some_iff
  refine ⟨enclosed.size, ?_, valid, ?_, fun _ => ?_, fun source target thread label => ?_,
    fun s => ?_, fun s threads => ?_, fun c => ?_⟩
  · intro s e member
    obtain ⟨q, found, edge⟩ := state?_of_mem_edges member
    exact enclosed.inside s q found e edge
  · rw [← valid]
    simp [GraphEngine.ofGraph_eq_ok_iff]
  · exact congrArg (fun n => Except.ok (some n)) enclosed.size
  · simp only [edit, addTransition, ← enclosed.size]
    by_cases known : target < g.size
    · rw [if_pos known, if_neg (Nat.not_le.2 known), fst_answer_modifyState]
    · rw [if_neg known, if_pos (Nat.not_lt.1 known)]
      rfl
  · rw [← enclosed.size]
    exact fst_answer_modifyState
  · rw [← enclosed.size]
    exact fst_answer_modifyState
  · generalize result : g.edit c = answer
    cases result ▸ edited_edit g c with
    | failed err old => simp
    | amended amends target => simpa using amends

end Statewalk.StateGraph
