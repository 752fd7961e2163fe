import Mathlib.Computability.RegularExpressions
import Mathlib.Order.CompletePartialOrder
import Statewalk.Event

/-! # Grammars of announcements

A phrase is a regular expression over events with at least one word: there is no phrase for the empty
language, so that whatever was said of a phrase can be carried on to one of its words.  The phrases of
this module are the orders in which the strategies announce their events.
-/

namespace Statewalk

open scoped Computability

/-- A regular expression over events that has a word. -/
inductive Phrase where
  | silence
  | say (event : Event)
  | either (p q : Phrase)
  | andThen (p q : Phrase)
  | repeated (p : Phrase)
deriving DecidableEq, Repr

namespace Phrase

instance : One Phrase := ⟨silence⟩

instance : Add Phrase := ⟨either⟩

instance : Mul Phrase := ⟨andThen⟩

/-- The phrase as a regular expression. -/
def expression : Phrase → RegularExpression Event
  | silence => 1
  | say e => .char e
  | either p q => p.expression + q.expression
  | andThen p q => p.expression * q.expression
  | repeated p => p.expression.star

/-- The sequences of events that the phrase stands for. -/
def words (p : Phrase) : Language Event :=
  p.expression.matches'

instance (p : Phrase) : DecidablePred (· ∈ p.words) :=
  inferInstanceAs (DecidablePred (· ∈ p.expression.matches'))

/-- The event, or nothing. -/
def maybe (e : Event) : Phrase :=
  1 + say e

variable {p q p' q' : Phrase} {e : Event}

@[simp] theorem words_one : (1 : Phrase).words = 1 := rfl

@[simp] theorem words_say (e : Event) : (say e).words = {[e]} := rfl

@[simp] theorem words_add (p q : Phrase) : (p + q).words = p.words + q.words := rfl

@[simp] theorem words_mul (p q : Phrase) : (p * q).words = p.words * q.words := rfl

@[simp] theorem words_repeated (p : Phrase) : p.repeated.words = p.words∗ := rfl

theorem mem_words_say_mul {w : List Event} : w ∈ (say e * p).words ↔ ∃ u ∈ p.words, w = e :: u := by
  constructor
  · intro h
    obtain ⟨_, rfl, u, hu, rfl⟩ := Language.mem_mul.1 h
    exact ⟨u, hu, rfl⟩
  · rintro ⟨u, hu, rfl⟩
    exact Language.append_mem_mul (a := [e]) rfl hu

theorem exists_mem_words (p : Phrase) : ∃ w, w ∈ p.words := by
  induction p with
  | silence => exact ⟨[], rfl⟩
  | say e => exact ⟨[e], rfl⟩
  | either p q hp _ =>
    obtain ⟨w, hw⟩ := hp
    exact ⟨w, .inl hw⟩
  | andThen p q hp hq =>
    obtain ⟨v, hv⟩ := hp
    obtain ⟨w, hw⟩ := hq
    exact ⟨v ++ w, Language.append_mem_mul hv hw⟩
  | repeated p _ => exact ⟨[], Language.nil_mem_kstar _⟩

/-! ## Order -/

/-- Smaller phrases have fewer words. -/
instance : Preorder Phrase :=
  .lift words

theorem le_iff : p ≤ q ↔ p.words ≤ q.words := Iff.rfl

theorem mul_mono (hp : p ≤ p') (hq : q ≤ q') : p * q ≤ p' * q' :=
  le_iff.2 (mul_le_mul' (le_iff.1 hp) (le_iff.1 hq))

theorem le_add_left (p q : Phrase) : p ≤ p + q :=
  fun _ => .inl

theorem le_add_right (p q : Phrase) : q ≤ p + q :=
  fun _ => .inr

theorem assoc_le (p q r : Phrase) : p * (q * r) ≤ p * q * r :=
  le_iff.2 (mul_assoc _ _ _).ge

theorem mul_add_le : p * (q + q') ≤ p' ↔ p * q ≤ p' ∧ p * q' ≤ p' := by
  simp only [le_iff, words_mul, words_add, mul_add, add_le_iff]

theorem maybe_mul_le : maybe e * p ≤ q ↔ p ≤ q ∧ say e * p ≤ q := by
  simp only [le_iff, maybe, words_mul, words_add, words_one, add_mul, one_mul, add_le_iff]

theorem le_maybe_mul (e : Event) (p : Phrase) : p ≤ maybe e * p :=
  (maybe_mul_le.1 le_rfl).1

theorem say_mul_le_maybe_mul (e : Event) (p : Phrase) : say e * p ≤ maybe e * p :=
  (maybe_mul_le.1 le_rfl).2

theorem le_repeated_mul (p q : Phrase) : q ≤ p.repeated * q := by
  have : 1 * q.words ≤ p.words∗ * q.words := mul_le_mul' one_le_kstar le_rfl
  simpa [le_iff] using this

theorem mul_repeated_mul_le (p q : Phrase) : p * (p.repeated * q) ≤ p.repeated * q := by
  have : p.words * p.words∗ * q.words ≤ p.words∗ * q.words := mul_le_mul' mul_kstar_le_kstar le_rfl
  simpa [le_iff, mul_assoc] using this

/-! ## Searches -/

/-- The announcements of a whole search. -/
def search (course : Phrase) : Phrase :=
  say .searchStarted * course * say .searchFinished

theorem started_le_search (p : Phrase) :
    say .searchStarted * (p * say .searchFinished) ≤ search p :=
  assoc_le _ _ _

theorem started_le_search_mul (p q : Phrase) :
    say .searchStarted * (p * (q * say .searchFinished)) ≤ search (p * q) :=
  (mul_mono le_rfl (assoc_le _ _ _)).trans (started_le_search _)

/-- The events that occur in a phrase. -/
def events : Phrase → List Event
  | silence => []
  | say e => [e]
  | either p q => p.events ++ q.events
  | andThen p q => p.events ++ q.events
  | repeated p => p.events

theorem mem_events {w : List Event} (hw : w ∈ p.words) (he : e ∈ w) : e ∈ p.events := by
  induction p generalizing w with
  | silence =>
    cases hw
    simp at he
  | say d =>
    cases hw
    simpa [events] using he
  | either p q hp hq =>
    cases hw with
    | inl hw => exact List.mem_append_left _ (hp hw he)
    | inr hw => exact List.mem_append_right _ (hq hw he)
  | andThen p q hp hq =>
    obtain ⟨v, hv, u, hu, rfl⟩ := Language.mem_mul.1 hw
    cases List.mem_append.1 he with
    | inl he => exact List.mem_append_left _ (hp hv he)
    | inr he => exact List.mem_append_right _ (hq hu he)
  | repeated p hp =>
    obtain ⟨ws, rfl, hws⟩ := Language.mem_kstar.1 hw
    obtain ⟨w, member, he⟩ := List.mem_flatten.1 he
    exact hp (hws w member) he

/-- The first event is the start and the last one is the end, and there is no other start or end. -/
def Framed (w : List Event) : Prop :=
  ∃ m, w = .searchStarted :: (m ++ [.searchFinished]) ∧ .searchStarted ∉ m ∧ .searchFinished ∉ m

theorem framed_of_mem_search {w : List Event} (hw : w ∈ (search p).words)
    (started : .searchStarted ∉ p.events) (finished : .searchFinished ∉ p.events) : Framed w := by
  obtain ⟨_, hsm, _, rfl, rfl⟩ := Language.mem_mul.1 hw
  obtain ⟨_, rfl, m, hm, rfl⟩ := Language.mem_mul.1 hsm
  exact ⟨m, rfl, fun member => started (mem_events hm member), fun member => finished (mem_events hm member)⟩

end Phrase

open Phrase

/-! ## Depth-first search -/

namespace DepthFirst

/-- One attempt to go on. -/
def movePhrase : Phrase :=
  say .stateAdvanced * maybe .propertyViolated * maybe .searchConstraintHit + say .stateProcessed

/-- One iteration. -/
def turnPhrase : Phrase :=
  maybe .searchProbed * maybe .stateBacktracked * movePhrase

/-- What a depth-first search announces. -/
def grammar : Phrase :=
  search (turnPhrase.repeated * maybe .searchProbed)

/-- What is yet to come before an iteration. -/
def ahead : Phrase :=
  turnPhrase.repeated * (maybe .searchProbed * say .searchFinished)

/-- What is yet to come after the request for progress was answered. -/
def polled : Phrase :=
  maybe .stateBacktracked * (movePhrase * ahead) + say .searchFinished

theorem started_le : say .searchStarted * ahead ≤ grammar :=
  started_le_search_mul _ _

theorem finished_le : say .searchFinished ≤ ahead :=
  (le_maybe_mul _ _).trans (le_repeated_mul _ _)

-- The probe may belong to one more iteration or be the last thing before the end.
theorem polled_le : maybe .searchProbed * polled ≤ ahead := by
  refine mul_add_le.2 ⟨?_, le_repeated_mul _ _⟩
  calc maybe .searchProbed * (maybe .stateBacktracked * (movePhrase * ahead))
      ≤ turnPhrase * ahead := (assoc_le _ _ _).trans (assoc_le _ _ _)
    _ ≤ ahead := mul_repeated_mul_le _ _

theorem backtracked_le : maybe .stateBacktracked * (movePhrase * ahead) ≤ polled :=
  le_add_left _ _

theorem advanced_le : say .stateAdvanced *
    (maybe .propertyViolated * (maybe .searchConstraintHit * ahead)) ≤ movePhrase * ahead := by
  simp only [le_iff, movePhrase, words_mul, words_add, add_mul, mul_assoc]
  exact le_sup_left

theorem processed_le : say .stateProcessed * ahead ≤ movePhrase * ahead :=
  mul_mono (le_add_right _ _) le_rfl

end DepthFirst

/-! ## Replay -/

namespace Replay

/-- One iteration after which the replay may go on. -/
def turnPhrase : Phrase :=
  maybe .searchProbed * maybe .stateBacktracked * say .stateAdvanced * maybe .propertyViolated

/-- The last iteration, if it is another one. -/
def lastPhrase : Phrase :=
  maybe .searchProbed +
    maybe .searchProbed * maybe .stateBacktracked * say .stateProcessed * maybe .propertyViolated

/-- What a replay announces. -/
def grammar : Phrase :=
  search (turnPhrase.repeated * lastPhrase)

@[inherit_doc DepthFirst.ahead]
def ahead : Phrase :=
  turnPhrase.repeated * (lastPhrase * say .searchFinished)

/-- What is yet to come before an attempt to go on. -/
def moving : Phrase :=
  say .stateAdvanced * (maybe .propertyViolated * ahead) +
    say .stateProcessed * (maybe .propertyViolated * say .searchFinished)

@[inherit_doc DepthFirst.polled]
def polled : Phrase :=
  maybe .stateBacktracked * moving + say .searchFinished

theorem started_le : say .searchStarted * ahead ≤ grammar :=
  started_le_search_mul _ _

theorem last_le : lastPhrase * say .searchFinished ≤ ahead :=
  le_repeated_mul _ _

theorem probed_le : maybe .searchProbed * say .searchFinished ≤ ahead :=
  (mul_mono (le_add_left _ _) le_rfl).trans last_le

theorem finished_le : say .searchFinished ≤ ahead :=
  (maybe_mul_le.1 probed_le).1

theorem polled_le : maybe .searchProbed * polled ≤ ahead := by
  refine mul_add_le.2 ⟨?_, probed_le⟩
  have onward : maybe .searchProbed * maybe .stateBacktracked *
      (say .stateAdvanced * (maybe .propertyViolated * ahead)) ≤ ahead :=
    calc _ ≤ turnPhrase * ahead := (assoc_le _ _ _).trans (assoc_le _ _ _)
      _ ≤ ahead := mul_repeated_mul_le _ _
  have atEnd : maybe .searchProbed * maybe .stateBacktracked *
      (say .stateProcessed * (maybe .propertyViolated * say .searchFinished)) ≤ ahead :=
    calc _ ≤ maybe .searchProbed * maybe .stateBacktracked * say .stateProcessed *
          maybe .propertyViolated * say .searchFinished := (assoc_le _ _ _).trans (assoc_le _ _ _)
      _ ≤ lastPhrase * say .searchFinished := mul_mono (le_add_right _ _) le_rfl
      _ ≤ ahead := last_le
  exact (assoc_le _ _ _).trans (mul_add_le.2 ⟨onward, atEnd⟩)

end Replay

/-! ## Simulation -/

namespace Simulation

/-- One iteration after which the simulation may go on. -/
def turnPhrase : Phrase :=
  maybe .searchProbed * say .stateAdvanced

@[inherit_doc Replay.lastPhrase]
def lastPhrase : Phrase :=
  1 + maybe .searchProbed * say .stateAdvanced * say .propertyViolated +
    maybe .searchProbed * say .stateProcessed * maybe .propertyViolated

/-- What a simulation announces. -/
def grammar : Phrase :=
  search (turnPhrase.repeated * lastPhrase)

@[inherit_doc DepthFirst.ahead]
def ahead : Phrase :=
  turnPhrase.repeated * (lastPhrase * say .searchFinished)

/-- What is yet to come after a step. -/
def advanced : Phrase :=
  ahead + say .propertyViolated * say .searchFinished

@[inherit_doc DepthFirst.polled]
def polled : Phrase :=
  say .stateAdvanced * advanced + say .stateProcessed * (maybe .propertyViolated * say .searchFinished)

theorem started_le : say .searchStarted * ahead ≤ grammar :=
  started_le_search_mul _ _

theorem last_le : lastPhrase * say .searchFinished ≤ ahead :=
  le_repeated_mul _ _

theorem finished_le : say .searchFinished ≤ ahead := by
  refine le_trans ?_ last_le
  simp only [le_iff, lastPhrase, words_mul, words_add, words_one, add_mul, one_mul]
  exact le_sup_of_le_left le_sup_left

theorem polled_le : maybe .searchProbed * polled ≤ ahead := by
  have onward : maybe .searchProbed * say .stateAdvanced * ahead ≤ ahead := mul_repeated_mul_le _ _
  have violated : maybe .searchProbed * say .stateAdvanced *
      (say .propertyViolated * say .searchFinished) ≤ ahead := by
    refine le_trans ?_ last_le
    simp only [le_iff, lastPhrase, words_mul, words_add, add_mul, mul_assoc]
    exact le_sup_of_le_left le_sup_right
  have processed : maybe .searchProbed *
      (say .stateProcessed * (maybe .propertyViolated * say .searchFinished)) ≤ ahead := by
    refine le_trans ?_ last_le
    simp only [le_iff, lastPhrase, words_mul, words_add, add_mul, mul_assoc]
    exact le_sup_right
  exact mul_add_le.2 ⟨(assoc_le _ _ _).trans (mul_add_le.2 ⟨onward, violated⟩), processed⟩

end Simulation

/-! ## Random restart -/

namespace RandomRestart

/-- One attempt to go on, which is not made if somebody asked to step back. -/
def attemptPhrase : Phrase :=
  say .stateAdvanced * maybe .propertyViolated + say .stateProcessed * maybe .propertyViolated +
    say .searchConstraintHit * maybe .propertyViolated + 1

@[inherit_doc DepthFirst.turnPhrase]
def turnPhrase : Phrase :=
  maybe .searchProbed * attemptPhrase * maybe .stateRestored

/-- What a random restart announces. -/
def grammar : Phrase :=
  search turnPhrase.repeated

@[inherit_doc DepthFirst.ahead]
def ahead : Phrase :=
  turnPhrase.repeated * say .searchFinished

/-- What is yet to come after an attempt. -/
def attempted : Phrase :=
  maybe .stateRestored * ahead

@[inherit_doc DepthFirst.polled]
def polled : Phrase :=
  attemptPhrase * attempted

theorem started_le : say .searchStarted * ahead ≤ grammar :=
  started_le_search _

theorem ahead_le : ahead ≤ attempted :=
  le_maybe_mul _ _

theorem restored_le : say .stateRestored * ahead ≤ attempted :=
  say_mul_le_maybe_mul _ _

theorem finished_le : say .searchFinished ≤ attempted :=
  (le_repeated_mul _ _).trans ahead_le

theorem polled_le : maybe .searchProbed * polled ≤ ahead :=
  calc maybe .searchProbed * (attemptPhrase * attempted)
      ≤ turnPhrase * ahead := (assoc_le _ _ _).trans (assoc_le _ _ _)
    _ ≤ ahead := mul_repeated_mul_le _ _

theorem advanced_le : say .stateAdvanced * (maybe .propertyViolated * attempted) ≤ polled := by
  simp only [le_iff, polled, attemptPhrase, words_mul, words_add, add_mul, mul_assoc]
  exact le_sup_of_le_left (le_sup_of_le_left le_sup_left)

theorem processed_le : say .stateProcessed * (maybe .propertyViolated * attempted) ≤ polled := by
  simp only [le_iff, polled, attemptPhrase, words_mul, words_add, add_mul, mul_assoc]
  exact le_sup_of_le_left (le_sup_of_le_left le_sup_right)

theorem constraintHit_le :
    say .searchConstraintHit * (maybe .propertyViolated * attempted) ≤ polled := by
  simp only [le_iff, polled, attemptPhrase, words_mul, words_add, add_mul, mul_assoc]
  exact le_sup_of_le_left le_sup_right

theorem interrupted_le : attempted ≤ polled := by
  simp only [le_iff, polled, attemptPhrase, words_mul, words_add, words_one, add_mul, one_mul]
  exact le_sup_right

/-- What is yet to come after an attempt, depending on whether it met a violation. -/
def due : Bool → Phrase
  | true => say .propertyViolated * attempted
  | false => attempted

theorem due_le (violated : Bool) : due violated ≤ maybe .propertyViolated * attempted := by
  cases violated with
  | true => exact say_mul_le_maybe_mul _ _
  | false => exact le_maybe_mul _ _

end RandomRestart

/-! ## Best-first search -/

namespace BestFirst

/-- What becomes of a state that was just entered. -/
def receivePhrase : Phrase :=
  say .propertyViolated + maybe .searchConstraintHit * maybe .stateStored

/-- One successor, up to where the search goes back. -/
def successorPhrase : Phrase :=
  maybe .searchProbed * say .stateAdvanced * receivePhrase * maybe .searchConstraintHit

/-- The last attempt to generate a successor. -/
def lastPhrase : Phrase :=
  1 + maybe .searchProbed * say .stateProcessed + successorPhrase

/-- The expansion of a state. -/
def expansionPhrase : Phrase :=
  (successorPhrase * say .stateBacktracked).repeated * lastPhrase

/-- What a best-first search announces. -/
def grammar : Phrase :=
  search (say .stateStored * expansionPhrase * (say .stateRestored * expansionPhrase).repeated)

/-- What is yet to come after an expansion. -/
def expanded : Phrase :=
  (say .stateRestored * expansionPhrase).repeated * say .searchFinished

/-- What is yet to come before another successor. -/
def ahead : Phrase :=
  (successorPhrase * say .stateBacktracked).repeated * (lastPhrase * expanded)

/-- What is yet to come before a successor is left. -/
def leaving : Phrase :=
  maybe .searchConstraintHit * (say .stateBacktracked * ahead + expanded)

@[inherit_doc DepthFirst.polled]
def polled : Phrase :=
  say .stateAdvanced * (receivePhrase * leaving) + say .stateProcessed * expanded

theorem started_le : say .searchStarted * (say .stateStored * ahead) ≤ grammar := by
  simp only [le_iff, grammar, search, ahead, expanded, expansionPhrase, words_mul, mul_assoc]
  exact le_rfl

theorem finished_le : say .searchFinished ≤ expanded :=
  le_repeated_mul _ _

theorem restored_le : say .stateRestored * ahead ≤ expanded :=
  calc say .stateRestored * ahead
      ≤ say .stateRestored * expansionPhrase * expanded :=
        (mul_mono le_rfl (assoc_le _ _ _)).trans (assoc_le _ _ _)
    _ ≤ expanded := mul_repeated_mul_le _ _

theorem last_le : lastPhrase * expanded ≤ ahead :=
  le_repeated_mul _ _

theorem expanded_le : expanded ≤ ahead := by
  refine le_trans ?_ last_le
  simp only [le_iff, lastPhrase, words_mul, words_add, words_one, add_mul, one_mul]
  exact le_sup_of_le_left le_sup_left

theorem polled_le : maybe .searchProbed * polled ≤ ahead := by
  have onward : successorPhrase * (say .stateBacktracked * ahead) ≤ ahead :=
    (assoc_le _ _ _).trans (mul_repeated_mul_le _ _)
  have stopped : successorPhrase * expanded ≤ ahead :=
    (mul_mono (le_add_right _ _) le_rfl).trans last_le
  have processed : maybe .searchProbed * (say .stateProcessed * expanded) ≤ ahead := by
    refine le_trans ?_ last_le
    simp only [le_iff, lastPhrase, words_mul, words_add, add_mul, mul_assoc]
    exact le_sup_of_le_left le_sup_right
  refine mul_add_le.2 ⟨?_, processed⟩
  calc maybe .searchProbed * (say .stateAdvanced * (receivePhrase * leaving))
      ≤ successorPhrase * (say .stateBacktracked * ahead + expanded) := by
        simp only [le_iff, leaving, successorPhrase, words_mul, mul_assoc]
        exact le_rfl
    _ ≤ ahead := mul_add_le.2 ⟨onward, stopped⟩

theorem violated_le : say .propertyViolated * leaving ≤ receivePhrase * leaving :=
  mul_mono (le_add_left _ _) le_rfl

theorem considered_le :
    maybe .searchConstraintHit * (maybe .stateStored * leaving) ≤ receivePhrase * leaving :=
  (assoc_le _ _ _).trans (mul_mono (le_add_right _ _) le_rfl)

end BestFirst

end Statewalk
