/-! # White space

The characters with the Unicode property `White_Space`, and texts with such characters removed
from their ends.
-/

namespace Statewalk.Text

/-- The 25 characters with the Unicode property `White_Space`. -/
def isBlank (c : Char) : Bool :=
  let n := c.toNat
  (0x9 ≤ n && n ≤ 0xD) || n == 0x20 || n == 0x85 || n == 0xA0 || n == 0x1680 ||
    (0x2000 ≤ n && n ≤ 0x200A) || n == 0x2028 || n == 0x2029 || n == 0x202F || n == 0x205F ||
    n == 0x3000

/-- Drops the white space in front. -/
def trimStart (cs : List Char) : List Char :=
  cs.dropWhile isBlank

/-- Drops the white space at the end. -/
def trimEnd (cs : List Char) : List Char :=
  (cs.reverse.dropWhile isBlank).reverse

/-- Drops the white space at both ends. -/
def trim (cs : List Char) : List Char :=
  trimEnd (trimStart cs)

/-! ## Laws -/

@[simp] theorem trimStart_nil : trimStart [] = [] := rfl

@[simp] theorem trimEnd_nil : trimEnd [] = [] := rfl

@[simp] theorem trim_nil : trim [] = [] := rfl

/-- No white space stands at either end. -/
def Trimmed (cs : List Char) : Prop :=
  (∀ c ∈ cs.head?, isBlank c = false) ∧ ∀ c ∈ cs.getLast?, isBlank c = false

theorem dropWhile_isBlank_of_head? {cs : List Char} (h : ∀ c ∈ cs.head?, isBlank c = false) :
    cs.dropWhile isBlank = cs := by
  cases cs with
  | nil => rfl
  | cons c cs => simp [h c rfl]

theorem isBlank_of_mem_head?_dropWhile {cs : List Char} {c : Char}
    (first : c ∈ (cs.dropWhile isBlank).head?) : isBlank c = false := by
  have stops := List.head?_dropWhile_not isBlank cs
  rw [Option.mem_def.1 first] at stops
  exact stops

theorem dropWhile_isBlank_append {bs : List Char} (blank : bs.all isBlank = true) (cs : List Char) :
    (bs ++ cs).dropWhile isBlank = cs.dropWhile isBlank :=
  List.dropWhile_append_of_pos fun c member => List.all_eq_true.1 blank c member

/-- White space around a text is all that is dropped. -/
theorem trim_append {as cs bs : List Char} (before : as.all isBlank = true) (after : bs.all isBlank = true)
    (trimmed : Trimmed cs) : trim (as ++ cs ++ bs) = cs := by
  have back : cs.reverse.dropWhile isBlank = cs.reverse :=
    dropWhile_isBlank_of_head? (by simpa using trimmed.2)
  have start : trimStart (as ++ cs ++ bs) = trimStart (cs ++ bs) := by
    rw [List.append_assoc]
    exact dropWhile_isBlank_append before _
  have finish : trimEnd (cs ++ bs) = cs := by
    rw [trimEnd, List.reverse_append, dropWhile_isBlank_append (by simpa using after), back, List.reverse_reverse]
  cases cs with
  | nil =>
    -- Nothing but white space: it goes at once, and nothing is left for the end.
    have none := dropWhile_isBlank_append after []
    rw [List.append_nil] at none
    rw [trim, start, List.nil_append, trimStart, none]
    rfl
  | cons c cs =>
    have kept : trimStart (c :: cs ++ bs) = c :: cs ++ bs :=
      dropWhile_isBlank_of_head? (by simpa using trimmed.1)
    rw [trim, start, kept, finish]

/-- A text is what is left of it between white space. -/
theorem exists_eq_append_trim (cs : List Char) :
    ∃ as bs, as.all isBlank = true ∧ bs.all isBlank = true ∧ cs = as ++ trim cs ++ bs := by
  refine ⟨cs.takeWhile isBlank, ((trimStart cs).reverse.takeWhile isBlank).reverse, List.all_takeWhile, ?_, ?_⟩
  · rw [List.all_reverse]
    exact List.all_takeWhile
  · rw [trim, trimEnd, List.append_assoc, ← List.reverse_append, List.takeWhile_append_dropWhile,
      List.reverse_reverse, trimStart, List.takeWhile_append_dropWhile]

theorem trimmed_trim (cs : List Char) : Trimmed (trim cs) := by
  have last : ∀ c ∈ (trim cs).getLast?, isBlank c = false := by
    intro c member
    rw [trim, trimEnd, List.getLast?_reverse] at member
    exact isBlank_of_mem_head?_dropWhile member
  refine ⟨?_, last⟩
  intro c member
  -- What is cut off at the end leaves the first character in its place.
  have split : trim cs ++ ((trimStart cs).reverse.takeWhile isBlank).reverse = trimStart cs := by
    rw [trim, trimEnd, ← List.reverse_append, List.takeWhile_append_dropWhile, List.reverse_reverse]
  have first : c ∈ (trimStart cs).head? := by
    rw [← split, List.head?_append, Option.mem_def.1 member]
    rfl
  exact isBlank_of_mem_head?_dropWhile first

end Statewalk.Text
