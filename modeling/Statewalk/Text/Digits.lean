/-! # Decimal digits

Natural numbers as runs of ASCII digits: the value of a run, and the run without leading zeros
that is written for a number.
-/

namespace Statewalk.Text

/-- The number that an ASCII digit stands for. -/
def digitValue (c : Char) : Nat :=
  c.toNat - '0'.toNat

/-- The number written by a run of digits after the digits of `acc`. -/
def digitsValueFrom (acc : Nat) (cs : List Char) : Nat :=
  cs.foldl (fun n c => n * 10 + digitValue c) acc

/-- The number that a run of digits stands for; leading zeros count for nothing. -/
def digitsValue (cs : List Char) : Nat :=
  digitsValueFrom 0 cs

/-- The digits of a number, without leading zeros. -/
def digits (n : Nat) : List Char :=
  Nat.toDigits 10 n

/-- Reads a non-empty run of digits. -/
def readDigits? (cs : List Char) : Option Nat :=
  if !cs.isEmpty && cs.all Char.isDigit then some (digitsValue cs) else none

/-- Splits off the leading run of digits. -/
def spanDigits (cs : List Char) : List Char × List Char :=
  (cs.takeWhile Char.isDigit, cs.dropWhile Char.isDigit)

/-! ## Laws -/

theorem digitsValueFrom_eq (acc : Nat) (cs : List Char) :
    digitsValueFrom acc cs = Nat.ofDigitChars 10 cs acc := by
  simp only [digitsValueFrom, digitValue, Nat.ofDigitChars_eq_foldl, Nat.mul_comm]

@[simp] theorem digitsValue_digits (n : Nat) : digitsValue (digits n) = n := by
  rw [digitsValue, digitsValueFrom_eq, digits, Nat.ofDigitChars_toDigits (by decide) (by decide)]

theorem isDigit_of_mem_digits {n : Nat} {c : Char} (member : c ∈ digits n) : c.isDigit = true :=
  Nat.isDigit_of_mem_toDigits (by decide) (by decide) member

/-- A number that starts with the digit zero is zero. -/
theorem eq_nil_of_digits_eq_zero_cons {n : Nat} {ds : List Char} (h : digits n = '0' :: ds) :
    ds = [] := by
  induction n using Nat.strongRecOn generalizing ds with
  | ind n ih =>
    by_cases small : n < 10
    · rw [digits, Nat.toDigits_of_lt_base small] at h
      exact (List.cons.inj h).2.symm
    · -- The digits before the last one are those of the tenth part, which is not zero.
      have split : digits n = digits (n / 10) ++ [(n % 10).digitChar] :=
        Nat.toDigits_of_base_le (by decide) (by omega)
      cases first : digits (n / 10) with
      | nil => exact absurd first Nat.toDigits_ne_nil
      | cons d rest =>
        rw [split, first] at h
        obtain ⟨rfl, -⟩ := List.cons.inj h
        have alone := ih (n / 10) (by omega) first
        have tenth := digitsValue_digits (n / 10)
        rw [first, alone] at tenth
        have zero : digitsValue ['0'] = 0 := rfl
        omega

/-- A run of digits is split off up to the first character that is none. -/
theorem spanDigits_append {ds rest : List Char} (run : ∀ c ∈ ds, c.isDigit = true)
    (ends : ∀ c ∈ rest.head?, c.isDigit = false) : spanDigits (ds ++ rest) = (ds, rest) := by
  have stops : rest.takeWhile Char.isDigit = [] ∧ rest.dropWhile Char.isDigit = rest := by
    cases rest with
    | nil => simp
    | cons c rest => simp [ends c rfl]
  rw [spanDigits, List.takeWhile_append_of_pos run, List.dropWhile_append_of_pos run, stops.1,
    stops.2, List.append_nil]

end Statewalk.Text
