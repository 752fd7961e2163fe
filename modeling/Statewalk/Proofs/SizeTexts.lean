import Statewalk.Config

/-! # Texts of memory sizes

Which texts stand for a memory size is given by a grammar: a decimal number with an optional plus sign,
or such a number, white space and the letter of a unit, in either case with white space around it.  A text
is read exactly if the grammar derives it and the bytes fit into a word, and every other text is refused
as it stands.  So the text of a size is read as that size.
-/

namespace Statewalk

open Statewalk.Text

namespace MemorySize

/-! ## The grammar -/

/-- The text is a decimal number, leading zeros allowed, with an optional plus sign. -/
inductive Numeral : List Char → Nat → Prop where
  | unsigned {ds : List Char} : ds ≠ [] → ds.all Char.isDigit = true → Numeral ds (Nat.ofDigitChars 10 ds 0)
  | signed {ds : List Char} : ds ≠ [] → ds.all Char.isDigit = true →
      Numeral ('+' :: ds) (Nat.ofDigitChars 10 ds 0)

/-- The letter stands for a unit with this number of bytes. -/
inductive UnitLetter : Char → Nat → Prop where
  | kibi {c : Char} : c ∈ ['k', 'K'] → UnitLetter c 1024
  | mebi {c : Char} : c ∈ ['m', 'M'] → UnitLetter c (1024 * 1024)
  | gibi {c : Char} : c ∈ ['g', 'G'] → UnitLetter c (1024 * 1024 * 1024)

/-- The text is a number of bytes, or a number of units, without white space around it. -/
inductive Amount : List Char → Nat → Prop where
  | bytes {cs : List Char} {n : Nat} : Numeral cs n → Amount cs n
  | units {cs ws : List Char} {c : Char} {n factor : Nat} : Numeral cs n → ws.all isBlank = true →
      UnitLetter c factor → Amount (cs ++ ws ++ [c]) (n * factor)

/-- The text stands for a number of bytes, of any size. -/
def Denotes (s : String) (n : Nat) : Prop :=
  ∃ as cs bs, s.toList = as ++ cs ++ bs ∧ as.all isBlank = true ∧ bs.all isBlank = true ∧ Amount cs n

/-! ## Characters -/

theorem isBlank_of_isDigit {c : Char} (digit : c.isDigit = true) : isBlank c = false := by
  simp only [Char.isDigit, Bool.and_eq_true, decide_eq_true_eq, ge_iff_le, UInt32.le_iff_toNat_le] at digit
  have range : 48 ≤ c.toNat ∧ c.toNat ≤ 57 := digit
  simp only [isBlank, Bool.or_eq_false_iff, Bool.and_eq_false_iff, decide_eq_false_iff_not, beq_eq_false_iff_ne]
  omega

theorem unitFactor?_of_isDigit {c : Char} (digit : c.isDigit = true) : unitFactor? c = none := by
  have other (d : Char) (letter : d.isDigit = false) : c ≠ d := by
    rintro rfl
    simp [digit] at letter
  simp [unitFactor?, other 'k' rfl, other 'K' rfl, other 'm' rfl, other 'M' rfl, other 'g' rfl, other 'G' rfl]

theorem unitFactor?_eq_some_iff {c : Char} {factor : Nat} : unitFactor? c = some factor ↔ UnitLetter c factor := by
  constructor
  · intro found
    simp only [unitFactor?, Bool.or_eq_true, decide_eq_true_eq] at found
    split at found
    · cases found
      exact .kibi (by simpa)
    split at found
    · cases found
      exact .mebi (by simpa)
    split at found
    · cases found
      exact .gibi (by simpa)
    · cases found
  · rintro (letter | letter | letter) <;>
    · simp only [List.mem_cons, List.not_mem_nil, or_false] at letter
      rcases letter with rfl | rfl <;> rfl

theorem UnitLetter.pos {c : Char} {factor : Nat} (h : UnitLetter c factor) : 0 < factor := by
  cases h <;> decide

theorem UnitLetter.isBlank {c : Char} {factor : Nat} (h : UnitLetter c factor) : isBlank c = false := by
  rcases h with letter | letter | letter <;>
  · simp only [List.mem_cons, List.not_mem_nil, or_false] at letter
    rcases letter with rfl | rfl <;> rfl

/-! ## Numbers -/

variable {cs : List Char} {n : Nat}

theorem readDigits?_eq_some_iff :
    readDigits? cs = some n ↔ cs ≠ [] ∧ cs.all Char.isDigit = true ∧ Nat.ofDigitChars 10 cs 0 = n := by
  rw [readDigits?, digitsValue, digitsValueFrom_eq]
  cases cs with
  | nil => simp
  | cons c cs => simp

/-- A number is read exactly if it is one. -/
theorem readCount?_eq_some_iff : readCount? cs = some n ↔ Numeral cs n := by
  constructor
  · intro read
    unfold readCount? at read
    split at read
    · obtain ⟨some, digits, rfl⟩ := readDigits?_eq_some_iff.1 read
      exact .signed some digits
    · obtain ⟨some, digits, rfl⟩ := readDigits?_eq_some_iff.1 read
      exact .unsigned some digits
  · rintro (⟨some, digits⟩ | ⟨some, digits⟩)
    · -- A digit is no plus sign.
      have unsigned : readCount? cs = readDigits? cs := by
        unfold readCount?
        split
        · simp [Char.isDigit] at digits
        · rfl
      rw [unsigned]
      exact readDigits?_eq_some_iff.2 ⟨some, digits, rfl⟩
    · exact readDigits?_eq_some_iff.2 ⟨some, digits, rfl⟩

theorem Numeral.ne_nil (h : Numeral cs n) : cs ≠ [] := by
  cases h with
  | unsigned some _ => exact some
  | signed some _ => simp

theorem isDigit_of_mem_getLast? {ds : List Char} (digits : ds.all Char.isDigit = true) {c : Char}
    (last : c ∈ ds.getLast?) : c.isDigit = true :=
  List.all_eq_true.1 digits c (List.mem_of_getLast? last)

/-- A number ends with a digit. -/
theorem Numeral.isDigit_last (h : Numeral cs n) {c : Char} (last : c ∈ cs.getLast?) : c.isDigit = true := by
  cases h with
  | unsigned some digits => exact isDigit_of_mem_getLast? digits last
  | @signed ds some digits =>
    rw [List.getLast?_cons_of_ne_nil some] at last
    exact isDigit_of_mem_getLast? digits last

/-- A number starts with a digit or a plus sign. -/
theorem Numeral.isBlank_head (h : Numeral cs n) {c : Char} (first : c ∈ cs.head?) : isBlank c = false := by
  cases h with
  | unsigned some digits => exact isBlank_of_isDigit (List.all_eq_true.1 digits c (List.mem_of_head? first))
  | signed some digits =>
    cases first
    rfl

theorem Numeral.trimmed (h : Numeral cs n) : Trimmed cs :=
  ⟨fun _ first => h.isBlank_head first, fun _ last => isBlank_of_isDigit (h.isDigit_last last)⟩

/-! ## Amounts -/

/-- What is read of a text without white space around it. -/
def readAmount? (cs : List Char) : Option Nat :=
  (readCount? (trim (splitUnit cs).1)).map (· * (splitUnit cs).2)

theorem splitUnit_concat {cs : List Char} {c : Char} {factor : Nat} (unit : UnitLetter c factor) :
    splitUnit (cs ++ [c]) = (cs, factor) := by
  simp [splitUnit, unitFactor?_eq_some_iff.2 unit]

theorem splitUnit_cases (cs : List Char) :
    (∃ ds c factor, cs = ds ++ [c] ∧ UnitLetter c factor) ∨ splitUnit cs = (cs, 1) := by
  cases found : cs.getLast?.bind unitFactor? with
  | none => exact .inr (by simp [splitUnit, found])
  | some factor =>
    obtain ⟨c, last, unit⟩ := Option.bind_eq_some_iff.1 found
    obtain ⟨ds, rfl⟩ := List.getLast?_eq_some_iff.1 last
    exact .inl ⟨ds, c, factor, rfl, unitFactor?_eq_some_iff.1 unit⟩

theorem Amount.trimmed (h : Amount cs n) : Trimmed cs := by
  cases h with
  | bytes number => exact number.trimmed
  | @units cs ws c _ factor number blank unit =>
    refine ⟨?_, ?_⟩
    · intro d first
      have start : d ∈ cs.head? := by
        cases cs with
        | nil => exact absurd rfl number.ne_nil
        | cons e cs => simpa using first
      exact number.isBlank_head start
    · intro d last
      obtain rfl : c = d := by simpa using last
      exact unit.isBlank

/-- A text without white space around it is read exactly if it is an amount. -/
theorem readAmount?_eq_some_iff (trimmed : Trimmed cs) : readAmount? cs = some n ↔ Amount cs n := by
  constructor
  · intro read
    obtain ⟨count, counted, rfl⟩ := Option.map_eq_some_iff.1 read
    have number := readCount?_eq_some_iff.1 counted
    obtain ⟨ds, c, factor, rfl, unit⟩ | plain := splitUnit_cases cs
    · rw [splitUnit_concat unit] at number ⊢
      obtain ⟨as, bs, before, after, split⟩ := exists_eq_append_trim ds
      -- White space before the number would stand at the front of the whole text.
      have start : as = [] := by
        cases as with
        | nil => rfl
        | cons a as =>
          rw [split] at trimmed
          have inside := trimmed.1 a rfl
          simp [inside] at before
      rw [start, List.nil_append] at split
      have amount := Amount.units number after unit
      rwa [← split] at amount
    · have whole : trim cs = cs := by simpa using @trim_append [] cs [] rfl rfl trimmed
      rw [plain] at number ⊢
      rw [whole] at number
      rw [Nat.mul_one]
      exact .bytes number
  · rintro (⟨number⟩ | @⟨cs, ws, c, count, factor, number, blank, unit⟩)
    · have plain : splitUnit cs = (cs, 1) := by
        rw [splitUnit]
        cases last : cs.getLast? with
        | none => rfl
        | some c => simp [unitFactor?_of_isDigit (number.isDigit_last last)]
      have whole : trim cs = cs := by simpa using @trim_append [] cs [] rfl rfl trimmed
      simp [readAmount?, plain, whole, readCount?_eq_some_iff.2 number]
    · have whole : trim (cs ++ ws) = cs := @trim_append [] cs ws rfl blank number.trimmed
      rw [readAmount?, splitUnit_concat unit, whole, readCount?_eq_some_iff.2 number]
      rfl

/-! ## Sizes -/

theorem splitUnit_pos (cs : List Char) : 0 < (splitUnit cs).2 := by
  obtain ⟨ds, c, factor, rfl, unit⟩ | plain := splitUnit_cases cs
  · rw [splitUnit_concat unit]
    exact unit.pos
  · simp [plain]

/-- The count needs no check of its own: it is not larger than the bytes. -/
theorem parse?_eq (s : String) :
    parse? s = ((readAmount? (trim s.toList)).filter (· < wordLimit)).map MemorySize.mk := by
  have pos := splitUnit_pos (trim s.toList)
  rw [parse?, readAmount?]
  generalize splitUnit (trim s.toList) = unit at pos
  obtain ⟨count, factor⟩ := unit
  dsimp only at pos ⊢
  cases readCount? (trim count) with
  | none => rfl
  | some n =>
    have le : n ≤ n * factor := Nat.le_mul_of_pos_right n pos
    by_cases small : n * factor < wordLimit
    · have count : n < wordLimit := by omega
      simp [small, count, Option.filter_some]
    · simp [small, Option.filter_some]

theorem denotes_iff (s : String) (n : Nat) : Denotes s n ↔ Amount (trim s.toList) n := by
  constructor
  · rintro ⟨as, cs, bs, split, before, after, amount⟩
    rwa [split, trim_append before after amount.trimmed]
  · intro amount
    obtain ⟨as, bs, before, after, split⟩ := exists_eq_append_trim s.toList
    exact ⟨as, trim s.toList, bs, split, before, after, amount⟩

theorem parse?_eq_some_iff {s : String} {m : MemorySize} :
    parse? s = some m ↔ Denotes s m.bytes ∧ m.bytes < wordLimit := by
  rw [parse?_eq, denotes_iff, ← readAmount?_eq_some_iff (trimmed_trim _)]
  constructor
  · intro read
    obtain ⟨n, kept, rfl⟩ := Option.map_eq_some_iff.1 read
    simpa [Option.filter_eq_some_iff] using kept
  · rintro ⟨read, small⟩
    exact Option.map_eq_some_iff.2 ⟨m.bytes, by simp [read, small], rfl⟩

theorem parse_eq_ok_iff {s : String} {m : MemorySize} : parse s = .ok m ↔ parse? s = some m := by
  rw [parse]
  cases parse? s <;> simp

/-- The text of a size is one of the texts that stand for it. -/
theorem denotes_text (m : MemorySize) : Denotes m.text m.bytes := by
  have number : Numeral (digits m.bytes) m.bytes := by
    have value := digitsValue_digits m.bytes
    rw [digitsValue, digitsValueFrom_eq] at value
    have unsigned := @Numeral.unsigned (digits m.bytes) Nat.toDigits_ne_nil
      (List.all_eq_true.2 fun _ => isDigit_of_mem_digits)
    rwa [value] at unsigned
  exact ⟨[], digits m.bytes, [], by simp [text], rfl, rfl, .bytes number⟩

theorem parse_text {m : MemorySize} (small : m.bytes < wordLimit) : parse m.text = .ok m :=
  parse_eq_ok_iff.2 (parse?_eq_some_iff.2 ⟨denotes_text m, small⟩)

/-- A text is accepted exactly if it stands for a number of bytes that fits into a word, and then as that
    number; every other text is refused as it stands.  What was accepted is read again from its own text,
    and so is every size. -/
theorem parse_accepts_grammar (s : String) :
    (∀ m, parse s = .ok m ↔ Denotes s m.bytes ∧ m.bytes < wordLimit) ∧
      (parse s = .error (.invalidMemorySize s) ↔ ∀ n, Denotes s n → wordLimit ≤ n) ∧
      (∀ m, parse s = .ok m → parse m.text = parse s) ∧
      ∀ m : MemorySize, m.bytes < wordLimit → parse m.text = .ok m := by
  have accepted (m : MemorySize) : parse s = .ok m ↔ Denotes s m.bytes ∧ m.bytes < wordLimit :=
    parse_eq_ok_iff.trans parse?_eq_some_iff
  refine ⟨accepted, ?_, ?_, fun m small => parse_text small⟩
  · constructor
    · intro refused n denotes
      by_cases small : n < wordLimit
      · have read := (accepted ⟨n⟩).2 ⟨denotes, small⟩
        simp [refused] at read
      · omega
    · intro large
      rw [parse]
      cases read : parse? s with
      | none => rfl
      | some m =>
        obtain ⟨denotes, small⟩ := parse?_eq_some_iff.1 read
        have := large m.bytes denotes
        omega
  · intro m read
    rw [read]
    exact parse_text ((accepted m).1 read).2

/-- The greatest size that can be given in kibibytes, with all that the grammar allows around its digits,
    and the next one. -/
theorem parse_accepts_grammar_at_limit :
    parse "\u00a0+0018014398509481983 K\t" = .ok ⟨18446744073709550592⟩ ∧
      ∀ n, Denotes "18014398509481984k" n → wordLimit ≤ n := by
  have number : Numeral "+0018014398509481983".toList 18014398509481983 :=
    readCount?_eq_some_iff.1 (by decide +kernel)
  have amount : Amount ("+0018014398509481983".toList ++ [' '] ++ ['K']) (18014398509481983 * 1024) :=
    .units number rfl (.kibi (by decide))
  refine ⟨((parse_accepts_grammar _).1 _).2 ⟨⟨['\u00a0'], _, ['\t'], ?_, rfl, rfl, amount⟩, by decide⟩, ?_⟩
  · decide +kernel
  · have refused : parse? "18014398509481984k" = none := by decide +kernel
    exact (parse_accepts_grammar _).2.1.1 (by rw [parse, refused])

end MemorySize

end Statewalk
