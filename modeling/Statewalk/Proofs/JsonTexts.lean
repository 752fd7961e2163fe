import Statewalk.Json.Parser
import Statewalk.Json.Printer

/-! # Texts of JSON values

`Json.Spells` is the grammar of texts: which values, items and members a text stands for, blanks between
tokens included.  The reader accepts whatever the grammar derives and gives back the value that was
spelled, and the compact layout of a value is derived by the grammar.  So a value that was written is read
as it was.
-/

namespace Statewalk

open Statewalk.Text

/-! ## Numbers -/

namespace Number

/-- What stands after the point are digits. -/
def Proper (n : Number) : Prop :=
  ∀ d ∈ n.fraction, d < 10

/-- The point and the digits after it, if there are any. -/
def point (fraction : List Nat) : List Char :=
  if fraction.isEmpty then [] else '.' :: fraction.map digitChar

/-- The exponent with its mark, if there is one. -/
def power : Option Int → List Char
  | none => []
  | some e => renderExponent e

theorem render_eq (n : Number) :
    n.render = (if n.negative then ['-'] else []) ++ digits n.whole ++ point n.fraction ++ power n.exponent :=
  rfl

theorem isDigit_digitChar {d : Nat} (small : d < 10) : (digitChar d).isDigit = true := by
  revert d
  decide

theorem digitValue_digitChar {d : Nat} (small : d < 10) : digitValue (digitChar d) = d := by
  revert d
  decide

theorem digitsValue_padded (e : Nat) : digitsValue (renderExponent.padded e) = e := by
  unfold renderExponent.padded
  split
  · have zero : digitsValue ('0' :: digits e) = digitsValue (digits e) := rfl
    rw [zero, digitsValue_digits]
  · exact digitsValue_digits e

theorem isDigit_of_mem_padded {e : Nat} {c : Char} (member : c ∈ renderExponent.padded e) : c.isDigit = true := by
  unfold renderExponent.padded at member
  split at member
  · cases List.mem_cons.1 member with
    | inl zero => exact zero ▸ rfl
    | inr rest => exact isDigit_of_mem_digits rest
  · exact isDigit_of_mem_digits member

theorem padded_ne_nil (e : Nat) : renderExponent.padded e ≠ [] := by
  unfold renderExponent.padded
  split
  · simp
  · exact Nat.toDigits_ne_nil

end Number

namespace Json

open Number (point power)

/-- No digit goes on with a run of digits. -/
def Stops (rest : List Char) : Prop :=
  ∀ c ∈ rest.head?, c.isDigit = false

/-- Neither a digit nor a point goes on with a whole number. -/
def Breaks (rest : List Char) : Prop :=
  ∀ c ∈ rest.head?, c.isDigit = false ∧ c ≠ '.'

/-- Nothing goes on with a number. -/
def Halts (rest : List Char) : Prop :=
  ∀ c ∈ rest.head?, c.isDigit = false ∧ c ≠ '.' ∧ c ≠ 'e' ∧ c ≠ 'E'

variable {rest : List Char}

theorem Breaks.stops (h : Breaks rest) : Stops rest :=
  fun c member => (h c member).1

theorem Halts.stops (h : Halts rest) : Stops rest :=
  fun c member => (h c member).1

theorem Halts.breaks_power (h : Halts rest) (e : Option Int) : Breaks (power e ++ rest) := by
  cases e with
  | none => exact fun c member => ⟨(h c member).1, (h c member).2.1⟩
  | some e => cases e <;> simp [Breaks, power, Number.renderExponent]

theorem Breaks.stops_point (h : Breaks rest) (ds : List Nat) : Stops (point ds ++ rest) := by
  cases ds with
  | nil => exact h.stops
  | cons d ds => simp [Stops, point]

theorem whole?_append (h : Stops rest) (n : Nat) : whole? (digits n ++ rest) = some (n, rest) := by
  rw [whole?, spanDigits_append (fun _ => isDigit_of_mem_digits) h]
  have value := digitsValue_digits n
  cases written : digits n with
  | nil => exact absurd written Nat.toDigits_ne_nil
  | cons d ds =>
    rw [written] at value
    by_cases zero : d = '0'
    · subst zero
      have alone := eq_nil_of_digits_eq_zero_cons written
      subst alone
      simp [value]
    · simp [zero, value]

theorem fraction?_append (h : Breaks rest) {ds : List Nat} (proper : ∀ d ∈ ds, d < 10) :
    fraction? (point ds ++ rest) = some (ds, rest) := by
  cases ds with
  | nil =>
    cases rest with
    | nil => rfl
    | cons c rest => simp [point, fraction?, (h c rfl).2]
  | cons d ds =>
    have run : ∀ c ∈ (d :: ds).map Number.digitChar, c.isDigit = true := by
      intro c member
      obtain ⟨x, known, rfl⟩ := List.mem_map.1 member
      exact Number.isDigit_digitChar (proper x known)
    have values : ((d :: ds).map Number.digitChar).map digitValue = d :: ds := by
      rw [List.map_map]
      exact (List.map_congr_left fun x known => Number.digitValue_digitChar (proper x known)).trans
        (List.map_id _)
    have span := spanDigits_append run h.stops
    simp only [List.map_cons, List.cons_append] at span values
    simpa [point, fraction?, span] using values

theorem exponentSize?_append (h : Stops rest) (e : Nat) :
    exponentSize? (Number.renderExponent.padded e ++ rest) = some (e, rest) := by
  rw [exponentSize?, spanDigits_append (fun _ => Number.isDigit_of_mem_padded) h]
  have value := Number.digitsValue_padded e
  cases written : Number.renderExponent.padded e with
  | nil => exact absurd written (Number.padded_ne_nil e)
  | cons d ds =>
    rw [written] at value
    simp [value]

theorem exponent?_append (h : Halts rest) (e : Option Int) : exponent? (power e ++ rest) = some (e, rest) := by
  have size := exponentSize?_append h.stops
  cases e with
  | none =>
    cases rest with
    | nil => rfl
    | cons c rest =>
      obtain ⟨-, -, small, large⟩ := h c rfl
      simp [power, exponent?, small, large]
  | some e =>
    cases e with
    | ofNat e => simp [power, Number.renderExponent, exponent?, exponentBody?, size]
    | negSucc e => simp [power, Number.renderExponent, exponent?, exponentBody?, size, Int.negSucc_eq]

theorem unsigned?_append (h : Halts rest) {n : Number} (proper : n.Proper) :
    unsigned? n.negative (digits n.whole ++ (point n.fraction ++ (power n.exponent ++ rest))) =
      some (n, rest) := by
  have breaks := h.breaks_power n.exponent
  simp [unsigned?, whole?_append (breaks.stops_point n.fraction), fraction?_append breaks proper,
    exponent?_append h]

theorem number?_append (h : Halts rest) {n : Number} (proper : n.Proper) :
    number? (n.render ++ rest) = some (n, rest) := by
  have unsigned := unsigned?_append h proper
  rw [Number.render_eq]
  cases sign : n.negative with
  | true => simpa [number?, sign] using unsigned
  | false =>
    -- Without a sign the first character is a digit.
    cases written : digits n.whole with
    | nil => exact absurd written Nat.toDigits_ne_nil
    | cons d ds =>
      have isDigit : d.isDigit = true := isDigit_of_mem_digits (n := n.whole) (by simp [written])
      have unsigned' : d ≠ '-' := by
        rintro rfl
        cases isDigit
      simpa [number?, unsigned', sign, written] using unsigned

/-! ## Strings -/

/-- The piece that is read for a character: controls without a short escape are given by their code. -/
def piece (c : Char) : Piece :=
  if c.toNat < 0x20 ∧ c.toNat ∉ [0x08, 0x09, 0x0A, 0x0C, 0x0D] then .code c.toNat else .char c

theorem hexValue?_hexDigit {n : Nat} (small : n < 16) : hexValue? (hexDigit n) = some n := by
  revert n
  decide

theorem pieces?_short {e c : Char} (short : shortEscape? e = some c) (cs : List Char) :
    pieces? ('\\' :: e :: cs) = (pieces? cs).map fun p => (.char c :: p.1, p.2) := by
  have other : e ≠ 'u' := by
    rintro rfl
    cases short
  rw [pieces?.eq_def]
  cases rest : pieces? cs <;> simp [other, short, rest]

theorem pieces?_code {a b c d : Char} {n : Nat} (code : hexCode? a b c d = some n) (cs : List Char) :
    pieces? ('\\' :: 'u' :: a :: b :: c :: d :: cs) = (pieces? cs).map fun p => (.code n :: p.1, p.2) := by
  rw [pieces?.eq_def]
  cases rest : pieces? cs <;> simp [code, rest]

theorem pieces?_plain {c : Char} (quote : c ≠ '"') (slash : c ≠ '\\') (plain : ¬ c.toNat < 0x20)
    (cs : List Char) : pieces? (c :: cs) = (pieces? cs).map fun p => (.char c :: p.1, p.2) := by
  rw [pieces?.eq_def]
  cases rest : pieces? cs <;> simp [quote, slash, plain, rest]

theorem pieces?_quote (cs : List Char) : pieces? ('"' :: cs) = some ([], cs) := by
  rw [pieces?.eq_def]
  rfl

/-- A control is written as a short escape, or by its code. -/
theorem escape_control {c : Char} (control : c.toNat < 0x20) :
    (∃ e ∈ ['b', 't', 'n', 'f', 'r'], escape c = ['\\', e] ∧ shortEscape? e = some c ∧ piece c = .char c) ∨
      ∃ a b, escape c = ['\\', 'u', '0', '0', a, b] ∧ hexCode? '0' '0' a b = some c.toNat ∧
        piece c = .code c.toNat := by
  -- A table of the controls, with `any` for `∃`: it is decided over the five letters only.
  have all : ∀ n < 0x20, (['b', 't', 'n', 'f', 'r'].any fun e => escape (Char.ofNat n) = ['\\', e] ∧
        shortEscape? e = some (Char.ofNat n) ∧ piece (Char.ofNat n) = .char (Char.ofNat n)) = true ∨
      escape (Char.ofNat n) = ['\\', 'u', '0', '0', hexDigit (n / 16), hexDigit (n % 16)] ∧
        piece (Char.ofNat n) = .code n := by decide
  have here := all c.toNat control
  rw [Char.ofNat_toNat, List.any_eq_true] at here
  rcases here with ⟨e, short, told⟩ | ⟨written, code⟩
  · exact .inl ⟨e, short, of_decide_eq_true told⟩
  · refine .inr ⟨_, _, written, ?_, code⟩
    have zero : hexValue? '0' = some 0 := rfl
    have value : c.toNat / 16 * 16 + c.toNat % 16 = c.toNat := by omega
    simp [hexCode?, zero, hexValue?_hexDigit (n := c.toNat / 16) (by omega),
      hexValue?_hexDigit (n := c.toNat % 16) (by omega), value]

theorem pieces?_escape (c : Char) (cs : List Char) :
    pieces? (escape c ++ cs) = (pieces? cs).map fun p => (piece c :: p.1, p.2) := by
  by_cases control : c.toNat < 0x20
  · obtain ⟨e, -, written, short, char⟩ | ⟨a, b, written, coded, code⟩ := escape_control control
    · rw [written, char]
      exact pieces?_short short cs
    · rw [written, code]
      exact pieces?_code coded cs
  · have char : piece c = .char c := by simp [piece, control]
    rw [char]
    by_cases quote : c = '"'
    · subst quote
      exact pieces?_short rfl cs
    by_cases slash : c = '\\'
    · subst slash
      exact pieces?_short rfl cs
    have written : escape c = [c] := by
      rw [escape, if_neg quote, if_neg slash]
      repeat rw [if_neg (by omega)]
    rw [written]
    exact pieces?_plain quote slash control cs

theorem join?_piece (c : Char) (ps : List Piece) : join? (piece c :: ps) = (join? ps).map (c :: ·) := by
  unfold piece
  split
  · rename_i control
    have high : isHighSurrogate c.toNat = false := by
      simp [isHighSurrogate]
      omega
    have low : isLowSurrogate c.toNat = false := by
      simp [isLowSurrogate]
      omega
    cases ps with
    | nil => simp [join?, high, low]
    | cons p ps => cases p <;> simp [join?, high, low]
  · rfl

theorem pieces?_text (cs rest : List Char) :
    pieces? (cs.flatMap escape ++ '"' :: rest) = some (cs.map piece, rest) := by
  induction cs with
  | nil => exact pieces?_quote rest
  | cons c cs ih => simp [pieces?_escape, ih]

theorem join?_text (cs : List Char) : join? (cs.map piece) = some cs := by
  induction cs with
  | nil => rfl
  | cons c cs ih => simp [join?_piece, ih]

/-- A string literal is read as it was written, also one that denotes no text. -/
theorem exists_quote_eq (k : Literal) :
    ∃ body, quote k = '"' :: body ∧ ∀ rest, literal? (body ++ rest) = some (k, rest) := by
  cases k with
  | none =>
    refine ⟨_, rfl, fun rest => ?_⟩
    have lone := pieces?_code (n := 0xD800) (a := 'd') (b := '8') (c := '0') (d := '0') rfl ('"' :: rest)
    rw [pieces?_quote] at lone
    rw [literal?]
    exact congrArg _ lone
  | some s =>
    refine ⟨s.toList.flatMap escape ++ ['"'], rfl, ?_⟩
    intro rest
    simp [literal?, pieces?_text, join?_text]

/-! ## The grammar -/

/-- A blank that may stand between tokens. -/
def isBlank (c : Char) : Bool :=
  c = ' ' || c = '\n' || c = '\t' || c = '\r'

/-- What a stretch of text stands for. -/
inductive Form where
  | value (j : Json)
  /-- One or more items up to the end of their list. -/
  | items (js : List Json)
  /-- One or more members up to the end of their object. -/
  | members (ms : List (Literal × Json))

/-- The text stands for the form.  Tokens are spelled as they are written; blanks may stand before each of
    them. -/
inductive Spells : List Char → Form → Prop where
  | blank {c : Char} {cs : List Char} {j : Json} : isBlank c = true → Spells cs (.value j) →
      Spells (c :: cs) (.value j)
  | null : Spells ['n', 'u', 'l', 'l'] (.value .null)
  | true : Spells ['t', 'r', 'u', 'e'] (.value (.bool true))
  | false : Spells ['f', 'a', 'l', 's', 'e'] (.value (.bool false))
  | num {n : Number} : n.Proper → Spells n.render (.value (.num n))
  | str (s : Literal) : Spells (quote s) (.value (.str s))
  | noItems (bs : List Char) : bs.all isBlank = true → Spells ('[' :: bs ++ [']']) (.value (.arr []))
  | list {cs : List Char} {js : List Json} : Spells cs (.items js) → Spells ('[' :: cs) (.value (.arr js))
  | lastItem {cs : List Char} {j : Json} (bs : List Char) : Spells cs (.value j) → bs.all isBlank = true →
      Spells (cs ++ bs ++ [']']) (.items [j])
  | item {cs cs' : List Char} {j : Json} {js : List Json} (bs : List Char) : Spells cs (.value j) →
      bs.all isBlank = true → Spells cs' (.items js) → Spells (cs ++ bs ++ ',' :: cs') (.items (j :: js))
  | noMembers (bs : List Char) : bs.all isBlank = true →
      Spells ('\x7b' :: bs ++ ['\x7d']) (.value (.obj []))
  | object {cs : List Char} {ms : List (Literal × Json)} : Spells cs (.members ms) →
      Spells ('\x7b' :: cs) (.value (.obj ms))
  | lastMember {cs : List Char} {j : Json} (k : Literal) (as bs ds : List Char) : as.all isBlank = true →
      bs.all isBlank = true → Spells cs (.value j) → ds.all isBlank = true →
      Spells (as ++ quote k ++ bs ++ ':' :: cs ++ ds ++ ['\x7d']) (.members [(k, j)])
  | member {cs cs' : List Char} {j : Json} {ms : List (Literal × Json)} (k : Literal) (as bs ds : List Char) :
      as.all isBlank = true → bs.all isBlank = true → Spells cs (.value j) → ds.all isBlank = true →
      Spells cs' (.members ms) →
      Spells (as ++ quote k ++ bs ++ ':' :: cs ++ ds ++ ',' :: cs') (.members ((k, j) :: ms))

/-! ## Reading -/

theorem skipBlanks_append {bs : List Char} (blank : bs.all isBlank = true) (cs : List Char) :
    skipBlanks (bs ++ cs) = skipBlanks cs :=
  List.dropWhile_append_of_pos (p := isBlank) fun c member => List.all_eq_true.1 blank c member

theorem skipBlanks_token {bs : List Char} (blank : bs.all isBlank = true) {c : Char} (token : isBlank c = false)
    (cs : List Char) : skipBlanks (bs ++ c :: cs) = c :: cs := by
  rw [skipBlanks_append blank]
  exact List.dropWhile_cons_of_neg (p := isBlank) (by simp [token])

theorem skipBlanks_cons {c : Char} (token : isBlank c = false) (cs : List Char) : skipBlanks (c :: cs) = c :: cs :=
  @skipBlanks_token [] rfl c token cs

/-- Blanks, commas and closing brackets do not go on with a number. -/
theorem halts_cons {c : Char} (h : isBlank c = true ∨ c ∈ [',', ']', '\x7d']) (cs : List Char) :
    Halts (c :: cs) := by
  have listed : c ∈ [' ', '\n', '\t', '\r', ',', ']', '\x7d'] := by
    simp only [isBlank, Bool.or_eq_true, decide_eq_true_eq, List.mem_cons, List.not_mem_nil, or_false,
      or_assoc] at h ⊢
    exact h
  have all : ([' ', '\n', '\t', '\r', ',', ']', '\x7d'].all fun d =>
      d.isDigit = false ∧ d ≠ '.' ∧ d ≠ 'e' ∧ d ≠ 'E') = true := by decide
  intro d head
  obtain rfl : c = d := by simpa using head
  exact of_decide_eq_true (List.all_eq_true.1 all c listed)

theorem halts_blanks {bs : List Char} (blank : bs.all isBlank = true) : Halts bs := by
  cases bs with
  | nil => simp [Halts]
  | cons b bs => exact halts_cons (.inl (Bool.and_eq_true_iff.1 blank).1) bs

theorem halts_token {bs : List Char} (blank : bs.all isBlank = true) {c : Char} (token : c ∈ [',', ']', '\x7d'])
    (cs : List Char) : Halts (bs ++ c :: cs) := by
  cases bs with
  | nil => exact halts_cons (.inr token) cs
  | cons b bs => exact halts_cons (.inl (Bool.and_eq_true_iff.1 blank).1) (bs ++ c :: cs)

/-- What the reader makes of a text that is followed by something else. -/
def Form.Read (cs : List Char) : Form → Prop
  | .value j => ∀ n rest, 3 * cs.length ≤ n → Halts rest → value? n (cs ++ rest) = some (j, rest)
  | .items js => ∀ n rest, 3 * cs.length + 1 ≤ n → itemRun? n (cs ++ rest) = some (js, rest)
  | .members ms => ∀ n rest, 3 * cs.length + 1 ≤ n → memberRun? n (cs ++ rest) = some (ms, rest)

theorem value?_blank {c : Char} (blank : isBlank c = true) (n : Nat) (cs : List Char) :
    value? n (c :: cs) = value? n cs := by
  have skipped : skipBlanks (c :: cs) = skipBlanks cs := @skipBlanks_append [c] (by simp [blank]) cs
  cases n with
  | zero => simp [value?]
  | succ n => simp only [value?, skipped]

/-- A number starts with a sign or a digit. -/
theorem exists_render_eq (n : Number) : ∃ c cs, n.render = c :: cs ∧ (c = '-' ∨ c.isDigit = true) := by
  rw [Number.render_eq]
  cases n.negative with
  | true => exact ⟨'-', _, rfl, .inl rfl⟩
  | false =>
    cases written : digits n.whole with
    | nil => exact absurd written Nat.toDigits_ne_nil
    | cons d ds => exact ⟨d, _, rfl, .inr (isDigit_of_mem_digits (n := n.whole) (by simp [written]))⟩

theorem value?_number {n : Number} (proper : n.Proper) (halts : Halts rest) (m : Nat) :
    value? (m + 1) (n.render ++ rest) = some (.num n, rest) := by
  have read := number?_append halts proper
  obtain ⟨c, cs, written, start⟩ := exists_render_eq n
  rw [written, List.cons_append] at read ⊢
  have other (d : Char) (sign : d ≠ '-') (digit : d.isDigit = false) : c ≠ d := by
    rintro rfl
    simp [sign, digit] at start
  have token : isBlank c = false := by
    simp [isBlank, other ' ' (by decide) rfl, other '\n' (by decide) rfl, other '\t' (by decide) rfl,
      other '\r' (by decide) rfl]
  simp [value?, skipBlanks_cons token, read, other '"' (by decide) rfl, other '[' (by decide) rfl,
    other '\x7b' (by decide) rfl, other 'n' (by decide) rfl, other 't' (by decide) rfl,
    other 'f' (by decide) rfl]

theorem key?_append {as bs : List Char} (before : as.all isBlank = true) (after : bs.all isBlank = true)
    (k : Literal) (cs : List Char) : key? (as ++ quote k ++ bs ++ ':' :: cs) = some (k, cs) := by
  obtain ⟨body, written, read⟩ := exists_quote_eq k
  have quoted : skipBlanks (as ++ ('"' :: body ++ (bs ++ ':' :: cs))) = '"' :: body ++ (bs ++ ':' :: cs) := by
    exact skipBlanks_token before rfl _
  have colon : skipBlanks (bs ++ ':' :: cs) = ':' :: cs := skipBlanks_token after rfl cs
  have open? : after? ['"'] ('"' :: body ++ (bs ++ ':' :: cs)) = some (body ++ (bs ++ ':' :: cs)) := rfl
  have colon? : after? [':'] (':' :: cs) = some cs := rfl
  rw [List.append_assoc, List.append_assoc, written, key?, quoted, open?]
  simp [read, colon, colon?]

theorem eq_cons_of_after? {c : Char} {cs rest : List Char} (h : after? [c] cs = some rest) : cs = c :: rest := by
  cases cs with
  | nil => cases h
  | cons d cs =>
    simp only [after?] at h
    split at h
    · rename_i same
      cases h
      rw [same]
    · cases h

/-- No item starts with a closing bracket. -/
theorem after?_of_itemRun? {n : Nat} {cs : List Char} {r : List Json × List Char}
    (h : itemRun? n cs = some r) : after? [']'] (skipBlanks cs) = none := by
  cases found : after? [']'] (skipBlanks cs) with
  | none => rfl
  | some after =>
    have bracket := eq_cons_of_after? found
    have noNumber : number? (']' :: after) = none := rfl
    have noValue (m : Nat) : value? m cs = none := by
      cases m with
      | zero => simp [value?]
      | succ m => simp [value?, bracket, noNumber]
    cases n with
    | zero => simp [itemRun?] at h
    | succ n => simp [itemRun?, noValue] at h

/-- Every member starts with a quote. -/
theorem after?_of_memberRun? {n : Nat} {cs : List Char} {r : List (Literal × Json) × List Char}
    (h : memberRun? n cs = some r) : after? ['\x7d'] (skipBlanks cs) = none := by
  cases found : after? ['\x7d'] (skipBlanks cs) with
  | none => rfl
  | some after =>
    have brace := eq_cons_of_after? found
    have noKey : key? cs = none := by simp [key?, brace, after?]
    cases n with
    | zero => simp [memberRun?] at h
    | succ n => simp [memberRun?, noKey] at h

/-- The reader gives back what was spelled. -/
theorem Spells.read {cs : List Char} {x : Form} (h : Spells cs x) : x.Read cs := by
  have more {n k : Nat} (enough : 3 * (k + 1) ≤ n) : ∃ m, n = m + 2 ∧ 3 * k + 1 ≤ m :=
    ⟨n - 2, by omega, by omega⟩
  induction h with
  | @blank c cs j blank _ ih =>
    intro n rest enough halts
    rw [List.length_cons] at enough
    rw [List.cons_append, value?_blank blank]
    exact ih n rest (by omega) halts
  | null =>
    intro n rest enough _
    obtain ⟨n, rfl, -⟩ := more enough
    simp [value?, skipBlanks_cons, isBlank, word?, after?]
  | true =>
    intro n rest enough _
    obtain ⟨n, rfl, -⟩ := more enough
    simp [value?, skipBlanks_cons, isBlank, word?, after?]
  | false =>
    intro n rest enough _
    obtain ⟨n, rfl, -⟩ := more enough
    simp [value?, skipBlanks_cons, isBlank, word?, after?]
  | @num x proper =>
    intro n rest enough halts
    obtain ⟨c, cs, written, -⟩ := exists_render_eq x
    rw [written, List.length_cons] at enough
    obtain ⟨n, rfl, -⟩ := more enough
    exact value?_number proper halts (n + 1)
  | str s =>
    intro n rest enough _
    obtain ⟨body, written, read⟩ := exists_quote_eq s
    rw [written] at enough ⊢
    obtain ⟨n, rfl, -⟩ := more enough
    simp [value?, skipBlanks_cons, isBlank, read]
  | noItems bs blank =>
    intro n rest enough _
    rw [List.cons_append, List.length_cons] at enough
    obtain ⟨n, rfl, -⟩ := more enough
    have closed : skipBlanks (bs ++ ']' :: rest) = ']' :: rest := skipBlanks_token blank rfl rest
    simp [value?, skipBlanks_cons, isBlank, items?, closed, after?]
  | @list cs js _ ih =>
    intro n rest enough _
    rw [List.length_cons] at enough
    obtain ⟨n, rfl, left⟩ := more enough
    have run := ih n rest left
    simp [value?, skipBlanks_cons, isBlank, items?, after?_of_itemRun? run, run]
  | @lastItem cs j bs _ blank ih =>
    intro n rest enough
    simp only [List.length_append, List.length_singleton] at enough
    obtain ⟨n, rfl⟩ : ∃ m, n = m + 1 := ⟨n - 1, by omega⟩
    have closed : skipBlanks (bs ++ ']' :: rest) = ']' :: rest := skipBlanks_token blank rfl rest
    have read := ih n (bs ++ ']' :: rest) (by omega) (halts_token blank (by simp) rest)
    simp [itemRun?, read, closed]
  | @item cs cs' j js bs _ blank _ ih ih' =>
    intro n rest enough
    simp only [List.length_append, List.length_cons] at enough
    obtain ⟨n, rfl⟩ : ∃ m, n = m + 1 := ⟨n - 1, by omega⟩
    have parted : skipBlanks (bs ++ ',' :: (cs' ++ rest)) = ',' :: (cs' ++ rest) := skipBlanks_token blank rfl _
    have read := ih n (bs ++ ',' :: (cs' ++ rest)) (by omega) (halts_token blank (by simp) _)
    have others := ih' n rest (by omega)
    simp [itemRun?, read, parted, others]
  | noMembers bs blank =>
    intro n rest enough _
    rw [List.cons_append, List.length_cons] at enough
    obtain ⟨n, rfl, -⟩ := more enough
    have closed : skipBlanks (bs ++ '\x7d' :: rest) = '\x7d' :: rest := skipBlanks_token blank rfl rest
    simp [value?, skipBlanks_cons, isBlank, members?, closed, after?]
  | @object cs ms _ ih =>
    intro n rest enough _
    rw [List.length_cons] at enough
    obtain ⟨n, rfl, left⟩ := more enough
    have run := ih n rest left
    simp [value?, skipBlanks_cons, isBlank, members?, after?_of_memberRun? run, run]
  | @lastMember cs j k as bs ds before after _ blank ih =>
    intro n rest enough
    simp only [List.length_append, List.length_cons, List.length_nil] at enough
    obtain ⟨n, rfl⟩ : ∃ m, n = m + 1 := ⟨n - 1, by omega⟩
    have closed : skipBlanks (ds ++ '\x7d' :: rest) = '\x7d' :: rest := skipBlanks_token blank rfl rest
    have key := key?_append before after k (cs ++ (ds ++ '\x7d' :: rest))
    have read := ih n (ds ++ '\x7d' :: rest) (by omega) (halts_token blank (by simp) rest)
    simp only [List.append_assoc] at key
    simp [memberRun?, key, read, closed]
  | @member cs cs' j ms k as bs ds before after _ blank _ ih ih' =>
    intro n rest enough
    simp only [List.length_append, List.length_cons] at enough
    obtain ⟨n, rfl⟩ : ∃ m, n = m + 1 := ⟨n - 1, by omega⟩
    have parted : skipBlanks (ds ++ ',' :: (cs' ++ rest)) = ',' :: (cs' ++ rest) := skipBlanks_token blank rfl _
    have key := key?_append before after k (cs ++ (ds ++ ',' :: (cs' ++ rest)))
    have read := ih n (ds ++ ',' :: (cs' ++ rest)) (by omega) (halts_token blank (by simp) _)
    have others := ih' n rest (by omega)
    simp only [List.append_assoc] at key
    simp [memberRun?, key, read, parted, others]

/-- A text that spells a value is read as that value; blanks may follow it. -/
theorem parse_append_of_spells {cs bs : List Char} {j : Json} (h : Spells cs (.value j))
    (blank : bs.all isBlank = true) : parse (String.ofList (cs ++ bs)) = some j := by
  have read := h.read (3 * (cs ++ bs).length + 3) bs (by simp; omega) (halts_blanks blank)
  have left : skipBlanks bs = [] := by
    have none := skipBlanks_append blank []
    rwa [List.append_nil] at none
  rw [parse, String.toList_ofList, read]
  simp [left]

theorem parse_of_spells {cs : List Char} {j : Json} (h : Spells cs (.value j)) :
    parse (String.ofList cs) = some j := by
  simpa using @parse_append_of_spells cs [] j h rfl

/-! ## Writing -/

mutual

/-- All numbers of the value are proper. -/
def Proper : Json → Prop
  | .num n => n.Proper
  | .arr js => ProperItems js
  | .obj ms => ProperMembers ms
  | _ => True

def ProperItems : List Json → Prop
  | [] => True
  | j :: js => j.Proper ∧ ProperItems js

def ProperMembers : List (Literal × Json) → Prop
  | [] => True
  | (_, j) :: ms => j.Proper ∧ ProperMembers ms

end

mutual

/-- The compact layout spells the value. -/
theorem spells_render : ∀ j : Json, j.Proper → Spells j.render (.value j)
  | .null, _ => .null
  | .bool true, _ => .true
  | .bool false, _ => .false
  | .num _, proper => .num proper
  | .str s, _ => .str s
  | .arr [], _ => .noItems [] rfl
  | .arr (j :: js), proper => .list (spells_renderItems (j :: js) (by simp) proper)
  | .obj [], _ => .noMembers [] rfl
  | .obj (m :: ms), proper => .object (spells_renderMembers (m :: ms) (by simp) proper)

theorem spells_renderItems : ∀ js : List Json, js ≠ [] → ProperItems js →
    Spells (renderItems js ++ [']']) (.items js)
  | [], nonempty, _ => absurd rfl nonempty
  | [j], _, proper => by
    have last := Spells.lastItem [] (spells_render j proper.1) rfl
    simpa [renderItems] using last
  | j :: j' :: js, _, proper => by
    have others := spells_renderItems (j' :: js) (by simp) proper.2
    have item := Spells.item [] (spells_render j proper.1) rfl others
    simpa [renderItems] using item

theorem spells_renderMembers : ∀ ms : List (Literal × Json), ms ≠ [] → ProperMembers ms →
    Spells (renderMembers ms ++ ['\x7d']) (.members ms)
  | [], nonempty, _ => absurd rfl nonempty
  | [(k, j)], _, proper => by
    have last := Spells.lastMember k [] [] [] rfl rfl (spells_render j proper.1) rfl
    simpa [renderMembers] using last
  | (k, j) :: m :: ms, _, proper => by
    have others := spells_renderMembers (m :: ms) (by simp) proper.2
    have member := Spells.member k [] [] [] rfl rfl (spells_render j proper.1) rfl
      others
    simpa [renderMembers] using member

end

/-- A value that was written is read as it was. -/
theorem parse_compact {j : Json} (proper : j.Proper) : parse j.compact = some j :=
  parse_of_spells (spells_render j proper)

/-! ## Writing with an indent

Here too a value is read as it was, with or without blanks after it. -/

theorem all_newline (level : Nat) : (newline level).all isBlank = true := by
  rw [newline, List.all_cons, List.all_replicate]
  simp [isBlank]

theorem spells_blanks {cs : List Char} {j : Json} (h : Spells cs (.value j)) {bs : List Char}
    (blank : bs.all isBlank = true) : Spells (bs ++ cs) (.value j) := by
  induction bs with
  | nil => exact h
  | cons b bs ih =>
    obtain ⟨first, others⟩ := Bool.and_eq_true_iff.1 blank
    exact .blank first (ih others)

mutual

/-- The indented layout spells the value. -/
theorem spells_layout : ∀ (level : Nat) (j : Json), j.Proper → Spells (j.layout level) (.value j)
  | _, .null, _ => .null
  | _, .bool true, _ => .true
  | _, .bool false, _ => .false
  | _, .num _, proper => .num proper
  | _, .str s, _ => .str s
  | _, .arr [], _ => .noItems [] rfl
  | level, .arr (j :: js), proper => .list (spells_layoutItems level (j :: js) (by simp) proper)
  | _, .obj [], _ => .noMembers [] rfl
  | level, .obj (m :: ms), proper => .object (spells_layoutMembers level (m :: ms) (by simp) proper)

theorem spells_layoutItems : ∀ (level : Nat) (js : List Json), js ≠ [] → ProperItems js →
    Spells (layoutItems (level + 1) js ++ newline level ++ [']']) (.items js)
  | _, [], nonempty, _ => absurd rfl nonempty
  | level, [j], _, proper => by
    have value := spells_blanks (spells_layout (level + 1) j proper.1) (all_newline (level + 1))
    have last := Spells.lastItem (newline level) value (all_newline level)
    simpa [layoutItems] using last
  | level, j :: j' :: js, _, proper => by
    have value := spells_blanks (spells_layout (level + 1) j proper.1) (all_newline (level + 1))
    have others := spells_layoutItems level (j' :: js) (by simp) proper.2
    have item := Spells.item [] value rfl others
    simpa [layoutItems] using item

theorem spells_layoutMembers : ∀ (level : Nat) (ms : List (Literal × Json)), ms ≠ [] → ProperMembers ms →
    Spells (layoutMembers (level + 1) ms ++ newline level ++ ['\x7d']) (.members ms)
  | _, [], nonempty, _ => absurd rfl nonempty
  | level, [(k, j)], _, proper => by
    have value := @spells_blanks _ _ (spells_layout (level + 1) j proper.1) [' '] rfl
    have last := Spells.lastMember k (newline (level + 1)) [] (newline level) (all_newline (level + 1)) rfl value
      (all_newline level)
    simpa [layoutMembers] using last
  | level, (k, j) :: m :: ms, _, proper => by
    have value := @spells_blanks _ _ (spells_layout (level + 1) j proper.1) [' '] rfl
    have others := spells_layoutMembers level (m :: ms) (by simp) proper.2
    have member := Spells.member k (newline (level + 1)) [] [] (all_newline (level + 1)) rfl value rfl others
    simpa [layoutMembers] using member

end

theorem parse_pretty_append {j : Json} (proper : j.Proper) {bs : List Char} (blank : bs.all isBlank = true) :
    parse (j.pretty ++ String.ofList bs) = some j := by
  rw [pretty, ← String.ofList_append]
  exact parse_append_of_spells (spells_layout 0 j proper) blank

theorem parse_pretty {j : Json} (proper : j.Proper) : parse j.pretty = some j :=
  parse_of_spells (spells_layout 0 j proper)

end Json

end Statewalk
