import ResidualPolicy.Proofs.Double.Overflow
import ResidualPolicy.Proofs.Double.Reading

/-!
# Numbers of the JSON grammar

A numeral is a number of the JSON grammar in its parts, so it has a text and an exact value. Its text
is read as a number exactly if the value does not overflow (`Numeral.isSome_ofText?_text`): what is
read at all is a decimal that is finite as a double (`Number.isSome_ofText?_iff`), also where it is an
integer that needs no double. An exponent without digits makes any text unreadable
(`Numeral.ofText?_unfinished`).
-/

namespace ResidualPolicy

open Double (IsDigits signed pointed)

/-! ## Numerals -/

namespace Numeral

/-- Digits before a point: a zero, or digits that do not begin with one. -/
def IsWhole (cs : List Char) : Prop :=
  cs = ['0'] ∨ IsDigits cs ∧ cs.head? ≠ some '0'

/-- Letters that an exponent begins with. -/
def IsMark (c : Char) : Prop :=
  c = 'e' ∨ c = 'E'

/-- What may stand between the mark of an exponent and its digits. -/
def IsSign (sign : Option Char) : Prop :=
  sign = none ∨ sign = some '+' ∨ sign = some '-'

/-- The exponent of a numeral. -/
structure Exponent where
  mark : Char
  sign : Option Char
  digits : List Char
  isMark : IsMark mark
  isSign : IsSign sign
  isDigits : IsDigits digits

def Exponent.text (e : Exponent) : List Char :=
  e.mark :: (e.sign.toList ++ e.digits)

def Exponent.value (e : Exponent) : Int :=
  let size : Int := Nat.ofDigitChars 10 e.digits 0
  if e.sign = some '-' then -size else size

/-- Text of the exponent, if there is one. -/
def exponentText : Option Exponent → List Char
  | none => []
  | some e => e.text

/-- An exponent whose digits are missing. -/
def IsUnfinished (cs : List Char) : Prop :=
  ∃ mark sign, cs = mark :: sign.toList ∧ IsMark mark ∧ IsSign sign

end Numeral

/-- A number `-?(0|[1-9][0-9]*)(\.[0-9]+)?([eE][+-]?[0-9]+)?` in its parts. -/
structure Numeral where
  negative : Bool
  whole : List Char
  /-- The digits behind the point. Where there are none, there is no point. -/
  fraction : List Char
  exponent : Option Numeral.Exponent
  isWhole : Numeral.IsWhole whole
  isFraction : ∀ c ∈ fraction, c.isDigit = true

namespace Numeral

def unsigned (n : Numeral) : List Char :=
  n.whole ++ (pointed n.fraction ++ exponentText n.exponent)

def text (n : Numeral) : List Char :=
  signed n.negative n.unsigned

/-- What all digits together count. -/
def digits (n : Numeral) : Nat :=
  Nat.ofDigitChars 10 (n.whole ++ n.fraction) 0

/-- The power of ten that the last digit counts. -/
def scale (n : Numeral) : Int :=
  n.exponent.elim 0 Exponent.value - n.fraction.length

def value (n : Numeral) : ℚ :=
  let size := (n.digits : ℚ) * 10 ^ n.scale
  if n.negative then -size else size

/-- The value does not overflow a double. -/
def Fits (n : Numeral) : Prop :=
  |n.value| < Double.overflowBound

theorem abs_value (n : Numeral) : |n.value| = n.digits * 10 ^ n.scale := by
  have size : (0 : ℚ) ≤ n.digits * 10 ^ n.scale := by positivity
  unfold value
  dsimp only
  split
  · rw [abs_neg, abs_of_nonneg size]
  · exact abs_of_nonneg size

theorem IsWhole.isDigits {cs : List Char} (h : IsWhole cs) : IsDigits cs := by
  rcases h with rfl | ⟨digits, -⟩
  · exact ⟨List.cons_ne_nil _ _, List.forall_mem_singleton.mpr rfl⟩
  · exact digits

theorem IsMark.beq {c : Char} (h : IsMark c) : (c == 'e' || c == 'E') = true := by
  rcases h with rfl | rfl <;> rfl

/-- A mark belongs to no part of a numeral before the exponent. -/
theorem IsMark.ends {c : Char} (h : IsMark c) : c.isDigit = false ∧ c ≠ '.' := by
  rcases h with rfl | rfl <;> decide

/-! ## Reading -/

theorem exponent?_text (e : Exponent) : Double.exponent? e.text = some e.value := by
  unfold Exponent.text Exponent.value Double.exponent?
  dsimp only
  rw [if_pos e.isMark.beq]
  rcases e.isSign with sign | sign | sign
  · have plain := Double.int?_signed false e.isDigits
    rw [sign]
    exact plain
  · have plus : Double.int? ('+' :: e.digits) =
        (Double.digits? e.digits).map fun n => if false then -(n : Int) else n := rfl
    rw [sign, Option.toList_some, List.singleton_append, plus,
      Double.digits?_of_isDigits e.isDigits]
    rfl
  · have minus := Double.int?_signed true e.isDigits
    rw [sign]
    exact minus

theorem exponent?_unfinished {cs : List Char} (h : IsUnfinished cs) : Double.exponent? cs = none := by
  obtain ⟨mark, sign, rfl, rfl | rfl, rfl | rfl | rfl⟩ := h <;> rfl

theorem decimal?_text (n : Numeral) :
    Double.decimal? n.text = some (.ofDecimal n.negative n.digits n.scale) := by
  have ends : ∀ c ∈ (exponentText n.exponent).head?, c.isDigit = false ∧ c ≠ '.' := by
    cases n.exponent with
    | none => exact nofun
    | some e => exact fun c first => Option.some.inj first ▸ e.isMark.ends
  have read := Double.decimal?_parts n.negative n.isWhole.isDigits n.isFraction _ ends
  have exponent : Double.exponent? (exponentText n.exponent) =
      some (n.exponent.elim 0 Exponent.value) := by
    cases n.exponent with
    | none => rfl
    | some e => exact exponent?_text e
  rw [exponent] at read
  exact read

end Numeral

/-! ## Numbers that are read -/

theorem Number.natAbs_le_of_int64? {i : Int} {word : Int64} (h : int64? i = some word) :
    i.natAbs ≤ 2 ^ 63 := by
  have low := word.minValue_le_toInt
  have high := word.toInt_le
  rw [toInt_of_int64? h] at low high
  have least : Int64.minValue.toInt = -2 ^ 63 := by decide
  have most : Int64.maxValue.toInt = 2 ^ 63 - 1 := by decide
  omega

/-- A text is read as a number exactly if it is that of a decimal which is finite as a double. -/
theorem Number.isSome_ofText?_iff {cs : List Char} :
    (ofText? cs).isSome = true ↔ ∃ d, Double.decimal? cs = some d ∧ d.isFinite = true := by
  unfold ofText?
  cases integer : (Double.int? cs).bind int64? with
  | some word =>
    obtain ⟨i, read, fits⟩ := Option.bind_eq_some_iff.mp integer
    obtain ⟨negative, decimal⟩ := Double.decimal?_of_int? read
    refine iff_of_true rfl ⟨_, decimal, (Double.isFinite_ofDecimal_iff ..).mpr ?_⟩
    rw [zpow_zero, mul_one]
    calc (i.natAbs : ℚ) ≤ 2 ^ 63 := by exact_mod_cast natAbs_le_of_int64? fits
      _ < Double.overflowBound := Double.two_pow_lt_overflowBound (by decide)
  | none =>
    cases Double.decimal? cs with
    | none => exact iff_of_false Bool.false_ne_true nofun
    | some d =>
      by_cases finite : d.isFinite = true
      · exact iff_of_true (by simp [finite]) ⟨d, rfl, finite⟩
      · exact iff_of_false (by simp [finite]) (by simp [finite])

namespace Numeral

/-- The text of a numeral is read exactly if its value does not overflow. -/
theorem isSome_ofText?_text (n : Numeral) : (Number.ofText? n.text).isSome = true ↔ n.Fits := by
  rw [Number.isSome_ofText?_iff, Fits, abs_value, ← Double.isFinite_ofDecimal_iff n.negative,
    decimal?_text]
  simp

/-- An exponent without digits makes the text of a numeral unreadable. -/
theorem ofText?_unfinished {n : Numeral} (plain : n.exponent = none) {stray : List Char}
    (unfinished : IsUnfinished stray) : Number.ofText? (n.text ++ stray) = none := by
  have digitless := exponent?_unfinished unfinished
  obtain ⟨mark, sign, rfl, isMark, -⟩ := unfinished
  have read := Double.decimal?_parts n.negative n.isWhole.isDigits n.isFraction
    (mark :: sign.toList) fun c first => Option.some.inj first ▸ isMark.ends
  rw [digitless, Option.map_none] at read
  rw [text, unsigned, plain, exponentText, List.append_nil, Double.signed_append, List.append_assoc,
    ← Option.not_isSome_iff_eq_none, Number.isSome_ofText?_iff, read]
  exact nofun

end Numeral

end ResidualPolicy
