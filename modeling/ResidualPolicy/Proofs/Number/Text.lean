import ResidualPolicy.Proofs.Double.Reading
import ResidualPolicy.Proofs.Notation.Lexeme

/-!
# Numbers read back

A number is written without an exponent and without a mark on whole doubles, so the text of a whole
double beyond `2 ^ 53` is that of an integer, the shortest decimal filled up with zeros. That
integer is rounded to the double, but it is the value of the double only by chance, and text of an
integer of 64 bits is read exactly.

Every finite number can be read back (`Number.exists_ofText?_text_iff`), and what is read equals it
unless it is such a double. Two different numbers with one text are such a double and the integer
that its text spells out, or a double that equals that integer.
-/

namespace ResidualPolicy.Number

/-- Whether the number is neither infinite nor NaN. -/
def isFinite : Number → Bool
  | .int _ => true
  | .float d => d.isFinite

/-- Whether the digits that are written for a number are its value where they are read exactly:
where the number is a whole double beyond `2 ^ 53` and they spell out an integer of 64 bits, it is
that integer. -/
def SpelledExactly : Number → Prop
  | .int _ => True
  | .float d => ∀ i, d.toInt? = some i → Nat.pow 2 53 < i.natAbs →
      (int64? (d.spelled .upward)).isSome = true → d.spelled .upward = i

/-! ## Texts -/

theorem smallInt?_of_toInt? {d : Double} {i : Int} (value : d.toInt? = some i)
    (small : i.natAbs ≤ Nat.pow 2 53) : smallInt? d = some (Int64.ofInt i) := by
  obtain ⟨finite, units⟩ := Double.units_of_toInt? value
  have place : (float d).place = .point (i * Double.unitsPerOne) := by
    rw [Number.place, placeOf_finite finite, units]
  exact toInt64?_of_place place small

theorem magnitude_ne_zero {d : Double} (finite : d.isFinite = true) (large : smallInt? d = none) :
    d.magnitude ≠ 0 := by
  intro zero
  have none : d.absUnits = 0 := by
    rw [Double.absUnits_eq_scaled, zero]
    rfl
  have units : d.units = 0 := by
    rw [← Int.natAbs_eq_zero, Double.units_natAbs, none]
  rw [smallInt?_of_toInt? (Double.toInt?_of_zero finite units) (Nat.zero_le _)] at large
  exact nomatch large

/-- A double that is no small integer is written with the digits of its shortest decimal. -/
theorem text_float {d : Double} (finite : d.isFinite = true) (large : smallInt? d = none) :
    (float d).text = d.shortestText .upward := by
  have number : d.isNaN = false := by
    have := of_decide_eq_true finite
    exact decide_eq_false (by omega)
  have integer : (float d).toInt64? = none := large
  unfold text textIn
  rw [integer]
  dsimp only
  unfold toDouble Double.text Double.Decimal.text
  dsimp only
  rw [number, finite, if_neg Bool.false_ne_true, if_neg (by decide),
    if_neg (magnitude_ne_zero finite large)]
  unfold Double.shortestText Double.signed notationLayout
  dsimp only
  rw [if_pos (rfl : true = true)]

/-! ## Reading -/

/-- The text of a number that is an integer is read as the integer. -/
theorem ofText?_text_of_toInt64? {n : Number} {word : Int64} (h : n.toInt64? = some word) :
    ofText? n.text = some (int word) := by
  unfold text textIn
  rw [h]
  exact Notation.ofText?_intText word

/-- A double that is not written as an integer of 64 bits is read as itself. -/
theorem ofText?_text_float {d : Double} (finite : d.isFinite = true) (large : smallInt? d = none)
    (inexact : (Double.int? (d.shortestText .upward)).bind int64? = none) :
    ofText? (float d).text = some (float d) := by
  have nonzero := magnitude_ne_zero finite large
  unfold ofText?
  rw [text_float finite large, inexact, Double.decimal?_shortestText .upward finite nonzero]
  dsimp only [Option.bind_some]
  rw [if_pos finite, ofDouble, large]

/-- A double whose text is that of an integer of 64 bits is read as that integer. -/
theorem ofText?_text_whole {d : Double} (finite : d.isFinite = true) (large : smallInt? d = none)
    (whole : 0 ≤ (Double.shortest .upward d.magnitude).exponent) {word : Int64}
    (fits : int64? (d.spelled .upward) = some word) :
    ofText? (float d).text = some (int word) := by
  unfold ofText?
  rw [text_float finite large, Double.int?_shortestText_of_nonneg whole, Option.bind_some, fits]

/-- A double is written without a point where it is an integer. -/
theorem exponent_nonneg_iff {d : Double} (finite : d.isFinite = true) (large : smallInt? d = none) :
    0 ≤ (Double.shortest .upward d.magnitude).exponent ↔ ∃ i, d.toInt? = some i := by
  rw [Double.shortest_whole_iff .upward (magnitude_ne_zero finite large)]
  constructor
  · intro divides
    have rest : d.absUnits % Double.unitsPerOne = 0 := Nat.mod_eq_zero_of_dvd divides
    unfold Double.toInt?
    rw [finite, rest]
    exact ⟨_, rfl⟩
  · rintro ⟨i, value⟩
    obtain ⟨_, units⟩ := Double.units_of_toInt? value
    rw [← Double.absUnits_eq_scaled, ← Double.units_natAbs, units, Int.natAbs_mul,
      Int.natAbs_natCast]
    exact Nat.dvd_mul_left _ _

theorem beq_iff_place_eq {m n : Number} : (m == n) = true ↔ m.place = n.place := by
  refine ⟨place_eq_of_beq, fun same => ?_⟩
  show (m.compare n == .eq) = true
  rw [compare_eq_place, same]
  exact beq_iff_eq.mpr Std.ReflCmp.compare_self

/-- An integer equals a whole double if the double is that integer. -/
theorem int_beq_float_iff {d : Double} {i : Int} (value : d.toInt? = some i) {word : Int64} :
    (int word == float d) = true ↔ word.toInt = i := by
  obtain ⟨finite, units⟩ := Double.units_of_toInt? value
  have unit : (Double.unitsPerOne : Int) ≠ 0 :=
    Int.natCast_ne_zero.mpr (Nat.ne_of_gt Double.unitsPerOne_pos)
  rw [beq_iff_place_eq, place, place, placeOf_finite finite, units, Place.point.injEq,
    Int.mul_eq_mul_right_iff unit]

theorem beyond_of_toInt? {d : Double} {i : Int} (value : d.toInt? = some i)
    (large : smallInt? d = none) : Nat.pow 2 53 < i.natAbs := by
  by_contra within
  rw [smallInt?_of_toInt? value (Nat.not_lt.mp within)] at large
  exact nomatch large

/-- What is spelled otherwise is a whole double beyond `2 ^ 53` that is written as an integer of
64 bits. -/
theorem exists_of_not_spelledExactly {n : Number} (h : ¬ n.SpelledExactly) :
    ∃ d i word, n = float d ∧ d.toInt? = some i ∧ smallInt? d = none ∧
      int64? (d.spelled .upward) = some word ∧ d.spelled .upward ≠ i := by
  cases n with
  | int word => exact absurd trivial h
  | float d =>
    unfold SpelledExactly at h
    push Not at h
    obtain ⟨i, value, beyond, fits, other⟩ := h
    obtain ⟨word, fits⟩ := Option.isSome_iff_exists.mp fits
    have large : smallInt? d = none := by
      unfold smallInt?
      rw [value, Option.filter_some, if_neg (by simpa using beyond)]
      rfl
    exact ⟨d, i, word, rfl, value, large, fits, other⟩

/-- A text is that of an integer of 64 bits only where a whole double spells it out. -/
theorem exists_of_int64?_shortestText {d : Double} (finite : d.isFinite = true)
    (large : smallInt? d = none) {word : Int64}
    (fits : (Double.int? (d.shortestText .upward)).bind int64? = some word) :
    ∃ i, d.toInt? = some i ∧ int64? (d.spelled .upward) = some word := by
  by_cases whole : 0 ≤ (Double.shortest .upward d.magnitude).exponent
  · obtain ⟨i, value⟩ := (exponent_nonneg_iff finite large).mp whole
    rw [Double.int?_shortestText_of_nonneg whole, Option.bind_some] at fits
    exact ⟨i, value, fits⟩
  · rw [Double.int?_shortestText_of_neg (Int.not_le.mp whole)] at fits
    exact nomatch fits

/-- The text of a number that is spelled exactly is that of a number that equals it. -/
theorem SpelledExactly.exists_read {n : Number} (spelled : n.SpelledExactly)
    (finite : n.isFinite = true) : ∃ m, ofText? n.text = some m ∧ (m == n) = true := by
  cases integer : n.toInt64? with
  | some word =>
    exact ⟨int word, ofText?_text_of_toInt64? integer,
      beq_iff_place_eq.mpr (place_of_toInt64? integer).symm⟩
  | none =>
    cases n with
    | int word => exact nomatch integer
    | float d =>
      have large : smallInt? d = none := integer
      cases fits : (Double.int? (d.shortestText .upward)).bind int64? with
      | none => exact ⟨float d, ofText?_text_float finite large fits, BEq.rfl⟩
      | some word =>
        obtain ⟨i, value, fits⟩ := exists_of_int64?_shortestText finite large fits
        have same := spelled i value (beyond_of_toInt? value large) (Option.isSome_of_eq_some fits)
        have whole := (exponent_nonneg_iff finite large).mpr ⟨i, value⟩
        refine ⟨int word, ofText?_text_whole finite large whole fits, ?_⟩
        rw [int_beq_float_iff value, toInt_of_int64? fits, same]

/-- The text of a finite number is that of a number, which equals it if it is spelled exactly. -/
theorem exists_ofText?_text {n : Number} (finite : n.isFinite = true) :
    ∃ m, ofText? n.text = some m ∧ ((m == n) = true ↔ n.SpelledExactly) := by
  by_cases spelled : n.SpelledExactly
  · obtain ⟨m, read, same⟩ := spelled.exists_read finite
    exact ⟨m, read, iff_of_true same spelled⟩
  · obtain ⟨d, i, word, rfl, value, large, fits, other⟩ := exists_of_not_spelledExactly spelled
    have whole := (exponent_nonneg_iff finite large).mpr ⟨i, value⟩
    refine ⟨int word, ofText?_text_whole finite large whole fits, iff_of_false ?_ spelled⟩
    rw [int_beq_float_iff value, toInt_of_int64? fits]
    exact other

/-- Two numbers that are both not spelled exactly are one if they have one text: the integer that is
spelled out is rounded to both. -/
theorem eq_of_text_eq {m n : Number} (finite : m.isFinite = true) (finite' : n.isFinite = true)
    (text : m.text = n.text) (h : ¬ m.SpelledExactly) (h' : ¬ n.SpelledExactly) : m = n := by
  obtain ⟨c, i, _, rfl, value, large, _, _⟩ := exists_of_not_spelledExactly h
  obtain ⟨d, j, _, rfl, value', large', _, _⟩ := exists_of_not_spelledExactly h'
  have whole := (exponent_nonneg_iff finite large).mpr ⟨i, value⟩
  have whole' := (exponent_nonneg_iff finite' large').mpr ⟨j, value'⟩
  have spelled : c.spelled .upward = d.spelled .upward := by
    rw [text_float finite large, text_float finite' large'] at text
    have left := Double.int?_shortestText_of_nonneg whole
    rw [text, Double.int?_shortestText_of_nonneg whole'] at left
    exact (Option.some.inj left).symm
  rw [← Double.ofInt_spelled .upward finite (magnitude_ne_zero finite large) whole, spelled,
    Double.ofInt_spelled .upward finite' (magnitude_ne_zero finite' large') whole']

/-- The text of every finite number is that of a number, which equals it exactly if it is spelled
exactly; and finite numbers of one text are equal exactly if both of them are spelled exactly or
neither is. -/
theorem exists_ofText?_text_iff {n : Number} (finite : n.isFinite = true) :
    (∃ m, ofText? n.text = some m ∧ ((m == n) = true ↔ n.SpelledExactly)) ∧
      ∀ other : Number, other.isFinite = true → n.text = other.text →
        ((n == other) = true ↔ (n.SpelledExactly ↔ other.SpelledExactly)) := by
  refine ⟨exists_ofText?_text finite, fun other finite' text => ?_⟩
  obtain ⟨m, read, same⟩ := exists_ofText?_text finite
  obtain ⟨m', read', same'⟩ := exists_ofText?_text finite'
  obtain rfl : m = m' := by
    rw [text, read'] at read
    exact (Option.some.inj read).symm
  rw [← same, ← same']
  by_cases left : (m == n) = true <;> by_cases right : (m == other) = true
  · exact iff_of_true (BEq.trans (BEq.symm left) right) (iff_of_true left right)
  · exact iff_of_false (fun equal => right (BEq.trans left equal)) fun both => right (both.mp left)
  · exact iff_of_false (fun equal => left (BEq.trans right (BEq.symm equal))) fun both =>
      left (both.mpr right)
  · obtain rfl := eq_of_text_eq finite finite' text (fun h => left (same.mpr h)) fun h =>
      right (same'.mpr h)
    exact iff_of_true BEq.rfl Iff.rfl

/-- The double nearest to one tenth is read back. The double `2 ^ 60` is not, since an integer of
the same text is another number. -/
theorem exists_ofText?_text_iff_of_tenth :
    (float ⟨0x3FB999999999999A⟩).isFinite = true ∧
      (∃ m, ofText? (float ⟨0x3FB999999999999A⟩).text = some m ∧
        (m == float ⟨0x3FB999999999999A⟩) = true) ∧
      (float ⟨0x43B0000000000000⟩).isFinite = true ∧ (int 1152921504606847000).isFinite = true ∧
      (float ⟨0x43B0000000000000⟩).text = (int 1152921504606847000).text ∧
      (float ⟨0x43B0000000000000⟩ == int 1152921504606847000) = false ∧
      ∃ m, ofText? (float ⟨0x43B0000000000000⟩).text = some m ∧
        (m == float ⟨0x43B0000000000000⟩) = false := by
  have tenth : (float ⟨0x3FB999999999999A⟩).isFinite = true := by decide +kernel
  have fraction : Double.toInt? ⟨0x3FB999999999999A⟩ = none := by decide +kernel
  have power : (float ⟨0x43B0000000000000⟩).isFinite = true := by decide +kernel
  have whole : Double.toInt? ⟨0x43B0000000000000⟩ = some (2 ^ 60) := by decide +kernel
  have text : (float ⟨0x43B0000000000000⟩).text = (int 1152921504606847000).text := by
    decide +kernel
  have other : ¬ (float ⟨0x43B0000000000000⟩).SpelledExactly := fun spelled =>
    absurd (spelled _ whole (by decide) (by decide +kernel)) (by decide +kernel)
  obtain ⟨m, read, same⟩ := (exists_ofText?_text_iff tenth).1
  obtain ⟨⟨m', read', same'⟩, others⟩ := exists_ofText?_text_iff power
  refine ⟨tenth, ⟨m, read, same.mpr fun i value => ?_⟩, power, rfl, text, ?_, m', read', ?_⟩
  · rw [fraction] at value
    exact nomatch value
  · exact Bool.eq_false_iff.mpr fun equal =>
      other (((others (int 1152921504606847000) rfl text).mp equal).mpr trivial)
  · exact Bool.eq_false_iff.mpr fun equal => other (same'.mp equal)

/-- The double `2 ^ 60` is written as an integer that is not `2 ^ 60`, and read as that integer. -/
theorem ofText?_text_ne :
    (float ⟨0x43B0000000000000⟩).isFinite = true ∧
      (float ⟨0x43B0000000000000⟩).text = "1152921504606847000".toList ∧
      (int 1152921504606847000).text = "1152921504606847000".toList ∧
      ofText? "1152921504606847000".toList = some (int 1152921504606847000) ∧
      (int 1152921504606847000 == float ⟨0x43B0000000000000⟩) = false := by
  decide +kernel

end ResidualPolicy.Number
