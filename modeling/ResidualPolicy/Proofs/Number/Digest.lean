import ResidualPolicy.Proofs.Value.Navigation
import ResidualPolicy.Value.Digest

/-!
# Equal numbers have equal digests

A number has many forms only where the digest takes care of it: every integer of 64 bits is hashed as
that integer, and every NaN as one word. All other doubles are hashed by their bits, so two of them that
are equal must be the same word. They are (`Double.eq_or_of_placeOf_eq`): the units of a double grow
strictly with its magnitude (`Double.scaled_lt_scaled`), and only zero has two signs.
-/

namespace ResidualPolicy

namespace Double

/-! ## The units of a magnitude -/

/-- Units of the positive double with a magnitude. -/
def scaled (magnitude : Nat) : Nat :=
  (partsOf magnitude).significand * Nat.pow 2 (partsOf magnitude).shift

theorem absUnits_eq_scaled (d : Double) : d.absUnits = scaled d.magnitude := rfl

theorem scaled_of_exponent_zero {m : Nat} (h : m / Nat.pow 2 52 = 0) :
    scaled m = m % Nat.pow 2 52 := by
  unfold scaled partsOf
  simp only [h, if_true]
  exact Nat.mul_one _

theorem scaled_of_exponent_pos {m : Nat} (h : m / Nat.pow 2 52 ≠ 0) :
    scaled m = (Nat.pow 2 52 + m % Nat.pow 2 52) * Nat.pow 2 (m / Nat.pow 2 52 - 1) := by
  unfold scaled partsOf
  simp only [h, if_false]

theorem pow_two_succ (n : Nat) : Nat.pow 2 (n + 1) = 2 * Nat.pow 2 n :=
  Nat.pow_succ'

/-- With its exponent a double stays below one more leading bit, -/
theorem scaled_lt (m : Nat) : scaled m < Nat.pow 2 52 * Nat.pow 2 (m / Nat.pow 2 52) := by
  have fraction : m % Nat.pow 2 52 < Nat.pow 2 52 := Nat.mod_lt _ (pow_two_pos 52)
  by_cases low : m / Nat.pow 2 52 = 0
  · rw [scaled_of_exponent_zero low, low]
    exact Nat.lt_of_lt_of_eq fraction (Nat.mul_one _).symm
  · obtain ⟨e, exponent⟩ := Nat.exists_eq_succ_of_ne_zero low
    rw [scaled_of_exponent_pos low, exponent, Nat.succ_sub_one, pow_two_succ e,
      ← Nat.mul_assoc (Nat.pow 2 52) 2]
    apply Nat.mul_lt_mul_of_pos_right _ (pow_two_pos e)
    generalize Nat.pow 2 52 = lead at fraction ⊢
    omega

/-- and it has at least the leading bit that its exponent stands for. -/
theorem le_scaled {m : Nat} (h : m / Nat.pow 2 52 ≠ 0) :
    Nat.pow 2 52 * Nat.pow 2 (m / Nat.pow 2 52 - 1) ≤ scaled m := by
  rw [scaled_of_exponent_pos h]
  exact Nat.mul_le_mul_right _ (Nat.le_add_right _ _)

/-- The larger one of two magnitudes has more units. -/
theorem scaled_lt_scaled {m n : Nat} (h : m < n) : scaled m < scaled n := by
  have order : m / Nat.pow 2 52 ≤ n / Nat.pow 2 52 := Nat.div_le_div_right (Nat.le_of_lt h)
  by_cases same : m / Nat.pow 2 52 = n / Nat.pow 2 52
  · have fractions : m % Nat.pow 2 52 < n % Nat.pow 2 52 := by
      have hm := Nat.div_add_mod m (Nat.pow 2 52)
      have hn := Nat.div_add_mod n (Nat.pow 2 52)
      rw [same] at hm
      omega
    by_cases low : n / Nat.pow 2 52 = 0
    · rw [scaled_of_exponent_zero (same.trans low), scaled_of_exponent_zero low]
      exact fractions
    · rw [scaled_of_exponent_pos (same ▸ low), scaled_of_exponent_pos low, same]
      exact Nat.mul_lt_mul_of_pos_right (Nat.add_lt_add_left fractions _) (pow_two_pos _)
  · have higher : n / Nat.pow 2 52 ≠ 0 := by
      intro none
      rw [none] at order same
      exact same (Nat.le_zero.mp order)
    have exponents : Nat.pow 2 (m / Nat.pow 2 52) ≤ Nat.pow 2 (n / Nat.pow 2 52 - 1) :=
      Nat.pow_le_pow_right (by decide) (by omega)
    calc scaled m < Nat.pow 2 52 * Nat.pow 2 (m / Nat.pow 2 52) := scaled_lt m
      _ ≤ Nat.pow 2 52 * Nat.pow 2 (n / Nat.pow 2 52 - 1) := Nat.mul_le_mul_left _ exponents
      _ ≤ scaled n := le_scaled higher

theorem magnitude_eq_of_absUnits {c d : Double} (h : c.absUnits = d.absUnits) :
    c.magnitude = d.magnitude := by
  rw [absUnits_eq_scaled, absUnits_eq_scaled] at h
  rcases Nat.lt_trichotomy c.magnitude d.magnitude with less | same | more
  · exact absurd h (Nat.ne_of_lt (scaled_lt_scaled less))
  · exact same
  · exact absurd h (Nat.ne_of_gt (scaled_lt_scaled more))

/-! ## Doubles at one place -/

/-- A double is its sign and its magnitude. -/
theorem eq_of_fields {c d : Double} (sign : c.negative = d.negative)
    (magnitude : c.magnitude = d.magnitude) : c = d := by
  have same : c.bits.toNat = d.bits.toNat := by
    have hc := c.bits.toNat_lt
    have hd := d.bits.toNat_lt
    have word : Nat.pow 2 63 = 9223372036854775808 := by decide
    unfold negative at sign
    unfold Double.magnitude at magnitude
    rw [decide_eq_decide] at sign
    rw [word] at sign magnitude
    omega
  rcases c with ⟨c⟩
  rcases d with ⟨d⟩
  exact congrArg mk (UInt64.toNat_inj.mp same)

/-- Away from zero the units of a double determine it. -/
theorem eq_of_units {c d : Double} (h : c.units = d.units) (nonzero : c.units ≠ 0) : c = d := by
  have sizes : c.absUnits = d.absUnits := by rw [← units_natAbs, h, units_natAbs]
  apply eq_of_fields _ (magnitude_eq_of_absUnits sizes)
  unfold units at h nonzero
  by_cases left : c.negative = true <;> by_cases right : d.negative = true
  · rw [left, right]
  · rw [if_pos left, if_neg right, sizes] at h
    rw [if_pos left, sizes] at nonzero
    omega
  · rw [if_neg left, if_pos right, sizes] at h
    rw [if_neg left, sizes] at nonzero
    omega
  · rw [Bool.eq_false_iff.mpr left, Bool.eq_false_iff.mpr right]

theorem magnitude_of_infinite {d : Double} (finite : ¬ d.isFinite = true)
    (number : ¬ d.isNaN = true) : d.magnitude = infinityWord := by
  unfold isFinite at finite
  unfold isNaN at number
  rw [decide_eq_true_eq] at finite number
  omega

theorem toInt?_of_zero {d : Double} (finite : d.isFinite = true) (zero : d.units = 0) :
    d.toInt? = some 0 :=
  toInt?_of_units finite (by rw [zero, Int.zero_mul])

/-- Doubles at one place are one double, unless they are NaN or zero. -/
theorem eq_or_of_placeOf_eq {c d : Double} (h : Number.placeOf c = Number.placeOf d) :
    c = d ∨ (c.isNaN = true ∧ d.isNaN = true) ∨
      (c.isFinite = true ∧ d.isFinite = true ∧ c.units = 0 ∧ d.units = 0) := by
  by_cases finite : c.isFinite = true
  · rw [Number.placeOf_finite finite] at h
    obtain ⟨finite', units⟩ := Number.finite_of_placeOf h.symm
    by_cases zero : c.units = 0
    · exact .inr (.inr ⟨finite, finite', zero, units.trans zero⟩)
    · exact .inl (eq_of_units units.symm zero)
  by_cases finite' : d.isFinite = true
  · rw [Number.placeOf_finite finite'] at h
    exact absurd (Number.finite_of_placeOf h).1 finite
  unfold Number.placeOf at h
  rw [if_neg finite, if_neg finite'] at h
  by_cases nan : c.isNaN = true <;> by_cases nan' : d.isNaN = true
  · exact .inr (.inl ⟨nan, nan'⟩)
  · rw [if_pos nan, if_neg nan'] at h
    split at h <;> exact nomatch h
  · rw [if_neg nan, if_pos nan'] at h
    split at h <;> exact nomatch h
  · -- Two infinities at one place have one sign.
    rw [if_neg nan, if_neg nan'] at h
    left
    apply eq_of_fields
    · by_cases left : c.negative = true <;> by_cases right : d.negative = true <;> simp_all
    · rw [magnitude_of_infinite finite nan, magnitude_of_infinite finite' nan']

end Double

namespace Number

/-! ## Digests -/

theorem int64?_toInt (i : Int64) : int64? i.toInt = some i := by
  have low : Int64.minValue.toInt ≤ i.toInt := Int64.le_toInt i
  have high : i.toInt ≤ Int64.maxValue.toInt := Int.le_of_lt_add_one (Int64.toInt_lt i)
  rw [int64?, if_pos ⟨low, high⟩, Int64.ofInt_toInt]

/-- A double that is an integer of 64 bits has its digest. -/
theorem digest_of_toInt? {d : Double} {i : Int64} (h : d.toInt? = some i.toInt) :
    (float d).digest = i.toUInt64 := by
  rw [digest, h, Option.bind_some, int64?_toInt]

theorem digest_of_isNaN {d : Double} (nan : d.isNaN = true) :
    (float d).digest = Double.nan.bits := by
  have infinite : d.isFinite = false := by
    unfold Double.isNaN at nan
    unfold Double.isFinite
    rw [decide_eq_true_eq] at nan
    rw [decide_eq_false_iff_not]
    omega
  have none : d.toInt? = none := by
    unfold Double.toInt?
    rw [infinite]
    rfl
  rw [digest, none, Option.bind_none]
  exact if_pos nan

/-- An integer and a double of the same value have the same digest. -/
theorem digest_int_eq_digest_float {i : Int64} {d : Double} (h : (int i).place = placeOf d) :
    (int i).digest = (float d).digest := by
  obtain ⟨finite, units⟩ := finite_of_placeOf h.symm
  rw [digest_of_toInt? (Double.toInt?_of_units finite units)]
  rfl

/-- Doubles of the same value have the same digest. -/
theorem digest_float_eq_digest_float {c d : Double} (h : placeOf c = placeOf d) :
    (float c).digest = (float d).digest := by
  rcases Double.eq_or_of_placeOf_eq h with rfl | ⟨nan, nan'⟩ | ⟨finite, finite', zero, zero'⟩
  · rfl
  · rw [digest_of_isNaN nan, digest_of_isNaN nan']
  · have left : (float c).digest = (0 : Int64).toUInt64 :=
      digest_of_toInt? (Double.toInt?_of_zero finite zero)
    have right : (float d).digest = (0 : Int64).toUInt64 :=
      digest_of_toInt? (Double.toInt?_of_zero finite' zero')
    rw [left, right]

/-- Equal numbers have equal digests. -/
theorem digest_eq_of_beq {m n : Number} (h : (m == n) = true) : m.digest = n.digest := by
  have place := place_eq_of_beq h
  rcases m with i | c <;> rcases n with j | d
  · have unit : (Double.unitsPerOne : Int) ≠ 0 :=
      Int.natCast_ne_zero.mpr (Nat.ne_of_gt Double.unitsPerOne_pos)
    have same := Int.eq_of_mul_eq_mul_right unit (Place.point.inj place)
    rw [Int64.toInt_inj.mp same]
  · exact digest_int_eq_digest_float place
  · exact (digest_int_eq_digest_float place.symm).symm
  · exact digest_float_eq_digest_float place

end Number

end ResidualPolicy
