import ResidualPolicy.Double.Shortest
import ResidualPolicy.Proofs.Number.Digest
import ResidualPolicy.Proofs.Value.Places
import Mathlib.Tactic.Ring

/-!
# What rounds to a double

What lies in the interval of a magnitude is rounded to it (`Double.nearestMagnitude_of_holds`). A
magnitude is the sum of its two fields, the shift counting in steps of `2 ^ 52`, and rounding
computes such a sum: it takes the shift from the size of the ratio and the significand by rounding
what is left.

In the interval both come out as the fields of the magnitude, with one exception. Below a power of
two the ratio is smaller than the double, so the shift is one less, and the significand is rounded
up to a carry into the shift.
-/

namespace ResidualPolicy.Double

/-! ## The fields of a magnitude -/

/-- A magnitude is the sum of its fields. -/
theorem shift_add_significand (m : Nat) :
    (partsOf m).shift * Nat.pow 2 52 + (partsOf m).significand = m := by
  have split := Nat.div_add_mod' m (Nat.pow 2 52)
  unfold partsOf
  dsimp only
  generalize m / Nat.pow 2 52 = exponent at split ⊢
  generalize m % Nat.pow 2 52 = fraction at split ⊢
  split
  · next zero =>
    rw [zero] at split
    exact split
  · next nonzero =>
    obtain ⟨shift, rfl⟩ := Nat.exists_eq_succ_of_ne_zero nonzero
    rw [Nat.succ_mul] at split
    show shift * Nat.pow 2 52 + (Nat.pow 2 52 + fraction) = m
    rw [← Nat.add_assoc]
    exact split

theorem significand_lt (m : Nat) : (partsOf m).significand < 2 * Nat.pow 2 52 := by
  have fraction : m % Nat.pow 2 52 < Nat.pow 2 52 := Nat.mod_lt _ (pow_two_pos 52)
  unfold partsOf
  dsimp only
  generalize Nat.pow 2 52 = lead at fraction ⊢
  split <;> (dsimp only; omega)

/-- Where there is a shift the leading bit is there. -/
theorem le_significand {m : Nat} (shifted : 0 < (partsOf m).shift) :
    Nat.pow 2 52 ≤ (partsOf m).significand := by
  unfold partsOf at shifted ⊢
  dsimp only at shifted ⊢
  split at shifted
  · exact absurd shifted (Nat.lt_irrefl 0)
  · next nonzero =>
    rw [if_neg nonzero]
    exact Nat.le_add_right _ _

/-! ## Rounding to a whole number -/

/-- A ratio is at most a half away from a whole number, and exactly a half only from an even one. -/
structure Near (s n d : Nat) : Prop where
  low : 2 * (s * d) ≤ 2 * n + d
  high : 2 * n ≤ 2 * (s * d) + d
  odd : s % 2 = 1 → 2 * (s * d) < 2 * n + d ∧ 2 * n < 2 * (s * d) + d

theorem Near.roundHalfEven_eq {s n d : Nat} (near : Near s n d) (positive : 0 < d) :
    roundHalfEven n d = s := by
  obtain ⟨low, high, odd⟩ := near
  have split := Nat.div_add_mod' n d
  have below := Nat.mod_lt n positive
  unfold roundHalfEven
  dsimp only
  generalize n / d = quotient at split ⊢
  generalize n % d = rest at split below ⊢
  have near : s = quotient ∨ s = quotient + 1 := by
    have above : s < quotient + 2 := by
      by_contra far
      have := Nat.mul_le_mul_right d (Nat.le_of_not_lt far)
      rw [Nat.add_mul] at this
      omega
    have under : quotient < s + 1 := by
      by_contra far
      have := Nat.mul_le_mul_right d (Nat.le_of_not_lt far)
      rw [Nat.add_mul] at this
      omega
    omega
  rcases near with rfl | rfl
  · split
    · rfl
    split <;> omega
  · rw [Nat.add_mul, Nat.one_mul] at low high odd
    split
    · omega
    split <;> omega

/-- The position of the leading bit of a ratio. -/
theorem log2_div {n d k : Nat} (positive : 0 < d) (low : Nat.pow 2 k * d ≤ n)
    (high : n < 2 * Nat.pow 2 k * d) : (n / d).log2 = k := by
  have least : Nat.pow 2 k ≤ n / d := (Nat.le_div_iff_mul_le positive).mpr low
  have most : n / d < Nat.pow 2 (k + 1) := by
    rw [show Nat.pow 2 (k + 1) = 2 * Nat.pow 2 k from Nat.pow_succ']
    exact (Nat.div_lt_iff_lt_mul positive).mpr high
  have nonzero : n / d ≠ 0 := Nat.ne_of_gt (Nat.lt_of_lt_of_le (pow_two_pos k) least)
  exact (Nat.log2_eq_iff nonzero).mpr ⟨least, most⟩

/-! ## The interval of a magnitude -/

section Interval

variable {m d step : Nat} (steps : step = Nat.pow 2 (partsOf m).shift * d)
include steps

theorem high_mul : (intervalOf m).high * d = 4 * ((partsOf m).significand * step) + 2 * step := by
  show (4 * (partsOf m).significand * Nat.pow 2 (partsOf m).shift +
    2 * Nat.pow 2 (partsOf m).shift) * d = _
  rw [steps]
  ring

/-- The interval begins at most half a step below the double, and at most a quarter of a step below
a power of two. -/
theorem le_low_mul : 4 * ((partsOf m).significand * step) ≤ (intervalOf m).low * d + 2 * step ∧
    ((partsOf m).significand = Nat.pow 2 52 → 0 < (partsOf m).shift →
      4 * ((partsOf m).significand * step) ≤ (intervalOf m).low * d + step) := by
  have value : 4 * ((partsOf m).significand * step) =
      4 * (partsOf m).significand * Nat.pow 2 (partsOf m).shift * d := by
    rw [steps]
    ring
  have twice : 2 * step = 2 * Nat.pow 2 (partsOf m).shift * d := by rw [steps, Nat.mul_assoc]
  rw [value, twice, steps, ← Nat.add_mul, ← Nat.add_mul]
  refine ⟨Nat.mul_le_mul_right d ?_, fun lead shifted => Nat.mul_le_mul_right d ?_⟩
  · unfold intervalOf
    dsimp only
    generalize Nat.pow 2 (partsOf m).shift = quarter
    split <;> omega
  · unfold intervalOf
    dsimp only
    rw [if_pos ⟨lead, shifted⟩]
    exact le_tsub_add

end Interval

/-- The ends of the interval count only where the significand is even. -/
theorem bounds_of_holds {m n d : Nat} (inside : (intervalOf m).holds n d = true) :
    (intervalOf m).low * d ≤ n ∧ n ≤ (intervalOf m).high * d ∧
      ((partsOf m).significand % 2 = 1 →
        (intervalOf m).low * d < n ∧ n < (intervalOf m).high * d) := by
  unfold Interval.holds at inside
  have closed : (intervalOf m).closed = ((partsOf m).significand % 2 == 0) := rfl
  by_cases even : (partsOf m).significand % 2 = 0
  · rw [closed, even, beq_self_eq_true, if_pos rfl, Bool.and_eq_true, decide_eq_true_eq,
      decide_eq_true_eq] at inside
    exact ⟨inside.1, inside.2, fun odd => by omega⟩
  · rw [closed, beq_eq_false_iff_ne.mpr even, if_neg Bool.false_ne_true, Bool.and_eq_true,
      decide_eq_true_eq, decide_eq_true_eq] at inside
    exact ⟨Nat.le_of_lt inside.1, Nat.le_of_lt inside.2, fun _ => inside⟩

/-- A ratio is rounded at the position of its leading bit. -/
theorem nearestMagnitude_eq {numerator denominator size shift significand : Nat}
    (units : numerator * unitsPerOne = size) (position : (size / denominator).log2 - 52 = shift)
    (rounded : roundHalfEven size (denominator * Nat.pow 2 shift) = significand)
    (finite : shift * Nat.pow 2 52 + significand < infinityWord) :
    nearestMagnitude numerator denominator = shift * Nat.pow 2 52 + significand := by
  unfold nearestMagnitude
  dsimp only
  rw [units, position, rounded]
  exact Nat.min_eq_left (Nat.le_of_lt finite)

/-- The shift is found from the size of a ratio that does not fall below the leading bit. -/
theorem log2_div_sub {n d shift : Nat} (positive : 0 < d)
    (low : 0 < shift → Nat.pow 2 52 * (Nat.pow 2 shift * d) ≤ n)
    (high : n < 2 * (Nat.pow 2 52 * (Nat.pow 2 shift * d))) : (n / d).log2 - 52 = shift := by
  have lead : Nat.pow 2 52 * (Nat.pow 2 shift * d) = Nat.pow 2 (52 + shift) * d := by
    rw [pow_two_add, Nat.mul_assoc]
  rw [lead] at low high
  by_cases shifted : 0 < shift
  · rw [log2_div positive (low shifted) (by rwa [Nat.mul_assoc]), Nat.add_sub_cancel_left]
  · obtain rfl : shift = 0 := Nat.eq_zero_of_not_pos shifted
    have small : n / d < Nat.pow 2 (52 + 1) := by
      rw [pow_two_succ, Nat.div_lt_iff_lt_mul positive, Nat.mul_assoc]
      exact high
    by_cases zero : n / d = 0
    · rw [zero]
      rfl
    · have := (Nat.log2_lt zero).mpr small
      omega

/-- What lies in the interval of a magnitude is at most half a step away from the double. -/
theorem near_of_holds {m n d step : Nat} (steps : step = Nat.pow 2 (partsOf m).shift * d)
    (inside : (intervalOf m).holds (4 * n) d = true) : Near (partsOf m).significand n step := by
  obtain ⟨low, high, odd⟩ := bounds_of_holds inside
  have half := (le_low_mul steps).1
  rw [high_mul steps] at high odd
  refine ⟨by omega, by omega, fun one => ?_⟩
  have := odd one
  omega

/-- Below a power of two a ratio is rounded with steps of half the size and carries into the shift.
-/
theorem nearestMagnitude_of_below {m numerator denominator n step : Nat} (finite : m < infinityWord)
    (positive : 0 < denominator) (units : numerator * unitsPerOne = n)
    (steps : step = Nat.pow 2 (partsOf m).shift * denominator)
    (inside : (intervalOf m).holds (4 * n) denominator = true)
    (shifted : 0 < (partsOf m).shift) (below : n < Nat.pow 2 52 * step) :
    nearestMagnitude numerator denominator = m := by
  have span : 0 < step := steps ▸ Nat.mul_pos (pow_two_pos _) positive
  have lead : (partsOf m).significand = Nat.pow 2 52 := by
    refine Nat.le_antisymm (Nat.le_of_lt_succ ?_) (le_significand shifted)
    refine Nat.lt_of_mul_lt_mul_right (a := step) ?_
    have near := (near_of_holds steps inside).low
    rw [Nat.succ_mul]
    omega
  have start := (bounds_of_holds inside).1
  have quarter := (le_low_mul steps).2 lead shifted
  have fields := shift_add_significand m
  rw [lead] at quarter fields
  generalize (partsOf m).shift = shift at *
  obtain ⟨finer, rfl⟩ := Nat.exists_eq_succ_of_ne_zero (Nat.ne_of_gt shifted)
  obtain ⟨fine, fines⟩ : ∃ fine, fine = Nat.pow 2 finer * denominator := ⟨_, rfl⟩
  have twice : step = 2 * fine := by rw [steps, fines, pow_two_succ, Nat.mul_assoc]
  have room : fine ≤ Nat.pow 2 52 * fine := Nat.le_mul_of_pos_left fine (pow_two_pos 52)
  rw [twice, Nat.mul_left_comm (Nat.pow 2 52)] at below quarter
  have position : (n / denominator).log2 - 52 = finer :=
    log2_div_sub positive (fun _ => by rw [← fines]; omega) (by rwa [← fines])
  have near : Near (2 * Nat.pow 2 52) n fine := by
    refine ⟨?_, ?_, fun odd => absurd odd (by decide)⟩ <;> rw [Nat.mul_assoc] <;> omega
  have rounded := near.roundHalfEven_eq (by omega)
  rw [fines, Nat.mul_comm (Nat.pow 2 finer)] at rounded
  have whole : finer * Nat.pow 2 52 + 2 * Nat.pow 2 52 = m := by
    rw [← fields, Nat.two_mul, Nat.succ_mul, Nat.add_assoc]
  rw [← whole] at finite ⊢
  exact nearestMagnitude_eq units position rounded finite

/-- What lies in the interval of a magnitude is rounded to it. -/
theorem nearestMagnitude_of_holds {m numerator denominator : Nat} (finite : m < infinityWord)
    (positive : 0 < denominator)
    (inside : (intervalOf m).holds (4 * (numerator * unitsPerOne)) denominator = true) :
    nearestMagnitude numerator denominator = m := by
  generalize units : numerator * unitsPerOne = n at inside
  obtain ⟨step, steps⟩ : ∃ step, step = Nat.pow 2 (partsOf m).shift * denominator := ⟨_, rfl⟩
  by_cases carries : 0 < (partsOf m).shift ∧ n < Nat.pow 2 52 * step
  · exact nearestMagnitude_of_below finite positive units steps inside carries.1 carries.2
  · have near := near_of_holds steps inside
    have span : 0 < step := steps ▸ Nat.mul_pos (pow_two_pos _) positive
    have most : ((partsOf m).significand + 1) * step ≤ 2 * Nat.pow 2 52 * step :=
      Nat.mul_le_mul_right step (significand_lt m)
    rw [Nat.add_mul, Nat.one_mul, Nat.mul_assoc] at most
    have high := near.high
    have rounded := near.roundHalfEven_eq span
    rw [steps] at carries most high span rounded
    have position : (n / denominator).log2 - 52 = (partsOf m).shift :=
      log2_div_sub positive (fun shifted => Nat.not_lt.mp fun below => carries ⟨shifted, below⟩)
        (by omega)
    rw [Nat.mul_comm (Nat.pow 2 _)] at rounded
    rw [← shift_add_significand m] at finite
    rw [nearestMagnitude_eq units position rounded finite, shift_add_significand]

end ResidualPolicy.Double
