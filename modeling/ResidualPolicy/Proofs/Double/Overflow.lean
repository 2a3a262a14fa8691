import ResidualPolicy.Proofs.Double.Shortest
import Mathlib.Algebra.Order.Field.Power
import Mathlib.Data.Rat.Cast.Order
import Mathlib.Tactic.Linarith
import Mathlib.Tactic.Positivity

/-!
# What is rounded to infinity

A ratio is rounded to a finite double exactly if it lies below `Double.overflowBound`, halfway between
the largest finite double and the next power of two (`Double.isFinite_ofRatio_iff`). Halfway is
already too far, since the power of two has the even significand. The same holds for decimals
(`Double.isFinite_ofDecimal_iff`): where no power of ten is computed, the decimal is far away from
the bound.

Rounding takes the shift from the size of a ratio, so whether the fields that come out are those of
infinity is not seen from the significand alone. It is from both of them: they make up less than the
magnitude of a power of two exactly if the ratio is more than half a step below it
(`Double.fields_lt_iff`).
-/

namespace ResidualPolicy.Double

/-! ## Rounding below a power of two -/

/-- A ratio is rounded to less than an even number exactly if it is more than a half below. -/
theorem roundHalfEven_lt_iff {n d s : Nat} (positive : 0 < d) (even : s % 2 = 0) :
    roundHalfEven n d < s ↔ 2 * n + d < 2 * (s * d) := by
  have split := Nat.div_add_mod' n d
  have below := Nat.mod_lt n positive
  unfold roundHalfEven
  dsimp only
  generalize n / d = quotient at split ⊢
  generalize n % d = rest at split below ⊢
  rcases Nat.lt_trichotomy (quotient + 1) s with less | same | more
  · have room : (quotient + 2) * d ≤ s * d := Nat.mul_le_mul_right d less
    rw [Nat.add_mul] at room
    refine iff_of_true ?_ (by omega)
    split
    · omega
    split <;> omega
  · subst same
    rw [Nat.add_mul, Nat.one_mul]
    split
    · omega
    split <;> omega
  · have room : s * d ≤ quotient * d := Nat.mul_le_mul_right d (by omega)
    refine iff_of_false ?_ (by omega)
    split
    · omega
    split <;> omega

section Shift

variable {n d : Nat} (positive : 0 < d)
include positive

theorem lt_lead_mul : n < 2 * (Nat.pow 2 52 * (Nat.pow 2 ((n / d).log2 - 52) * d)) := by
  have size : n / d < Nat.pow 2 (53 + ((n / d).log2 - 52)) :=
    Nat.lt_of_lt_of_le Nat.lt_log2_self (Nat.pow_le_pow_right (by decide) (by omega))
  rw [Nat.div_lt_iff_lt_mul positive, pow_two_add, Nat.mul_assoc, pow_two_succ, Nat.mul_assoc] at size
  exact size

theorem lead_mul_le (shifted : 0 < (n / d).log2 - 52) :
    Nat.pow 2 52 * (Nat.pow 2 ((n / d).log2 - 52) * d) ≤ n := by
  have nonzero : n / d ≠ 0 := by
    intro zero
    rw [zero] at shifted
    exact absurd shifted (Nat.lt_irrefl 0)
  have size : Nat.pow 2 (52 + ((n / d).log2 - 52)) ≤ n / d :=
    Nat.le_trans (Nat.pow_le_pow_right (by decide) (by omega)) (Nat.log2_self_le nonzero)
  rw [Nat.le_div_iff_mul_le positive, pow_two_add, Nat.mul_assoc] at size
  exact size

/-- The fields that a ratio is rounded to make up less than those of the power of two above shift `k`
exactly if the ratio is more than half a step of that shift below the power. -/
theorem fields_lt_iff (k : Nat) :
    ((n / d).log2 - 52) * Nat.pow 2 52 + roundHalfEven n (d * Nat.pow 2 ((n / d).log2 - 52)) <
        (k + 2) * Nat.pow 2 52 ↔
      2 * n + Nat.pow 2 k * d < 2 * (2 * Nat.pow 2 52 * (Nat.pow 2 k * d)) := by
  have high := lt_lead_mul (n := n) positive
  have low := lead_mul_le (n := n) positive
  have span (shift : Nat) : 0 < Nat.pow 2 shift * d := Nat.mul_pos (pow_two_pos shift) positive
  have finer {i j : Nat} (order : i < j) : 2 * (Nat.pow 2 i * d) ≤ Nat.pow 2 j * d := by
    rw [← Nat.mul_assoc, ← pow_two_succ]
    exact Nat.mul_le_mul_right d (Nat.pow_le_pow_right (by decide) order)
  -- The size of the ratio gives the shift no more than these two bounds.
  generalize (n / d).log2 - 52 = shift at high low ⊢
  rw [Nat.mul_comm d]
  have rounds {s : Nat} (even : s % 2 = 0) := roundHalfEven_lt_iff (n := n) (span shift) even
  have occupied : 1 < Nat.pow 2 52 := by decide
  generalize Nat.pow 2 52 = lead at *
  rcases Nat.lt_trichotomy shift k with less | rfl | more
  -- Below shift `k`, the significand may be rounded up to twice the lead, and that is still below.
  · have step := Nat.mul_le_mul_left lead (finer less)
    have fields : (shift + 1) * lead ≤ k * lead := Nat.mul_le_mul_right lead less
    have unit : Nat.pow 2 k * d ≤ lead * (Nat.pow 2 k * d) :=
      Nat.le_mul_of_pos_left _ (Nat.lt_of_succ_lt occupied)
    have rounded : roundHalfEven n (Nat.pow 2 shift * d) < 2 * lead + 2 := by
      rw [rounds (by omega), Nat.add_mul, Nat.mul_assoc]
      have := span shift
      omega
    rw [Nat.add_mul, Nat.one_mul] at fields
    rw [Nat.mul_left_comm] at step
    rw [Nat.add_mul, Nat.mul_assoc 2]
    exact iff_of_true (by omega) (by omega)
  · rw [Nat.add_mul, Nat.add_lt_add_iff_left]
    exact rounds (by omega)
  -- Above it, the significand has the lead, and with the larger shift that is already too much.
  · have least := low (by omega)
    have step := Nat.mul_le_mul_left lead (finer more)
    have fields : (k + 1) * lead ≤ shift * lead := Nat.mul_le_mul_right lead more
    have rounded : lead ≤ roundHalfEven n (Nat.pow 2 shift * d) :=
      Nat.le_trans ((Nat.le_div_iff_mul_le (span shift)).mpr least) (div_le_roundHalfEven _ _)
    rw [Nat.add_mul, Nat.one_mul] at fields
    rw [Nat.mul_left_comm] at step
    rw [Nat.add_mul, Nat.mul_assoc 2]
    exact iff_of_false (by omega) (by omega)

end Shift

/-! ## The bound -/

/-- Halfway between the largest finite double, `2 ^ 1024 - 2 ^ 971`, and the next power of two. -/
def overflowBound : ℚ := 2 ^ 1024 - 2 ^ 970

/-- The exponent by name, so that the powers are not computed. -/
theorem exists_overflowBound_eq :
    ∃ half, half = 970 ∧ overflowBound = 2 ^ (54 + half) - 2 ^ half :=
  ⟨970, rfl, rfl⟩

theorem two_pow_lt_overflowBound {n : Nat} (small : n ≤ 970) : 2 ^ n < overflowBound := by
  obtain ⟨half, halfway, bound⟩ := exists_overflowBound_eq
  have positive : (0 : ℚ) < 2 ^ half := by positivity
  have order : (2 : ℚ) ^ n ≤ 2 ^ half := pow_le_pow_right₀ one_le_two (halfway ▸ small)
  rw [bound, pow_add]
  linarith

theorem overflowBound_le {n : Nat} (large : 400 < n) : overflowBound ≤ 10 ^ n := by
  obtain ⟨half, halfway, bound⟩ := exists_overflowBound_eq
  have positive : (0 : ℚ) ≤ 2 ^ half := by positivity
  calc overflowBound ≤ 2 ^ (54 + half) := by rw [bound]; linarith
    _ ≤ 2 ^ (3 * n) := pow_le_pow_right₀ one_le_two (by omega)
    _ = 8 ^ n := by rw [pow_mul]; norm_num
    _ ≤ 10 ^ n := pow_le_pow_left₀ (by norm_num) (by norm_num) n

/-- More than half a step below a power of two, in units and as a ratio. -/
theorem units_lt_iff {n d : Nat} (positive : 0 < d) (half bits : Nat) :
    2 * (n * Nat.pow 2 bits) + Nat.pow 2 (half + 1 + bits) * d <
        2 * (2 * Nat.pow 2 52 * (Nat.pow 2 (half + 1 + bits) * d)) ↔
      (n : ℚ) / d < 2 ^ (54 + half) - 2 ^ half := by
  have left : 2 * (n * Nat.pow 2 bits) + Nat.pow 2 (half + 1 + bits) * d =
      (n + Nat.pow 2 half * d) * (2 * Nat.pow 2 bits) := by
    rw [pow_two_add (half + 1), pow_two_succ half]
    ring
  have right : 2 * (2 * Nat.pow 2 52 * (Nat.pow 2 (half + 1 + bits) * d)) =
      Nat.pow 2 (54 + half) * d * (2 * Nat.pow 2 bits) := by
    rw [pow_two_add (half + 1), pow_two_succ half, pow_two_add 54,
      show Nat.pow 2 54 = 4 * Nat.pow 2 52 from rfl]
    ring
  rw [left, right, Nat.mul_lt_mul_right (Nat.mul_pos Nat.two_pos (pow_two_pos bits)),
    div_lt_iff₀ (Nat.cast_pos.mpr positive), sub_mul, lt_sub_iff_add_lt]
  show n + 2 ^ half * d < 2 ^ (54 + half) * d ↔ _
  exact_mod_cast Iff.rfl

theorem nearestMagnitude_lt_iff {n d : Nat} (positive : 0 < d) :
    nearestMagnitude n d < infinityWord ↔ (n : ℚ) / d < overflowBound := by
  obtain ⟨half, halfway, bound⟩ := exists_overflowBound_eq
  obtain ⟨bits, name⟩ : ∃ bits, bits = 1074 := ⟨_, rfl⟩
  have unit : unitsPerOne = Nat.pow 2 bits := by
    unfold unitsPerOne
    rw [← name]
  have infinite : infinityWord = (half + 1 + bits + 2) * Nat.pow 2 52 := by
    rw [halfway, name]
    rfl
  unfold nearestMagnitude
  dsimp only
  rw [min_lt_iff, or_iff_left (Nat.lt_irrefl _), infinite, fields_lt_iff positive, unit, bound]
  exact units_lt_iff positive half bits

/-! ## Ratios and decimals -/

theorem isFinite_ofMagnitude_iff (negative : Bool) {m : Nat} (small : m ≤ infinityWord) :
    (ofMagnitude negative m).isFinite = true ↔ m < infinityWord := by
  have range : infinityWord < Nat.pow 2 63 := by decide
  unfold isFinite
  rw [magnitude_ofMagnitude negative (Nat.lt_of_le_of_lt small range), decide_eq_true_eq]

/-- A ratio is rounded to a finite double exactly if it lies below the bound. -/
theorem isFinite_ofRatio_iff (negative : Bool) {n d : Nat} (positive : 0 < d) :
    (ofRatio negative n d).isFinite = true ↔ (n : ℚ) / d < overflowBound := by
  rw [← nearestMagnitude_lt_iff positive]
  exact isFinite_ofMagnitude_iff negative (Nat.min_le_right _ _)

/-- The ratio that a decimal is. -/
theorem cast_div_pow_ten (digits : Nat) (exponent : Int) :
    ((digits * Nat.pow 10 exponent.toNat : Nat) : ℚ) / (Nat.pow 10 (-exponent).toNat : Nat) =
      digits * 10 ^ exponent := by
  obtain ⟨n, rfl | rfl⟩ := exponent.eq_nat_or_neg
  · simp
  · simp [div_eq_mul_inv]

/-- A decimal that is rounded to zero unseen is small. -/
theorem mul_pow_ten_lt_one {digits : Nat} {exponent : Int} (small : exponent + digits.log2 < -400) :
    (digits : ℚ) * 10 ^ exponent < 1 := by
  have power : (0 : ℚ) < 10 ^ exponent := by positivity
  have below : (digits : ℚ) < 10 ^ (digits.log2 + 1) :=
    calc (digits : ℚ) < 2 ^ (digits.log2 + 1) := by exact_mod_cast Nat.lt_log2_self
      _ ≤ 10 ^ (digits.log2 + 1) := pow_le_pow_left₀ (by norm_num) (by norm_num) _
  calc (digits : ℚ) * 10 ^ exponent < 10 ^ (digits.log2 + 1) * 10 ^ exponent :=
        mul_lt_mul_of_pos_right below power
    _ = 10 ^ ((digits.log2 + 1 : Nat) + exponent) := by
        rw [zpow_add₀ (by norm_num), zpow_natCast]
    _ ≤ 1 := zpow_le_one_of_nonpos₀ (by norm_num) (by push_cast; omega)

/-- A decimal is rounded to a finite double exactly if it lies below the bound. -/
theorem isFinite_ofDecimal_iff (negative : Bool) (digits : Nat) (exponent : Int) :
    (ofDecimal negative digits exponent).isFinite = true ↔
      (digits : ℚ) * 10 ^ exponent < overflowBound := by
  have zero : (ofMagnitude negative 0).isFinite = true :=
    (isFinite_ofMagnitude_iff negative (Nat.zero_le _)).mpr (by decide)
  have one : 1 < overflowBound := two_pow_lt_overflowBound (Nat.zero_le _)
  unfold ofDecimal
  split
  · next none =>
    refine iff_of_true zero ?_
    rw [none, Nat.cast_zero, zero_mul]
    exact lt_trans zero_lt_one one
  next some =>
  split
  · next large =>
    have infinite : (infinity negative).isFinite = true ↔ infinityWord < infinityWord :=
      isFinite_ofMagnitude_iff negative (Nat.le_refl _)
    obtain ⟨n, rfl⟩ := Int.eq_ofNat_of_zero_le (Int.le_of_lt (Int.lt_trans (by decide) large))
    have least : (1 : ℚ) ≤ digits := Nat.one_le_cast.mpr (Nat.one_le_iff_ne_zero.mpr some)
    refine iff_of_false (fun finite => absurd (infinite.mp finite) (Nat.lt_irrefl _)) ?_
    rw [not_lt, zpow_natCast]
    calc overflowBound ≤ 10 ^ n := overflowBound_le (by omega)
      _ ≤ digits * 10 ^ n := le_mul_of_one_le_left (by positivity) least
  split
  · next small =>
    exact iff_of_true zero (lt_trans (mul_pow_ten_lt_one small) one)
  · rw [isFinite_ofRatio_iff negative (pow_ten_pos _), cast_div_pow_ten]

end ResidualPolicy.Double
