import ResidualPolicy.Proofs.Double.Nearest

/-!
# What the shortest decimal of a double stands for

The search for the shortest decimal returns nothing outside the interval of the double
(`Double.shortest_within`), so what it returns is rounded to the double. Whether the decimal is a
whole number is decided by the double alone (`Double.shortest_whole_iff`): the search passes the
grid of the whole numbers before all finer ones and takes a whole double there, and the interval of
a double that is not whole holds no whole number.
-/

namespace ResidualPolicy.Double

/-- The decimal lies in the interval. -/
def Decimal.Within (decimal : Decimal) (range : Interval) : Prop :=
  range.holds (decimal.digits * (Nat.pow 10 decimal.exponent.toNat * (4 * unitsPerOne)))
    (Nat.pow 10 (-decimal.exponent).toNat) = true

theorem pow_ten_pos (n : Nat) : 0 < Nat.pow 10 n :=
  Nat.pow_pos (by decide)

theorem value_eq_scaled (m : Nat) : (intervalOf m).value = 4 * scaled m :=
  Nat.mul_assoc _ _ _

/-! ## One grid -/

theorem holds_of_neighbour {range : Interval} {step denominator lower multiple : Nat}
    (below : range.holds (lower * step) denominator = true)
    (above : range.holds ((lower + 1) * step) denominator = true)
    (near : multiple = lower ∨ multiple = lower + 1) :
    range.holds (multiple * step) denominator = true := by
  rcases near with rfl | rfl
  · exact below
  · exact above

-- Step and denominator stand for numbers of a thousand bits, so they are named by equations: terms
-- in which they are only generalized are checked with the numbers put back.
theorem holds_of_onGrid {range : Interval} {tie : Tie} {exponent : Int} {decimal : Decimal}
    {step denominator lower : Nat}
    (steps : Nat.pow 10 exponent.toNat * (4 * unitsPerOne) = step)
    (scale : Nat.pow 10 (-exponent).toNat = denominator)
    (multiple : range.value * denominator / step = lower)
    (hit : range.onGrid tie exponent = some decimal) :
    decimal.exponent = exponent ∧
      range.holds (decimal.digits * step) denominator = true := by
  unfold Interval.onGrid at hit
  dsimp only at hit
  rw [steps, scale, multiple] at hit
  split at hit
  · exact nomatch hit
  · next below _ =>
    rw [← Option.some.inj hit]
    exact ⟨rfl, below⟩
  · next _ above =>
    rw [← Option.some.inj hit]
    exact ⟨rfl, above⟩
  · next below above =>
    rw [← Option.some.inj hit]
    refine ⟨rfl, holds_of_neighbour below above ?_⟩
    dsimp only
    split
    · exact .inl rfl
    · exact .inr rfl
    · exact .inr rfl
    · rcases Nat.mod_two_eq_zero_or_one lower with even | odd
      · exact .inl (Nat.add_eq_left.mpr even)
      · exact .inr (Nat.add_left_cancel_iff.mpr odd)

/-- A hit on a grid lies in the interval. -/
theorem within_of_onGrid {range : Interval} {tie : Tie} {exponent : Int} {decimal : Decimal}
    (hit : range.onGrid tie exponent = some decimal) :
    decimal.exponent = exponent ∧ decimal.Within range := by
  obtain ⟨there, inside⟩ := holds_of_onGrid rfl rfl rfl hit
  refine ⟨there, ?_⟩
  rw [Decimal.Within, there]
  exact inside

/-- The interval of a double that is not zero holds the double. -/
theorem holds_value {m d : Nat} (nonzero : m ≠ 0) (positive : 0 < d) :
    (intervalOf m).holds ((intervalOf m).value * d) d = true := by
  have quarter : 0 < Nat.pow 2 (partsOf m).shift := pow_two_pos _
  have size : 0 < (intervalOf m).value := by
    rw [value_eq_scaled]
    have := scaled_lt_scaled (Nat.pos_of_ne_zero nonzero)
    omega
  have low : (intervalOf m).low < (intervalOf m).value := by
    refine Nat.sub_lt size ?_
    split <;> omega
  have high : (intervalOf m).value < (intervalOf m).high :=
    Nat.lt_add_of_pos_right (Nat.mul_pos (by decide) quarter)
  have low := Nat.mul_lt_mul_of_pos_right low positive
  have high := Nat.mul_lt_mul_of_pos_right high positive
  unfold Interval.holds
  split <;> simp [low, high, Nat.le_of_lt]

/-- A grid on which the double lies has a hit. -/
theorem onGrid_ne_none {m : Nat} (nonzero : m ≠ 0) {tie : Tie} {exponent : Int}
    (multiple : Nat.pow 10 exponent.toNat * (4 * unitsPerOne) ∣
      (intervalOf m).value * Nat.pow 10 (-exponent).toNat) :
    (intervalOf m).onGrid tie exponent ≠ none := by
  have lower := holds_value nonzero (pow_ten_pos (-exponent).toNat)
  rw [← Nat.div_mul_cancel multiple] at lower
  unfold Interval.onGrid
  dsimp only
  rw [lower]
  split <;> simp_all

/-! ## The search -/

/-- The exponents of the grids, from coarse to fine. -/
def grids (m : Nat) : List Int :=
  (List.range (coarsestGrid m + 1075)).map fun step : Nat => (coarsestGrid m : Int) - step

theorem mem_grids {m : Nat} {exponent : Int} (low : -1074 ≤ exponent) (high : exponent ≤ 0) :
    exponent ∈ grids m := by
  refine List.mem_map.mpr ⟨(coarsestGrid m - exponent).toNat, List.mem_range.mpr ?_, ?_⟩ <;> omega

theorem grids_descend (m : Nat) : (grids m).Pairwise (· > ·) :=
  List.pairwise_map.mpr (List.pairwise_lt_range.imp fun less => by omega)

/-- All doubles lie on the finest grid. -/
theorem finest_dvd (m : Nat) : Nat.pow 10 (-1074 : Int).toNat * (4 * unitsPerOne) ∣
    (intervalOf m).value * Nat.pow 10 (-(-1074 : Int)).toNat := by
  obtain ⟨bits, name⟩ : ∃ bits, bits = 1074 := ⟨_, rfl⟩
  have coarse : (-1074 : Int).toNat = 0 := rfl
  have fine : (-(-1074 : Int)).toNat = bits := name.symm
  have split : Nat.pow 10 bits = Nat.pow 2 bits * Nat.pow 5 bits := Nat.mul_pow 2 5 bits
  rw [value_eq_scaled, coarse, fine, split]
  unfold unitsPerOne
  rw [← name]
  refine ⟨scaled m * Nat.pow 5 bits, ?_⟩
  rw [show Nat.pow 10 0 = 1 from rfl]
  ring

/-- The search ends with the first hit. -/
theorem exists_hit (tie : Tie) {m : Nat} (nonzero : m ≠ 0) :
    ∃ before exponent after, grids m = before ++ exponent :: after ∧
      (intervalOf m).onGrid tie exponent = some (shortest tie m) ∧
      ∀ coarser ∈ before, (intervalOf m).onGrid tie coarser = none := by
  cases found : (grids m).findSome? ((intervalOf m).onGrid tie) with
  | none =>
    have none := List.findSome?_eq_none_iff.mp found (-1074) (mem_grids (by decide) (by decide))
    exact absurd none (onGrid_ne_none nonzero (finest_dvd m))
  | some decimal =>
    have result : shortest tie m = decimal := by
      unfold grids at found
      unfold shortest
      dsimp only
      rw [found, Option.getD_some]
    rw [result]
    exact List.findSome?_eq_some_iff.mp found

/-- What the search returns lies in the interval. -/
theorem shortest_within (tie : Tie) {m : Nat} (nonzero : m ≠ 0) :
    (shortest tie m).Within (intervalOf m) := by
  obtain ⟨_, _, _, _, hit, _⟩ := exists_hit tie nonzero
  exact (within_of_onGrid hit).2

/-! ## Whole numbers -/

/-- The interval of a double that is not whole holds no whole number: where a step of the double is
less than one, all whole numbers are multiples of the step, and the interval holds one multiple. -/
theorem dvd_of_holds {m whole : Nat}
    (inside : (intervalOf m).holds (whole * (4 * unitsPerOne)) 1 = true) :
    unitsPerOne ∣ scaled m := by
  unfold scaled
  by_cases coarse : 1074 ≤ (partsOf m).shift
  · have divides : unitsPerOne ∣ Nat.pow 2 (partsOf m).shift := by
      unfold unitsPerOne
      generalize 1074 = bits at coarse ⊢
      exact Nat.pow_dvd_pow 2 coarse
    exact Nat.dvd_mul_left_of_dvd divides _
  · obtain ⟨finer, split⟩ : Nat.pow 2 (partsOf m).shift ∣ unitsPerOne := by
      unfold unitsPerOne
      generalize 1074 = bits at coarse ⊢
      exact Nat.pow_dvd_pow 2 (Nat.le_of_not_le coarse)
    obtain ⟨low, high, _⟩ := bounds_of_holds inside
    have half := (le_low_mul (Nat.mul_one (Nat.pow 2 (partsOf m).shift)).symm).1
    rw [high_mul (Nat.mul_one _).symm] at high
    have multiple : whole * (4 * unitsPerOne) =
        4 * (whole * finer * Nat.pow 2 (partsOf m).shift) := by
      rw [split]
      ring
    rw [multiple] at low high
    have positive := pow_two_pos (partsOf m).shift
    have same : whole * finer = (partsOf m).significand := by
      generalize Nat.pow 2 (partsOf m).shift = step at *
      generalize (partsOf m).significand = significand at *
      rcases Nat.lt_trichotomy (whole * finer) significand with less | same | more
      · have := Nat.mul_le_mul_right step less
        rw [Nat.succ_mul] at this
        omega
      · exact same
      · have := Nat.mul_le_mul_right step more
        rw [Nat.succ_mul] at this
        omega
    refine ⟨whole, ?_⟩
    rw [← same, split]
    ring

/-- The shortest decimal is whole exactly where the double is. -/
theorem shortest_whole_iff (tie : Tie) {m : Nat} (nonzero : m ≠ 0) :
    0 ≤ (shortest tie m).exponent ↔ unitsPerOne ∣ scaled m := by
  constructor
  · intro whole
    have inside := shortest_within tie nonzero
    have integral : (-(shortest tie m).exponent).toNat = 0 := Int.toNat_of_nonpos (by omega)
    rw [Decimal.Within, integral, ← Nat.mul_assoc] at inside
    exact dvd_of_holds inside
  · intro divides
    obtain ⟨before, exponent, after, split, hit, none⟩ := exists_hit tie nonzero
    rw [(within_of_onGrid hit).1]
    by_contra negative
    -- The grid of the whole numbers comes before one of a negative exponent.
    have passed : (0 : Int) ∈ before ++ exponent :: after :=
      split ▸ mem_grids (by decide) (Int.le_refl 0)
    have descend := List.pairwise_append.mp (split ▸ grids_descend m)
    have earlier : (0 : Int) ∈ before := by
      rcases List.mem_append.mp passed with earlier | later
      · exact earlier
      · rcases List.mem_cons.mp later with rfl | later
        · exact absurd (Int.le_refl 0) negative
        · have := (List.pairwise_cons.mp descend.2.1).1 0 later
          omega
    refine absurd (none 0 earlier) (onGrid_ne_none nonzero ?_)
    have one : Nat.pow 10 (0 : Int).toNat = 1 := rfl
    have one' : Nat.pow 10 (-(0 : Int)).toNat = 1 := rfl
    rw [value_eq_scaled, one, one', Nat.one_mul, Nat.mul_one]
    exact Nat.mul_dvd_mul_left 4 divides

end ResidualPolicy.Double
