import ResidualPolicy.Proofs.Value.Navigation

/-!
# Comparing numbers by their whole parts

The exact order writes an integer and a double as counts of the smallest positive double, numbers of
more than a thousand bits. None of them has to be written down: a double that no integer of 64 bits
reaches is told apart by its size, any other one by its whole part, which is an integer of 64 bits
itself, and where that is the integer, by the sign of what is cut off (`compareMixed`). Two doubles are
compared as doubles are, with NaN behind all others (`compareDoubles`).

`compareByParts_eq` says that this is the exact order, on all pairs of numbers. Nothing is rounded on
the way, which is why the integers above `2 ^ 53` that no double holds have a place between the doubles.
-/

namespace ResidualPolicy

namespace Double

/-- The integer next to a finite double on the side of zero. -/
def whole (d : Double) : Int :=
  d.units.tdiv unitsPerOne

/-- What is left of a finite double without its whole part, in units. -/
def rest (d : Double) : Int :=
  d.units.tmod unitsPerOne

end Double

namespace Number

/-! ## The comparisons -/

/-- Order of two doubles that are both numbers. -/
def partialCompare? (c d : Double) : Option Ordering :=
  if c.isNaN || d.isNaN then none else some ((placeOf c).compare (placeOf d))

/-- Order of two doubles. NaN comes last. -/
def compareDoubles (c d : Double) : Ordering :=
  (partialCompare? c d).getD (Ord.compare c.isNaN d.isNaN)

/-- Place of the first integer that has more than 64 bits. -/
def bound : Place :=
  .point (Nat.pow 2 63 * Double.unitsPerOne)

/-- Place of the last negative integer of 64 bits. -/
def lowBound : Place :=
  .point (-(Nat.pow 2 63 * Double.unitsPerOne))

/-- Order of an integer and a double: by size where the double is out of the range of the integers, else
by whole parts and then by the sign of the rest. -/
def compareMixed (i : Int64) (d : Double) : Ordering :=
  if d.isNaN then .lt
  else if (bound.compare (placeOf d)).isLE then .lt
  else if (placeOf d).compare lowBound == .lt then .gt
  else (Ord.compare i.toInt (Int64.ofInt d.whole).toInt).then (Ord.compare 0 d.rest)

/-- Order of two numbers, by the kinds in which they are held. -/
def compareByParts : Number → Number → Ordering
  | .int a, .int b => Ord.compare a.toInt b.toInt
  | .int a, .float d => compareMixed a d
  | .float c, .int b => (compareMixed b c).swap
  | .float c, .float d => compareDoubles c d

/-! ## Agreement with the exact order -/

theorem Place.compare_point (a b : Int) :
    Place.compare (.point a) (.point b) = Ord.compare a b := by
  show (Ord.compare 1 1).then (Ord.compare a b) = Ord.compare a b
  rw [Nat.compare_eq_eq.mpr rfl]
  rfl

/-- A multiple of a unit is compared with a number by the whole part of that number first. -/
theorem compare_mul_unit (i n : Int) {unit : Int} (positive : 0 < unit) :
    Ord.compare (i * unit) n =
      (Ord.compare i (n.tdiv unit)).then (Ord.compare 0 (n.tmod unit)) := by
  have split : unit * n.tdiv unit + n.tmod unit = n := Int.mul_tdiv_add_tmod n unit
  have above : n.tmod unit < unit := Int.tmod_lt_of_pos n positive
  have below : -unit < n.tmod unit := Int.lt_tmod_of_pos n positive
  generalize n.tdiv unit = whole at split ⊢
  generalize n.tmod unit = rest at split above below ⊢
  rw [Int.mul_comm] at split
  rcases Int.lt_trichotomy i whole with less | same | more
  · -- One unit more than `i` still fits into the whole part, and the rest is less than a unit.
    have step : (i + 1) * unit ≤ whole * unit :=
      Int.mul_le_mul_of_nonneg_right less (Int.le_of_lt positive)
    rw [Int.add_mul, Int.one_mul] at step
    rw [Int.compare_eq_lt.mpr less, Int.compare_eq_lt.mpr (by omega)]
    rfl
  · subst same
    rw [Int.compare_eq_eq.mpr rfl]
    show Ord.compare (i * unit) n = Ord.compare 0 rest
    rcases Int.lt_trichotomy 0 rest with sign | sign | sign
    · rw [Int.compare_eq_lt.mpr sign, Int.compare_eq_lt.mpr (by omega)]
    · rw [Int.compare_eq_eq.mpr sign, Int.compare_eq_eq.mpr (by omega)]
    · rw [Int.compare_eq_gt.mpr sign, Int.compare_eq_gt.mpr (by omega)]
  · have step : (whole + 1) * unit ≤ i * unit :=
      Int.mul_le_mul_of_nonneg_right more (Int.le_of_lt positive)
    rw [Int.add_mul, Int.one_mul] at step
    rw [Int.compare_eq_gt.mpr more, Int.compare_eq_gt.mpr (by omega)]
    rfl

/-- The whole part of a number in the range of the integers is an integer of 64 bits. -/
theorem toInt_ofInt_tdiv {n unit : Int} (positive : 0 < unit) (low : -(Nat.pow 2 63 * unit) ≤ n)
    (high : n < Nat.pow 2 63 * unit) : (Int64.ofInt (n.tdiv unit)).toInt = n.tdiv unit := by
  have split : unit * n.tdiv unit + n.tmod unit = n := Int.mul_tdiv_add_tmod n unit
  have above : n.tmod unit < unit := Int.tmod_lt_of_pos n positive
  have below : -unit < n.tmod unit := Int.lt_tmod_of_pos n positive
  have sign : 0 ≤ n → 0 ≤ n.tmod unit := Int.tmod_nonneg unit
  generalize n.tdiv unit = whole at split ⊢
  generalize n.tmod unit = rest at split above below sign
  rw [Int.mul_comm] at split
  apply Int64.toInt_ofInt_of_le
  · by_contra less
    have step : (whole + 1) * unit ≤ -(Nat.pow 2 63 : Int) * unit :=
      Int.mul_le_mul_of_nonneg_right (Int.lt_of_not_ge less) (Int.le_of_lt positive)
    rw [Int.add_mul, Int.one_mul, Int.neg_mul] at step
    omega
  · by_contra more
    have step : (Nat.pow 2 63 : Int) * unit ≤ whole * unit :=
      Int.mul_le_mul_of_nonneg_right (Int.not_lt.mp more) (Int.le_of_lt positive)
    have room : 1 * unit ≤ (Nat.pow 2 63 : Int) * unit :=
      Int.mul_le_mul_of_nonneg_right (by decide) (Int.le_of_lt positive)
    omega

/-- An integer within limits is compared with a number by the side on which the number is out of them, else
by whole parts and then by the sign of the rest. -/
theorem compare_within {k n unit limit : Int} (positive : 0 < unit) (lower : -limit ≤ k * unit)
    (upper : k * unit < limit)
    (fits : -limit ≤ n → n < limit → (Int64.ofInt (n.tdiv unit)).toInt = n.tdiv unit) :
    (if (Ord.compare limit n).isLE then .lt
      else if Ord.compare n (-limit) == .lt then .gt
      else (Ord.compare k (Int64.ofInt (n.tdiv unit)).toInt).then (Ord.compare 0 (n.tmod unit))) =
      Ord.compare (k * unit) n := by
  by_cases above : limit ≤ n
  · rw [if_pos (Int.isLE_compare.mpr above)]
    exact (Int.compare_eq_lt.mpr (by omega)).symm
  rw [if_neg (fun le => above (Int.isLE_compare.mp le))]
  by_cases below : n < -limit
  · rw [if_pos (beq_iff_eq.mpr (Int.compare_eq_lt.mpr below))]
    exact (Int.compare_eq_gt.mpr (by omega)).symm
  rw [if_neg (fun lt => below (Int.compare_eq_lt.mp (beq_iff_eq.mp lt))),
    fits (Int.not_lt.mp below) (Int.not_le.mp above)]
  exact (compare_mul_unit k n positive).symm

/-- The order of an integer and a finite double by parts is that of their places. -/
theorem compareMixed_of_isFinite (i : Int64) {d : Double} (number : ¬ d.isNaN = true)
    (finite : d.isFinite = true) : compareMixed i d = (int i).place.compare (placeOf d) := by
  have unit : (0 : Int) < Double.unitsPerOne := Int.natCast_pos.mpr Double.unitsPerOne_pos
  have least : -(Nat.pow 2 63 : Int) ≤ i.toInt := Int64.le_toInt i
  have most : i.toInt < (Nat.pow 2 63 : Int) := Int64.toInt_lt i
  have lower : -(Nat.pow 2 63 : Int) * Double.unitsPerOne ≤ i.toInt * Double.unitsPerOne :=
    Int.mul_le_mul_of_nonneg_right least (Int.le_of_lt unit)
  have upper : i.toInt * Double.unitsPerOne < (Nat.pow 2 63 : Int) * Double.unitsPerOne :=
    Int.mul_lt_mul_of_pos_right most unit
  rw [Int.neg_mul] at lower
  unfold compareMixed Double.whole Double.rest
  rw [if_neg number, placeOf_finite finite, bound, lowBound, place, Place.compare_point,
    Place.compare_point, Place.compare_point]
  exact compare_within unit lower upper (toInt_ofInt_tdiv unit)

theorem placeOf_of_isNaN {d : Double} (h : d.isNaN = true) : placeOf d = .beyond :=
  if_pos h

/-- The order of an integer and a double by parts is that of their places. -/
theorem compareMixed_eq (i : Int64) (d : Double) :
    compareMixed i d = (int i).place.compare (placeOf d) := by
  by_cases nan : d.isNaN = true
  · unfold compareMixed
    rw [if_pos nan, placeOf_of_isNaN nan]
    rfl
  by_cases finite : d.isFinite = true
  · exact compareMixed_of_isFinite i nan finite
  -- An infinity is out of range on its side.
  unfold compareMixed placeOf
  rw [if_neg nan, if_neg nan, if_neg finite]
  by_cases negative : d.negative = true
  · rw [if_pos negative]
    rfl
  · rw [if_neg negative]
    rfl

/-- All doubles that are numbers lie before NaN. -/
theorem placeOf_compare_beyond {d : Double} (h : ¬ d.isNaN = true) :
    (placeOf d).compare .beyond = .lt := by
  unfold placeOf
  rw [if_neg h]
  by_cases finite : d.isFinite = true
  · rw [if_pos finite]
    rfl
  · rw [if_neg finite]
    split <;> rfl

/-- The order of two doubles is that of their places. -/
theorem compareDoubles_eq (c d : Double) :
    compareDoubles c d = (placeOf c).compare (placeOf d) := by
  unfold compareDoubles partialCompare?
  by_cases left : c.isNaN = true <;> by_cases right : d.isNaN = true
  · rw [placeOf_of_isNaN left, placeOf_of_isNaN right, left, right]
    rfl
  · have swapped : Place.beyond.compare (placeOf d) = ((placeOf d).compare .beyond).swap :=
      Std.OrientedCmp.eq_swap
    rw [placeOf_of_isNaN left, swapped, placeOf_compare_beyond right, left,
      Bool.eq_false_iff.mpr right]
    rfl
  · rw [placeOf_of_isNaN right, placeOf_compare_beyond left, right, Bool.eq_false_iff.mpr left]
    rfl
  · rw [Bool.eq_false_iff.mpr left, Bool.eq_false_iff.mpr right]
    rfl

/-- Comparing by parts gives the exact order. -/
theorem compareByParts_eq (m n : Number) : m.compareByParts n = m.compare n := by
  rw [compare_eq_place]
  rcases m with i | c <;> rcases n with j | d
  · rw [← compare_eq_place]
    rfl
  · exact compareMixed_eq i d
  · show (compareMixed j c).swap = _
    rw [compareMixed_eq]
    exact Std.OrientedCmp.eq_swap.symm
  · exact compareDoubles_eq c d

end Number

end ResidualPolicy
