import ResidualPolicy.Double

/-!
# Shortest decimals

The decimal of fewest digits that reads back as a given finite double. A decimal reads back when it
lies in the interval of reals that round to the double, ends included exactly when the significand is
even. A multiple of `10 ^ p` that lies there has fewer digits the larger `p` is, so the search goes
through the grids of multiples from coarse to fine and stops at the first hit. The grid of `10 ^ -1074`
holds the double itself, so the search ends with a hit.
-/

namespace ResidualPolicy.Double

/-- The positive decimal `digits * 10 ^ exponent`. -/
structure Decimal where
  digits : Nat
  exponent : Int
  deriving DecidableEq, Repr

/-- What to take when a double lies exactly between two shortest decimals. -/
inductive Tie where
  /-- The larger of the two. -/
  | upward
  /-- The one whose last digit is even. -/
  | toEven
  deriving DecidableEq, Repr

/-- The reals that round to a finite positive double, in quarters of a unit. -/
structure Interval where
  low : Nat
  value : Nat
  high : Nat
  closed : Bool
  deriving DecidableEq, Repr

/-- The interval of a magnitude. It reaches half a step to both sides, except below a power of two,
where the doubles lie twice as dense. -/
def intervalOf (magnitude : Nat) : Interval :=
  let parts := partsOf magnitude
  let quarter := Nat.pow 2 parts.shift
  let value := 4 * parts.significand * quarter
  let below := if parts.significand = Nat.pow 2 52 ∧ 0 < parts.shift then quarter else 2 * quarter
  { low := value - below, value, high := value + 2 * quarter, closed := parts.significand % 2 == 0 }

/-- Whether `numerator / denominator` quarters of a unit lie in the interval. -/
def Interval.holds (range : Interval) (numerator denominator : Nat) : Bool :=
  if range.closed then
    range.low * denominator ≤ numerator && numerator ≤ range.high * denominator
  else
    range.low * denominator < numerator && numerator < range.high * denominator

/-- The multiple of `10 ^ exponent` that lies in the interval, the nearer one if two neighbours of
the value do. -/
def Interval.onGrid (range : Interval) (tie : Tie) (exponent : Int) : Option Decimal :=
  let step := Nat.pow 10 exponent.toNat * (4 * unitsPerOne)
  let denominator := Nat.pow 10 (-exponent).toNat
  let target := range.value * denominator
  let lower := target / step
  let upper := lower + 1
  match range.holds (lower * step) denominator, range.holds (upper * step) denominator with
  | false, false => none
  | true, false => some ⟨lower, exponent⟩
  | false, true => some ⟨upper, exponent⟩
  | true, true =>
    let nearest :=
      match compare (2 * target) ((lower + upper) * step), tie with
      | .lt, _ => lower
      | .gt, _ => upper
      | .eq, .upward => upper
      | .eq, .toEven => lower + lower % 2
    some ⟨nearest, exponent⟩

/-- An exponent whose grid is too coarse for the magnitude to have a multiple below it. -/
def coarsestGrid (magnitude : Nat) : Nat :=
  let parts := partsOf magnitude
  ((parts.significand * Nat.pow 2 parts.shift / unitsPerOne).log2 + 4) / 3

/-- The shortest decimal of a finite double that is not zero, without its sign. -/
def shortest (tie : Tie) (magnitude : Nat) : Decimal :=
  let range := intervalOf magnitude
  let coarsest := coarsestGrid magnitude
  let grids := (List.range (coarsest + 1075)).map fun step : Nat => (coarsest : Int) - step
  (grids.findSome? (range.onGrid tie)).getD
    ⟨range.value / 4 * Nat.pow 5 1074, -1074⟩

end ResidualPolicy.Double
