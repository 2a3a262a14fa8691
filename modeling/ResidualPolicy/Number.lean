import ResidualPolicy.Double.Text

/-!
# Numbers

A number is a 64-bit integer or a double. Which of the two it is shows only in how large numbers are
written: order and equality are those of the exact values, so `1` and `1.0` are one number, and an
integer is never rounded to be compared with a double.
-/

namespace ResidualPolicy

/-- A number of a document or of a policy. -/
inductive Number where
  /-- An exact integer. -/
  | int (value : Int64)
  /-- Any double, also one that is an integer. -/
  | float (value : Double)
  deriving DecidableEq, Repr, Inhabited

namespace Number

/-! ## Exact order -/

/-- Where a number lies: the infinities at the two ends, NaN behind everything. -/
inductive Place where
  | lowEnd
  /-- A whole count of the smallest positive double. -/
  | point (units : Int)
  | highEnd
  | beyond
  deriving DecidableEq, Repr

/-- Which of the four stretches of the line a place belongs to. -/
def Place.stretch : Place → Nat
  | .lowEnd => 0
  | .point _ => 1
  | .highEnd => 2
  | .beyond => 3

/-- Units of a point; the other places are single places. -/
def Place.units : Place → Int
  | .point units => units
  | _ => 0

/-- Order of two places. -/
def Place.compare (a b : Place) : Ordering :=
  (Ord.compare a.stretch b.stretch).then (Ord.compare a.units b.units)

/-- Place of a double. -/
def placeOf (d : Double) : Place :=
  if d.isNaN then .beyond
  else if d.isFinite then .point d.units
  else if d.negative then .lowEnd
  else .highEnd

/-- Place of a number. -/
def place : Number → Place
  | .int i => .point (i.toInt * Double.unitsPerOne)
  | .float d => placeOf d

/-- Order of two numbers, by their exact values. Two integers need no common unit. -/
def compare : Number → Number → Ordering
  | .int a, .int b => Ord.compare a.toInt b.toInt
  | a, b => a.place.compare b.place

/-- The order of two numbers is that of their places, in the case of two integers too. -/
theorem compare_eq_place (a b : Number) : a.compare b = a.place.compare b.place := by
  cases a with
  | float d => rfl
  | int i =>
    cases b with
    | float d => rfl
    | int j =>
      have positive : (0 : Int) < Double.unitsPerOne :=
        Int.natCast_pos.mpr Double.unitsPerOne_pos
      simp only [compare, place, Place.compare, Place.stretch, Place.units]
      generalize (Double.unitsPerOne : Int) = unit at positive
      have less : i.toInt * unit < j.toInt * unit ↔ i.toInt < j.toInt :=
        Int.mul_lt_mul_right positive
      have same : i.toInt * unit = j.toInt * unit ↔ i.toInt = j.toInt :=
        Int.mul_eq_mul_right_iff (Int.ne_of_gt positive)
      show compareOfLessAndEq _ _ = compareOfLessAndEq _ _
      simp only [compareOfLessAndEq, less, same]

instance : Ord Number := ⟨compare⟩

/-- Numbers are equal when they have the same exact value. -/
instance : BEq Number := ⟨fun a b => compare a b == .eq⟩

/-! ## Integers -/

/-- The 64-bit integer of that value, if there is one. -/
def int64? (i : Int) : Option Int64 :=
  if Int64.minValue.toInt ≤ i ∧ i ≤ Int64.maxValue.toInt then some (Int64.ofInt i) else none

/-- The integer that a double is, as far as doubles hold consecutive integers: up to `2 ^ 53`. -/
def smallInt? (d : Double) : Option Int64 :=
  (d.toInt?.filter fun i => i.natAbs ≤ Nat.pow 2 53).bind int64?

/-- The integer that the number is. A double counts as an integer only up to `2 ^ 53`. -/
def toInt64? : Number → Option Int64
  | .int i => some i
  | .float d => smallInt? d

/-- The natural number that the number is. -/
def toNat? (n : Number) : Option Nat :=
  n.toInt64?.bind fun i => if i.toInt < 0 then none else some i.toInt.toNat

/-- Whether the number is an integer. -/
def isInteger (n : Number) : Bool :=
  n.toInt64?.isSome

/-- The double nearest to the number. -/
def toDouble : Number → Double
  | .int i => Double.ofInt i.toInt
  | .float d => d

/-- A double as a number: an integer where it is a small one. -/
def ofDouble (d : Double) : Number :=
  match smallInt? d with
  | some i => .int i
  | none => .float d

/-- An integer as a number, rounded to a double if it has more than 64 bits. -/
def ofInt (i : Int) : Number :=
  match int64? i with
  | some word => .int word
  | none => .float (Double.ofInt i)

/-- A size or an index as a number. -/
def ofNat (n : Nat) : Number :=
  ofInt n

/-! ## Text -/

/-- Numbers in policy notation have no exponent and no mark on whole doubles. -/
def notationLayout : Double.Layout where
  tie := .upward
  positional _ := true
  wholeMark := []
  nan := "NaN".toList
  infinite negative := if negative then "-inf".toList else "inf".toList

/-- Text of a number under a layout for doubles: an integer wherever it is one. -/
def textIn (layout : Double.Layout) (n : Number) : List Char :=
  match n.toInt64? with
  | some i => Double.intText i.toInt
  | none => n.toDouble.text layout

/-- Text of a number in policy notation. -/
def text (n : Number) : List Char :=
  n.textIn notationLayout

/-- Reads an exact integer where the text is one of 64 bits, else a finite double. -/
def ofText? (cs : List Char) : Option Number :=
  match (Double.int? cs).bind int64? with
  | some i => some (.int i)
  | none => (Double.decimal? cs).bind fun d => if d.isFinite then some (ofDouble d) else none

/-- Why a text is no number. -/
structure Unreadable where
  text : List Char
  deriving DecidableEq, Repr

/-- Wording of the error. -/
def Unreadable.message (e : Unreadable) : String :=
  "invalid number `" ++ String.ofList e.text ++ "`"

end Number

end ResidualPolicy
