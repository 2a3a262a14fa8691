import ResidualPolicy.Double.Shortest

/-!
# Text of doubles

Doubles are written with the digits of their shortest decimal; a `Layout` says how these digits are
set out. They are read from decimal text of any length and rounded once.
-/

namespace ResidualPolicy.Double

/-! ## Writing -/

/-- How the shortest decimal of a double is set out. -/
structure Layout where
  /-- Which of two equally near decimals is written. -/
  tie : Tie
  /-- Whether a decimal whose first digit counts `10 ^ e` is written without an exponent. -/
  positional : Int → Bool
  /-- What follows a whole number that is written without an exponent. -/
  wholeMark : List Char
  /-- The text of NaN. -/
  nan : List Char
  /-- The text of an infinity, negative or not. -/
  infinite : Bool → List Char

/-- Decimal digits of an integer, after a minus sign if it is negative. -/
def intText (i : Int) : List Char :=
  if i < 0 then '-' :: Nat.toDigits 10 i.natAbs else Nat.toDigits 10 i.natAbs

/-- The decimal `0.digits * 10 ^ point`, without an exponent. -/
def positionalText (wholeMark digits : List Char) (point : Int) : List Char :=
  if point ≤ 0 then '0' :: '.' :: (List.replicate (-point).toNat '0' ++ digits)
  else if point.toNat < digits.length then
    digits.take point.toNat ++ '.' :: digits.drop point.toNat
  else digits ++ List.replicate (point.toNat - digits.length) '0' ++ wholeMark

/-- The decimal `0.digits * 10 ^ point`, with one digit before the point and a signed exponent. -/
def scientificText (digits : List Char) (point : Int) : List Char :=
  let fraction := digits.drop 1
  let exponent := point - 1
  digits.take 1 ++ (if fraction.isEmpty then [] else '.' :: fraction) ++
    ('e' :: (if exponent < 0 then [] else ['+'])) ++ intText exponent

/-- Text of a positive decimal. -/
def Decimal.text (layout : Layout) (decimal : Decimal) : List Char :=
  let digits := Nat.toDigits 10 decimal.digits
  let point := digits.length + decimal.exponent
  if layout.positional (point - 1) then positionalText layout.wholeMark digits point
  else scientificText digits point

/-- Text of a double. -/
def text (layout : Layout) (d : Double) : List Char :=
  if d.isNaN then layout.nan
  else if !d.isFinite then layout.infinite d.negative
  else
    let unsigned :=
      if d.magnitude = 0 then '0' :: layout.wholeMark
      else (shortest layout.tie d.magnitude).text layout
    if d.negative then '-' :: unsigned else unsigned

/-! ## Reading -/

/-- Splits off a leading sign and says whether it is a minus sign. -/
def splitSign : List Char → Bool × List Char
  | '-' :: rest => (true, rest)
  | '+' :: rest => (false, rest)
  | cs => (false, cs)

/-- The digits of a text that holds nothing else and at least one. -/
def digits? (cs : List Char) : Option Nat :=
  if cs.isEmpty || !cs.all Char.isDigit then none else some (Nat.ofDigitChars 10 cs 0)

/-- An integer in decimal digits, with or without a sign. -/
def int? (cs : List Char) : Option Int :=
  let (negative, rest) := splitSign cs
  (digits? rest).map fun n => if negative then -(n : Int) else n

/-- The exponent that a text gives: zero if it is empty. -/
def exponent? : List Char → Option Int
  | [] => some 0
  | mark :: rest => if mark == 'e' || mark == 'E' then int? rest else none

/-- A finite decimal: digits with an optional point among or around them, then an optional exponent,
all after an optional sign. -/
def decimal? (cs : List Char) : Option Double :=
  let (negative, unsigned) := splitSign cs
  let whole := unsigned.takeWhile Char.isDigit
  let (fraction, rest) :=
    match unsigned.dropWhile Char.isDigit with
    | '.' :: afterPoint => (afterPoint.takeWhile Char.isDigit, afterPoint.dropWhile Char.isDigit)
    | afterWhole => ([], afterWhole)
  if whole.isEmpty && fraction.isEmpty then none
  else
    (exponent? rest).map fun exponent =>
      ofDecimal negative (Nat.ofDigitChars 10 (whole ++ fraction) 0) (exponent - fraction.length)

/-- NaN or an infinity by name, in any mixture of cases and after an optional sign. -/
def named? (cs : List Char) : Option Double :=
  let (negative, unsigned) := splitSign cs
  let name := unsigned.map Char.toLower
  if name == "nan".toList then some nan
  else if name == "inf".toList || name == "infinity".toList then some (infinity negative)
  else none

/-- The double that a text names or is nearest to. -/
def ofText? (cs : List Char) : Option Double :=
  decimal? cs <|> named? cs

end ResidualPolicy.Double
