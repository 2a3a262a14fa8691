/-!
# Character classes as ranges

A class of characters beyond ASCII is a list of ranges of code points. The tables beside this module
hold one property of the Unicode character database each, for code points from U+0080 on; the ASCII
part of a class is stated in words where the class is defined.
-/

namespace ResidualPolicy.Text

/-- Ranges of code points, both ends included. -/
abbrev Ranges := List (Nat × Nat)

/-- Whether a character lies in one of the ranges. -/
def Ranges.holds (ranges : Ranges) (c : Char) : Bool :=
  ranges.any fun range => range.1 ≤ c.toNat && c.toNat ≤ range.2

/-- Where ranges begin, and where they are left. -/
def Ranges.edges (ranges : Ranges) : List Nat :=
  ranges.flatMap fun range => [range.1, range.2 + 1]

/-- Whether a character is one of the 128 ASCII characters. -/
def isAscii (c : Char) : Bool :=
  c.toNat < 0x80

end ResidualPolicy.Text
