import ResidualPolicy.Text.Ranges

/-!
# Blank characters

The property White_Space.
-/

namespace ResidualPolicy.Text

/-- White space from U+0080 on. -/
def blankRanges : Ranges :=
  [ (0x0085, 0x0085), (0x00A0, 0x00A0), (0x1680, 0x1680), (0x2000, 0x200A), (0x2028, 0x2029),
    (0x202F, 0x202F), (0x205F, 0x205F), (0x3000, 0x3000) ]

/-- Whether a character is white space. In ASCII these are the space and the five characters from
tab to carriage return. -/
def isBlank (c : Char) : Bool :=
  if isAscii c then c == ' ' || (0x09 ≤ c.toNat && c.toNat ≤ 0x0D) else blankRanges.holds c

end ResidualPolicy.Text
