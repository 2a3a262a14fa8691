/-!
# UTF-8 as ranges of bytes

The characters of a range are written by sequences of bytes that fall into blocks: in a block, each
byte is chosen from a range of its own, whatever the others are. A range has few blocks, because the
bytes of UTF-8 are ordered like the code points they stand for.
-/

namespace ResidualPolicy.Text.Utf8

/-- A range of bytes, both ends included. -/
abbrev Span := Nat × Nat

/-- The ranges from which the bytes of a character are chosen, in their order. -/
abbrev Block := List Span

/-- A continuation byte of any value. -/
def anyContinuation : Span :=
  (0x80, 0xBF)

/-- The block of all codes that begin with a byte from `low` to `high` and have `count` continuation
bytes, unless there is no such byte. -/
def fullBlock (count low high : Nat) : List Block :=
  if low ≤ high then [(low, high) :: List.replicate count anyContinuation] else []

/-- The blocks of all codes from `first` to `last` that are written by one byte and `count`
continuation bytes of six bits each. The bits of the first byte are added to `base`. Unless both ends
agree in the first byte, the codes that share it with `first` or with `last` are set apart where they
are not complete. -/
def blocksFrom : Nat → Nat → Nat → Nat → List Block
  | 0, base, first, last => [[(base + first, base + last)]]
  | count + 1, base, first, last =>
    let unit := Nat.pow 64 (count + 1)
    let low := base + first / unit
    let high := base + last / unit
    let under (lead first last : Nat) : List Block :=
      (blocksFrom count 0x80 first last).map fun block => (lead, lead) :: block
    if low == high then under low (first % unit) (last % unit)
    else
      match first % unit == 0, last % unit == unit - 1 with
      | true, true => fullBlock (count + 1) low high
      | true, false => fullBlock (count + 1) low (high - 1) ++ under high 0 (last % unit)
      | false, true => under low (first % unit) (unit - 1) ++ fullBlock (count + 1) (low + 1) high
      | false, false =>
        under low (first % unit) (unit - 1) ++ fullBlock (count + 1) (low + 1) (high - 1) ++
          under high 0 (last % unit)

/-- Characters that are written by equally many bytes. -/
structure Form where
  first : Nat
  last : Nat
  continuations : Nat
  base : Nat

/-- One, two, three and four bytes. -/
def forms : List Form :=
  [⟨0, 0x7F, 0, 0⟩, ⟨0x80, 0x7FF, 1, 0xC0⟩, ⟨0x800, 0xFFFF, 2, 0xE0⟩, ⟨0x10000, 0x10FFFF, 3, 0xF0⟩]

/-- The blocks of a range of code points. -/
def blocks (first last : Nat) : List Block :=
  forms.flatMap fun form =>
    let first := max first form.first
    let last := min last form.last
    if first ≤ last then blocksFrom form.continuations form.base first last else []

end ResidualPolicy.Text.Utf8
