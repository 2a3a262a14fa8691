import ResidualPolicy.Pattern
import ResidualPolicy.Text.Utf8

/-!
# Size of patterns

A pattern can be followed by an automaton that reads text byte by byte, in which every repetition is
written out. Its size is what such an automaton takes in memory: some bytes for each state, for each
range of bytes that leads out of a state, and for each branch. Two automata are measured, one that
reads forward and one that reads backward, and the larger one counts.

* A set of characters takes a state with a range for each of its ranges while it is ASCII. Beyond, it
  is followed along the blocks of its UTF-8 form. Forward, places from which the same blocks remain are
  one state; backward, only beginnings are shared.
* Groups are seen by the forward automaton only.
* What matches only the empty text is repeated once at most.
-/

namespace ResidualPolicy.Pattern

/-! ## Ranges of a set -/

/-- Where members of a named set may begin or end. -/
def CharClass.edges : CharClass → List Nat
  | .any => []
  | .digit => [0x30, 0x3A] ++ Text.decimalRanges.edges ++ Text.newestRanges.edges
  | .blank => [0x09, 0x0E, 0x20, 0x21] ++ Text.blankRanges.edges
  | .word =>
    [0x30, 0x3A, 0x41, 0x5B, 0x5F, 0x60, 0x61, 0x7B] ++ Text.alphabeticRanges.edges ++
      Text.markRanges.edges ++ Text.decimalRanges.edges ++ connectorRanges.edges ++
      joinRanges.edges ++ Text.newestRanges.edges
  | .alphabetic =>
    [0x41, 0x5B, 0x61, 0x7B] ++ Text.alphabeticRanges.edges ++ Text.newestRanges.edges
  | .mark => Text.markRanges.edges ++ Text.newestRanges.edges
  | .numeric => [0x30, 0x3A] ++ Text.numericRanges.edges ++ Text.newestRanges.edges

namespace CharSet

/-- Where members of a set may begin or end. -/
def edges : CharSet → List Nat
  | empty => []
  | range first last => [first.toNat, last.toNat + 1]
  | named name => name.edges
  | complement s => s.edges
  | union s t => s.edges ++ t.edges
  | joined _ s t => s.edges ++ t.edges
  | folded s => s.edges ++ Text.foldEdges

/-- The ranges between the edges of a sorted list, up to the last code point. -/
def between : List Nat → List (Nat × Nat)
  | [] => []
  | [edge] => if edge ≤ 0x10FFFF then [(edge, 0x10FFFF)] else []
  | edge :: next :: rest =>
    if edge < next then (edge, next - 1) :: between (next :: rest) else between (next :: rest)

/-- Joins ranges that touch each other. -/
def joinTouching (ranges : List (Nat × Nat)) : List (Nat × Nat) :=
  ranges.foldr (fun range joined =>
    match joined with
    | next :: rest =>
      if range.2 + 1 == next.1 then (range.1, next.2) :: rest else range :: next :: rest
    | [] => [range]) []

/-- The members of a set as ranges of code points. Between two edges of the set either all characters
are members or none, so one of them is asked. -/
def ranges (s : CharSet) : List (Nat × Nat) :=
  joinTouching ((between ([0, 0xD800, 0xE000] ++ s.edges).mergeSort).filter fun range =>
    range.1.isValidChar && s.holds (Char.ofNat range.1))

end CharSet

/-! ## Automata of sets -/

/-- In which direction an automaton reads. -/
inductive Direction where
  | forward
  | backward
  deriving DecidableEq, Repr

/-- Bytes of a state. -/
def stateBytes : Nat := 32

/-- Bytes of a range that leads out of a state. -/
def rangeBytes : Nat := 8

/-- Bytes of a branch. -/
def branchBytes : Nat := 4

/-- What remains of blocks behind each choice of a first byte. The blocks are in order. -/
def behind (blocks : List Text.Utf8.Block) : List (List Text.Utf8.Block) :=
  (blocks.splitBy fun a b => a.head? == b.head?).map fun group => group.map List.tail

/-- What remains of blocks at all places within them, for blocks of at most `depth` bytes. -/
def remainders : Nat → List Text.Utf8.Block → List (List Text.Utf8.Block)
  | 0, _ => []
  | depth + 1, blocks =>
    if blocks.all List.isEmpty then [] else blocks :: (behind blocks).flatMap (remainders depth)

/-- Adds up the numbers that a function gives for the members of a list. -/
def total {α : Type} (f : α → Nat) (members : List α) : Nat :=
  members.foldl (fun sum member => sum + f member) 0

/-- Bytes of the automaton of a set. A single character has a state for each byte. -/
def CharSet.bytes (direction : Direction) (s : CharSet) : Nat :=
  let blocks := s.ranges.flatMap fun range => Text.Utf8.blocks range.1 range.2
  if blocks.length == 1 && blocks.all fun block => block.all fun span => span.1 == span.2 then
    stateBytes * total List.length blocks
  else if blocks.all fun block => block.length == 1 then
    2 * stateBytes + rangeBytes * blocks.length
  else
    match direction with
    | .forward =>
      stateBytes + total (fun place => stateBytes + rangeBytes * (behind place).length)
        (remainders 4 blocks).eraseDups
    | .backward =>
      2 * stateBytes + total (fun place => stateBytes * (behind place).length)
        (remainders 4 blocks) + branchBytes * blocks.length

/-! ## Automata of patterns -/

/-- Whether the empty text may match. -/
def canBeEmpty : Pattern → Bool
  | empty => true
  | chars _ => false
  | assertion _ => true
  | sequence p q => p.canBeEmpty && q.canBeEmpty
  | either p q => p.canBeEmpty || q.canBeEmpty
  | group body => body.canBeEmpty
  | repeated least _ body => least == 0 || body.canBeEmpty

/-- Whether only the empty text may match. -/
def isAlwaysEmpty : Pattern → Bool
  | empty => true
  | chars _ => false
  | assertion _ => true
  | sequence p q => p.isAlwaysEmpty && q.isAlwaysEmpty
  | either p q => p.isAlwaysEmpty && q.isAlwaysEmpty
  | group body => body.isAlwaysEmpty
  | repeated _ most body => most == some 0 || body.isAlwaysEmpty

/-- Whether a match can begin only where an automaton of a direction begins to read. -/
def isAnchored (direction : Direction) : Pattern → Bool
  | empty => false
  | chars _ => false
  | assertion a =>
    match direction with
    | .forward => a == .textStart
    | .backward => a == .textEnd
  | sequence p q =>
    match direction with
    | .forward => p.isAnchored .forward || (p.isAlwaysEmpty && q.isAnchored .forward)
    | .backward => q.isAnchored .backward || (q.isAlwaysEmpty && p.isAnchored .backward)
  | either p q => p.isAnchored direction && q.isAnchored direction
  | group body => body.isAnchored direction
  | repeated least _ body => least != 0 && body.isAnchored direction

/-- The set that a choice among single characters amounts to. -/
def set? : Pattern → Option CharSet
  | chars s => some s
  | either p q => p.set?.bind fun s => q.set?.map fun t => .union s t
  | _ => none

/-- Bytes where something has to stand, which is one state where nothing does. -/
def atLeastAState (bytes : Nat) : Nat :=
  max bytes stateBytes

/-- Bytes of a repetition, from the bytes of its body. -/
def repeatedBytes (bodyCanBeEmpty : Bool) (bytes : Nat) : Nat → Option Nat → Nat
  | 0, some 0 => 0
  | 0, some 1 => 2 * stateBytes + 2 * branchBytes + atLeastAState bytes
  | 0, none =>
    if bodyCanBeEmpty then bytes + 3 * stateBytes + 4 * branchBytes
    else bytes + stateBytes + 2 * branchBytes
  | least, none => least * bytes + stateBytes + 2 * branchBytes
  | least, some most =>
    if least == most then least * bytes
    else
      (if least == 0 then stateBytes else least * bytes) + stateBytes +
        (most - least) * (bytes + stateBytes + 2 * branchBytes)

/-- Bytes of the automaton of a pattern. Where the pattern stands for one or several of the branches of
a choice, the way from the choice to the branches counts as well. -/
def bytes (direction : Direction) (asBranch : Bool) : Pattern → Nat
  | empty => if asBranch then stateBytes + branchBytes else 0
  | chars s => s.bytes direction + if asBranch then branchBytes else 0
  | assertion _ => stateBytes + if asBranch then branchBytes else 0
  | sequence p q =>
    let bytes := p.bytes direction false + q.bytes direction false
    if asBranch then atLeastAState bytes + branchBytes else bytes
  | either p q =>
    match (either p q).set? with
    | some s => s.bytes direction + if asBranch then branchBytes else 0
    | none =>
      p.bytes direction true + q.bytes direction true + if asBranch then 0 else 2 * stateBytes
  | group body =>
    let bytes := atLeastAState (body.bytes direction false)
    let ends := match direction with
      | .forward => 2 * stateBytes
      | .backward => 0
    bytes + ends + if asBranch then branchBytes else 0
  | repeated least most body =>
    let bytes := if body.isAlwaysEmpty then
        repeatedBytes true (body.bytes direction false) (min least 1) (some (min (most.getD 1) 1))
      else repeatedBytes body.canBeEmpty (body.bytes direction false) least most
    if asBranch then atLeastAState bytes + branchBytes else bytes

/-- Bytes of the automaton that looks for a pattern anywhere in a text: a loop over the bytes in front,
unless the pattern is anchored, the pattern as a group, and the state behind it. -/
def searchBytes (direction : Direction) (p : Pattern) : Nat :=
  let loop := if p.isAnchored direction then stateBytes
    else 3 * stateBytes + rangeBytes + 2 * branchBytes
  loop + (group p).bytes direction false + stateBytes

/-- The greatest size of a pattern in bytes. -/
def sizeLimit : Nat := 10485760

/-- The number of steps of a pattern with all its repetitions written out. -/
def steps : Pattern → Nat
  | empty => 1
  | chars _ => 1
  | assertion _ => 1
  | sequence p q => p.steps + q.steps
  | either p q => p.steps + q.steps + 1
  | group body => body.steps + 1
  | repeated least most body => max (least + 1) (most.getD 0) * (body.steps + 1)

/-- Whether a pattern keeps to the limit. A pattern of few steps does whatever its sets are, and is not
measured. -/
def fits (p : Pattern) : Bool :=
  p.steps ≤ 100 ||
    (p.searchBytes .forward ≤ sizeLimit && p.searchBytes .backward ≤ sizeLimit)

end ResidualPolicy.Pattern
