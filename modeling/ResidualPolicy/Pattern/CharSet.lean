import ResidualPolicy.Text.Alphabetic
import ResidualPolicy.Text.Blank
import ResidualPolicy.Text.CaseFolding
import ResidualPolicy.Text.Mark
import ResidualPolicy.Text.Newest
import ResidualPolicy.Text.Numeric

/-!
# Sets of characters

What a pattern may say about a single character. A set is kept as the expression that describes it and
is asked about one character at a time, so a complement costs nothing and no table of ranges is ever
built.

Patterns keep to the version of the character database before the newest: the newest characters have
no property here, and belong to a set only where it names them or takes a complement.
-/

namespace ResidualPolicy.Pattern

/-- Punctuation that joins the parts of a word, such as the underscore, from U+0080 on. -/
def connectorRanges : Text.Ranges :=
  [ (0x203F, 0x2040), (0x2054, 0x2054), (0xFE33, 0xFE34), (0xFE4D, 0xFE4F), (0xFF3F, 0xFF3F) ]

/-- The two characters that control whether their neighbours join. -/
def joinRanges : Text.Ranges :=
  [ (0x200C, 0x200D) ]

/-- Whether a character is part of words: letters, marks, digits, connecting punctuation and the join
controls. -/
def isWord (c : Char) : Bool :=
  if Text.isAscii c then c.isAlphanum || c == '_'
  else !Text.isNewest c &&
    (Text.isAlphabetic c || Text.isMark c || Text.isDecimal c ||
      connectorRanges.holds c || joinRanges.holds c)

/-- Sets of characters that have a name of their own. -/
inductive CharClass where
  | any
  | digit
  | blank
  | word
  | alphabetic
  | mark
  | numeric
  deriving DecidableEq, Repr

/-- Whether a character belongs to a named set. -/
def CharClass.holds : CharClass → Char → Bool
  | .any, _ => true
  | .digit, c => !Text.isNewest c && Text.isDecimal c
  | .blank, c => Text.isBlank c
  | .word, c => isWord c
  | .alphabetic, c => !Text.isNewest c && Text.isAlphabetic c
  | .mark, c => !Text.isNewest c && Text.isMark c
  | .numeric, c => !Text.isNewest c && Text.isNumeric c

/-- Operations that join two sets inside brackets. -/
inductive SetOperation where
  | intersection
  | difference
  | symmetric
  deriving DecidableEq, Repr

/-- Whether a character belongs to the joint set, from whether it belongs to either operand. -/
def SetOperation.holds : SetOperation → Bool → Bool → Bool
  | .intersection, a, b => a && b
  | .difference, a, b => a && !b
  | .symmetric, a, b => a != b

/-- A set of characters. -/
inductive CharSet where
  | empty
  /-- All characters between two, both included. -/
  | range (first last : Char)
  | named (name : CharClass)
  | complement (s : CharSet)
  | union (s t : CharSet)
  | joined (operation : SetOperation) (s t : CharSet)
  /-- All characters that differ from a member at most in case. -/
  | folded (s : CharSet)
  deriving Repr

namespace CharSet

/-- Whether a character belongs to a set. -/
def holds : CharSet → Char → Bool
  | empty, _ => false
  | range first last, c => first ≤ c && c ≤ last
  | named name, c => name.holds c
  | complement s, c => !s.holds c
  | union s t, c => s.holds c || t.holds c
  | joined operation s t, c => operation.holds (s.holds c) (t.holds c)
  | folded s, c => (Text.caseVariants c).any fun d => s.holds d

/-- The set of one character. -/
def single (c : Char) : CharSet :=
  range c c

/-- The union of a list of sets. -/
def unionOf : List CharSet → CharSet
  | [] => empty
  | [s] => s
  | s :: rest => union s (unionOf rest)

/-- Closes a set under case, if that is asked for. -/
def foldedIf : Bool → CharSet → CharSet
  | true, s => folded s
  | false, s => s

/-- Takes the complement, if that is asked for. -/
def complementIf : Bool → CharSet → CharSet
  | true, s => complement s
  | false, s => s

/-- All characters but the line feed. -/
def notLineFeed : CharSet :=
  complement (single '\n')

/-- All characters but the line feed and the carriage return. -/
def notLineBreak : CharSet :=
  complement (union (single '\n') (single '\x0d'))

end CharSet

end ResidualPolicy.Pattern
