import ResidualPolicy.Pattern.CharSet

/-!
# Patterns

Regular expressions over text, with assertions about the place between two characters. The question
put to a pattern is only whether some part of a text matches, so nothing here depends on which of
several matches comes first, and repetitions have no greedy or lazy variant.

A pattern sends a set of cursors, the places where it may begin, to the set of places where it may
end. All alternatives are followed at once, so the work is bounded by the size of the pattern times
the length of the text, squared at worst under repetition.
-/

namespace ResidualPolicy.Pattern

/-! ## Places -/

/-- What a place between two characters must satisfy. -/
inductive Assertion where
  | textStart
  | textEnd
  | lineStart
  | lineEnd
  /-- The start of a line where carriage returns end lines. -/
  | carriageLineStart
  /-- The end of a line where carriage returns end lines. -/
  | carriageLineEnd
  /-- Exactly one of the neighbours is part of a word. -/
  | wordBoundary
  | notWordBoundary
  | wordStart
  | wordEnd
  /-- No word character before. -/
  | wordStartHalf
  /-- No word character after. -/
  | wordEndHalf
  deriving DecidableEq, Repr

/-- A place in a text. -/
structure Cursor where
  /-- How many characters are behind. -/
  position : Nat
  /-- The last character behind. -/
  before : Option Char
  ahead : List Char
  deriving Repr

namespace Cursor

/-- All places of the text from a cursor on. -/
def placesFrom (position : Nat) (before : Option Char) : List Char → List Cursor
  | [] => [⟨position, before, []⟩]
  | c :: rest => ⟨position, before, c :: rest⟩ :: placesFrom (position + 1) (some c) rest

/-- All places of a text. -/
def places (text : List Char) : List Cursor :=
  placesFrom 0 none text

/-- Moves over one character of a set. -/
def over? (set : CharSet) (cursor : Cursor) : Option Cursor :=
  match cursor.ahead with
  | [] => none
  | c :: rest => if set.holds c then some ⟨cursor.position + 1, some c, rest⟩ else none

/-- Whether the character behind is part of a word. -/
def wordBefore (cursor : Cursor) : Bool :=
  cursor.before.any isWord

/-- Whether the character ahead is part of a word. -/
def wordAhead (cursor : Cursor) : Bool :=
  cursor.ahead.head?.any isWord

end Cursor

/-- Whether an assertion holds at a place. -/
def Assertion.holds : Assertion → Cursor → Bool
  | .textStart, cursor => cursor.before.isNone
  | .textEnd, cursor => cursor.ahead.isEmpty
  | .lineStart, cursor => cursor.before.all (· == '\n')
  | .lineEnd, cursor => cursor.ahead.head?.all (· == '\n')
  | .carriageLineStart, cursor =>
    cursor.before.all fun c => c == '\n' || (c == '\x0d' && cursor.ahead.head? != some '\n')
  | .carriageLineEnd, cursor =>
    cursor.ahead.head?.all fun c => c == '\x0d' || (c == '\n' && cursor.before != some '\x0d')
  | .wordBoundary, cursor => cursor.wordBefore != cursor.wordAhead
  | .notWordBoundary, cursor => cursor.wordBefore == cursor.wordAhead
  | .wordStart, cursor => !cursor.wordBefore && cursor.wordAhead
  | .wordEnd, cursor => cursor.wordBefore && !cursor.wordAhead
  | .wordStartHalf, cursor => !cursor.wordBefore
  | .wordEndHalf, cursor => !cursor.wordAhead

/-! ## Sets of cursors -/

/-- Cursors into one text, each position at most once. -/
abbrev Cursors := List Cursor

namespace Cursors

/-- Whether a position is among the cursors. -/
def hasPosition (cursors : Cursors) (position : Nat) : Bool :=
  cursors.any fun cursor => cursor.position == position

/-- The cursors of `more` whose positions are new. -/
def newIn (cursors more : Cursors) : Cursors :=
  more.filter fun cursor => !cursors.hasPosition cursor.position

/-- All cursors of both. -/
def union (cursors more : Cursors) : Cursors :=
  cursors ++ cursors.newIn more

/-- Whether both hold the same positions. -/
def samePositions (cursors others : Cursors) : Bool :=
  cursors.length == others.length && (cursors.newIn others).isEmpty

/-- The length of the longest text ahead, which bounds how often a repetition can move on. -/
def reach (cursors : Cursors) : Nat :=
  cursors.foldl (fun longest cursor => max longest cursor.ahead.length) 0

/-- Takes a step `count` times in a row, or fewer once it changes nothing any more. -/
def times (step : Cursors → Cursors) : Nat → Cursors → Cursors
  | 0, cursors => cursors
  | count + 1, cursors =>
    let next := step cursors
    if cursors.samePositions next then cursors else times step count next

/-- Takes a step up to `count` times in a row and gathers all cursors on the way. The step is taken
from the cursors found last, since the others have been followed before. -/
def upTo (step : Cursors → Cursors) : Nat → Cursors → Cursors → Cursors
  | 0, found, _ => found
  | count + 1, found, latest =>
    let fresh := found.newIn (step latest)
    if fresh.isEmpty then found else upTo step count (found ++ fresh) fresh

end Cursors

end ResidualPolicy.Pattern

namespace ResidualPolicy

/-! ## Matching -/

/-- A regular expression. -/
inductive Pattern where
  | empty
  | chars (set : Pattern.CharSet)
  | assertion (a : Pattern.Assertion)
  | sequence (p q : Pattern)
  | either (p q : Pattern)
  /-- What `body` matches, as a group whose place in the text is kept. -/
  | group (body : Pattern)
  /-- As many times in a row as `least` and `most` allow. -/
  | repeated (least : Nat) (most : Option Nat) (body : Pattern)
  deriving Repr

namespace Pattern

/-- The places where a match of the pattern can end that begins at one of the cursors. -/
def ends : Pattern → Cursors → Cursors
  | empty, cursors => cursors
  | chars set, cursors => cursors.filterMap fun cursor => cursor.over? set
  | assertion a, cursors => cursors.filter fun cursor => a.holds cursor
  | sequence p q, cursors => q.ends (p.ends cursors)
  | either p q, cursors => (p.ends cursors).union (q.ends cursors)
  | group body, cursors => body.ends cursors
  | repeated least most body, cursors =>
    let begun := Cursors.times body.ends least cursors
    let more := match most with
      | some most => most - least
      | none => begun.reach
    Cursors.upTo body.ends more begun begun

/-- Whether some part of the text matches. -/
def occursIn (p : Pattern) (text : String) : Bool :=
  !(p.ends (Cursor.places text.toList)).isEmpty

/-- The pattern of one character. -/
def single (c : Char) : Pattern :=
  chars (.single c)

/-- One pattern after the other. -/
def sequenceOf : List Pattern → Pattern
  | [] => empty
  | [p] => p
  | p :: rest => sequence p (sequenceOf rest)

/-- One of several patterns; a list of none stands for the empty text. -/
def eitherOf : List Pattern → Pattern
  | [] => empty
  | [p] => p
  | p :: rest => either p (eitherOf rest)

end Pattern

end ResidualPolicy
