/-!
# Policy text and diagnostics

A source is a named text. Places in it are counted in lines, columns and bytes; a diagnostic shows the
line that it speaks of and points at the column.
-/

namespace ResidualPolicy.Notation

/-! ## Positions -/

/-- A place between two characters of a text. -/
structure Position where
  /-- Lines begun so far; the first line is 1. -/
  line : Nat
  /-- Characters of the line so far, plus one. -/
  column : Nat
  /-- Bytes before the place, the text being encoded in UTF-8. -/
  offset : Nat
  deriving DecidableEq, Repr, Inhabited

/-- The place before the first character. -/
def Position.start : Position := ⟨1, 1, 0⟩

/-- The place behind one more character. -/
def Position.next (p : Position) (c : Char) : Position :=
  if c = '\n' then ⟨p.line + 1, 1, p.offset + c.utf8Size⟩
  else ⟨p.line, p.column + 1, p.offset + c.utf8Size⟩

/-- The place behind some more characters. -/
def Position.after (p : Position) (cs : List Char) : Position :=
  cs.foldl Position.next p

@[simp]
theorem Position.after_nil (p : Position) : p.after [] = p := rfl

@[simp]
theorem Position.after_append (p : Position) (xs ys : List Char) :
    p.after (xs ++ ys) = (p.after xs).after ys :=
  List.foldl_append

/-! ## Sources -/

/-- A text and the name that diagnostics give it. -/
structure Source where
  name : String
  text : String
  deriving DecidableEq, Repr

/-- A text of this many bytes is too large to be read. -/
def sizeLimit : Nat := UInt32.size - 1

/-- Wording of the error about a text that is too large. -/
def Source.tooLarge (source : Source) : String :=
  source.name ++ " is too large to be read as a policy"

/-- Places behind the newlines of a text that stands behind some bytes. -/
def startsFrom (offset : Nat) : List Char → List Nat
  | [] => []
  | c :: rest =>
    let next := offset + c.utf8Size
    if c = '\n' then next :: startsFrom next rest else startsFrom next rest

/-- Where the lines of a text begin, in bytes. -/
def lineStarts (cs : List Char) : List Nat :=
  0 :: startsFrom 0 cs

/-- A text without its first bytes. -/
def dropBytes : Nat → List Char → List Char
  | 0, cs => cs
  | _ + 1, [] => []
  | count + 1, c :: rest => dropBytes (count + 1 - c.utf8Size) rest

/-- The first bytes of a text. -/
def takeBytes : Nat → List Char → List Char
  | 0, _ => []
  | _ + 1, [] => []
  | count + 1, c :: rest => c :: takeBytes (count + 1 - c.utf8Size) rest

/-- The part of a text between two places, which are given in bytes and stand between characters. -/
def slice (first last : Nat) (cs : List Char) : List Char :=
  takeBytes (last - first) (dropBytes first cs)

/-- A line without the carriage returns that end it. -/
def withoutReturns (line : List Char) : List Char :=
  (line.reverse.dropWhile (· == '\x0d')).reverse

/-- The text from where a line begins to the newline before the next one, or to the end. -/
def lineFrom? (cs : List Char) (index size : Nat) : Option (List Char) :=
  (lineStarts cs)[index]?.map fun first =>
    slice first ((lineStarts cs)[index + 1]?.elim size (· - 1)) cs

/-- The line of that number, the first being 1; empty where there is none. -/
def Source.line (source : Source) (number : Nat) : List Char :=
  if number = 0 then []
  else
    withoutReturns
      ((lineFrom? source.text.toList (number - 1) source.text.utf8ByteSize).getD [])

/-- A diagnostic of some severity that points at a column of a line. -/
def Source.message (source : Source) (line column : Nat) (severity text : String) : String :=
  let number := toString line
  let gutter := "".pushn ' ' number.length
  let place := source.name ++ ":" ++ number ++ ":" ++ toString column
  let pointer := "".pushn ' ' (column - 1) ++ "^"
  place ++ ": " ++ severity ++ ": " ++ text ++ "\n" ++
    gutter ++ " |\n" ++
    number ++ " | " ++ String.ofList (source.line line) ++ "\n" ++
    gutter ++ " | " ++ pointer

/-- A diagnostic that reports an error. -/
def Source.error (source : Source) (line column : Nat) (text : String) : String :=
  source.message line column "error" text

end ResidualPolicy.Notation
