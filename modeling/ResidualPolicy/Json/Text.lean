import ResidualPolicy.Json.Event

/-!
# JSON text

There are two settings of the same text: compact, without any blank, and pretty, with one item or
entry a line, indented by two blanks a level. NaN and the infinities have no JSON text and are written
as null.
-/

namespace ResidualPolicy.Json

/-- Doubles in JSON: at most sixteen digits before the point and four zeros behind it are written
without an exponent, and a whole number keeps a zero behind its point. -/
def doubleLayout : Double.Layout where
  tie := .toEven
  positional exponent := -5 ≤ exponent && exponent < 16
  wholeMark := ".0".toList
  nan := "null".toList
  infinite _ := "null".toList

/-- Texts between brackets, separated by commas. -/
def bracketed (opening : Char) (texts : List (List Char)) (closing : Char) : List Char :=
  opening :: (List.intercalate [','] texts ++ [closing])

/-- A line break and the blanks of a level. -/
def newline (level : Nat) : List Char :=
  '\n' :: List.replicate (2 * level) ' '

/-- Texts between brackets, one a line on the level inside; nothing stays on one line. -/
def stacked (level : Nat) (opening : Char) (texts : List (List Char)) (closing : Char) :
    List Char :=
  if texts.isEmpty then [opening, closing]
  else
    opening :: (newline (level + 1) ++ List.intercalate (',' :: newline (level + 1)) texts ++
      newline level ++ [closing])

namespace Event

mutual

/-- Compact text. -/
def compact : Event → List Char
  | .unit => "null".toList
  | .bool b => boolText b
  | .int64 i => Double.intText i.toInt
  | .uint64 n => Double.intText n.toNat
  | .double d => d.text doubleLayout
  | .string s => quote s.toList
  | .seq items => bracketed '[' (compactItems items) ']'
  | .map entries => bracketed '\x7b' (compactEntries entries) '\x7d'

/-- Compact texts of the items of a sequence. -/
def compactItems : List Event → List (List Char)
  | [] => []
  | e :: rest => compact e :: compactItems rest

/-- Compact texts of the entries of a map. -/
def compactEntries : List (String × Event) → List (List Char)
  | [] => []
  | (s, e) :: rest => (quote s.toList ++ ':' :: compact e) :: compactEntries rest

end

mutual

/-- Pretty text that begins on the given level. -/
def prettyAt (level : Nat) : Event → List Char
  | .seq items => stacked level '[' (prettyItems (level + 1) items) ']'
  | .map entries => stacked level '\x7b' (prettyEntries (level + 1) entries) '\x7d'
  | .unit => compact .unit
  | .bool b => compact (.bool b)
  | .int64 i => compact (.int64 i)
  | .uint64 n => compact (.uint64 n)
  | .double d => compact (.double d)
  | .string s => compact (.string s)

/-- Pretty texts of the items of a sequence. -/
def prettyItems (level : Nat) : List Event → List (List Char)
  | [] => []
  | e :: rest => prettyAt level e :: prettyItems level rest

/-- Pretty texts of the entries of a map. -/
def prettyEntries (level : Nat) : List (String × Event) → List (List Char)
  | [] => []
  | (s, e) :: rest => (quote s.toList ++ ':' :: ' ' :: prettyAt level e) :: prettyEntries level rest

end

end Event

end ResidualPolicy.Json
