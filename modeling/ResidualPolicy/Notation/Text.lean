import ResidualPolicy.Json.Quoted
import ResidualPolicy.Notation.Token
import ResidualPolicy.Value

/-!
# Policy notation of values

Vectors are written between brackets, maps between braces, sets between `#` and braces; strings are
JSON literals. A string that stands as a key is written as a keyword where it reads back from one, that
is, where it consists of word characters.
-/

namespace ResidualPolicy.Notation

/-- Whether a string reads back from a keyword. -/
def isName (cs : List Char) : Bool :=
  !cs.isEmpty && cs.all isWordChar

/-- Texts separated by a separator. -/
def separated (separator : List Char) (texts : List (List Char)) : List Char :=
  List.intercalate separator texts

/-- Texts between brackets, with blanks between them. -/
def bracketed (texts : List (List Char)) : List Char :=
  '[' :: (separated [' '] texts ++ [']'])

/-- Text of a string as a key. -/
def nameText (s : String) : List Char :=
  if isName s.toList then ':' :: s.toList else Json.quote s.toList

mutual

/-- Text of a value. -/
def text : Value → List Char
  | .null => "nil".toList
  | .bool b => Json.boolText b
  | .number n => n.text
  | .string s => Json.quote s.toList
  | .array items => bracketed (itemTexts items)
  | .set members => '#' :: '\x7b' :: (separated [' '] (itemTexts members) ++ ['\x7d'])
  | .object entries => '\x7b' :: (separated [',', ' '] (entryTexts entries) ++ ['\x7d'])

/-- Texts of the items of a list. -/
def itemTexts : List Value → List (List Char)
  | [] => []
  | v :: rest => text v :: itemTexts rest

/-- Texts of the entries of an object. -/
def entryTexts : List (Value × Value) → List (List Char)
  | [] => []
  | (.string s, v) :: rest => (nameText s ++ ' ' :: text v) :: entryTexts rest
  | (k, v) :: rest => (text k ++ ' ' :: text v) :: entryTexts rest

end

/-- Text of a value as a key of a map or of a path. -/
def keyText : Value → List Char
  | .string s => nameText s
  | k => text k

theorem itemTexts_eq_map (items : List Value) : itemTexts items = items.map text := by
  induction items with
  | nil => rfl
  | cons v rest ih => simp [itemTexts, ih]

end ResidualPolicy.Notation
