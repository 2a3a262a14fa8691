import ResidualPolicy.Json.Event

/-!
# Tokens of JSON text

What the text of an event consists of, blanks left out: brackets, braces, commas, colons, and the events
that hold no others.
-/

namespace ResidualPolicy.Json

/-- A token of JSON text. -/
inductive Token where
  | openArray
  | closeArray
  | openObject
  | closeObject
  | comma
  | colon
  /-- A literal: null, a truth value, a number or a string. -/
  | scalar (e : Event)
  deriving Repr, Inhabited

/-- The blanks that may stand between tokens. -/
def isBlank (c : Char) : Bool :=
  c == ' ' || c == '\t' || c == '\n' || c == '\x0d'

/-- The token that is one character. -/
def punctuation? (c : Char) : Option Token :=
  if c = '[' then some .openArray
  else if c = ']' then some .closeArray
  else if c = '\x7b' then some .openObject
  else if c = '\x7d' then some .closeObject
  else if c = ',' then some .comma
  else if c = ':' then some .colon
  else none

namespace Event

mutual

/-- The tokens of an event. -/
def tokens : Event → List Token
  | .seq items => .openArray :: (List.intercalate [.comma] (itemTokens items) ++ [.closeArray])
  | .map entries =>
    .openObject :: (List.intercalate [.comma] (entryTokens entries) ++ [.closeObject])
  | e => [.scalar e]

/-- The tokens of each item of a sequence. -/
def itemTokens : List Event → List (List Token)
  | [] => []
  | e :: rest => tokens e :: itemTokens rest

/-- The tokens of each entry of a map. -/
def entryTokens : List (String × Event) → List (List Token)
  | [] => []
  | (s, e) :: rest => (.scalar (.string s) :: .colon :: tokens e) :: entryTokens rest

end

end Event

end ResidualPolicy.Json
