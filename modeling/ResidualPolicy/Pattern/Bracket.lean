import ResidualPolicy.Pattern.Escape
import ResidualPolicy.Pattern.Nested

/-!
# Brackets

A set of characters in brackets is a list of characters, ranges, classes and further brackets. It may
begin with `^`, which takes the complement, and such lists may be joined by `&&`, `--` and `~~`, which
group from the left.

Where case is ignored, a set is closed under case before its complement is taken, and so are the two
operands before they are joined.
-/

namespace ResidualPolicy.Pattern

/-- A pair of brackets of which a part has been read. -/
structure Bracket where
  negated : Bool
  /-- What the list being read is joined to, and how. -/
  left : Option (SetOperation × Nested CharSet)
  /-- The list being read, newest first. -/
  items : List (Nested CharSet)
  deriving Repr

/-- Takes a further item. -/
def Bracket.take (bracket : Bracket) (item : Nested CharSet) : Bracket :=
  { bracket with items := item :: bracket.items }

/-- The set of everything read so far. -/
def Bracket.operand (bracket : Bracket) (ignoreCase : Bool) : Nested CharSet :=
  let items := Nested.join CharSet.unionOf bracket.items.reverse
  match bracket.left with
  | none => items
  | some (operation, left) =>
    ⟨.joined operation (.foldedIf ignoreCase left.value) (.foldedIf ignoreCase items.value),
      max left.depth items.depth + 1⟩

/-- The set of a pair of brackets that has been read to its end. -/
def Bracket.set (bracket : Bracket) (ignoreCase : Bool) : Nested CharSet :=
  (bracket.operand ignoreCase).around fun s =>
    .complementIf bracket.negated (.foldedIf ignoreCase s)

/-- Goes on behind an operation. -/
def Bracket.join (bracket : Bracket) (ignoreCase : Bool) (operation : SetOperation) : Bracket :=
  ⟨bracket.negated, some (operation, bracket.operand ignoreCase), []⟩

/-! ## Classes of ASCII -/

/-- The set of a named class of ASCII. -/
def asciiSet? (name : String) : Option CharSet :=
  match name with
  | "alnum" => some (.unionOf [.range '0' '9', .range 'A' 'Z', .range 'a' 'z'])
  | "alpha" => some (.unionOf [.range 'A' 'Z', .range 'a' 'z'])
  | "ascii" => some (.range '\x00' '\x7f')
  | "blank" => some (.unionOf [.single '\t', .single ' '])
  | "cntrl" => some (.unionOf [.range '\x00' '\x1f', .single '\x7f'])
  | "digit" => some (.range '0' '9')
  | "graph" => some (.range '!' '~')
  | "lower" => some (.range 'a' 'z')
  | "print" => some (.range ' ' '~')
  | "punct" =>
    some (.unionOf [.range '!' '/', .range ':' '@', .range '[' '\x60', .range '\x7b' '~'])
  | "space" => some (.unionOf [.range '\t' '\r', .single ' '])
  | "upper" => some (.range 'A' 'Z')
  | "word" => some (.unionOf [.range '0' '9', .range 'A' 'Z', .single '_', .range 'a' 'z'])
  | "xdigit" => some (.unionOf [.range '0' '9', .range 'A' 'F', .range 'a' 'f'])
  | _ => none

/-- Reads a class such as `[:alpha:]`, whose bracket has been read, if there is one. -/
def asciiClass? (ignoreCase : Bool) : List Char → Option (CharSet × List Char)
  | ':' :: rest =>
    let (negated, rest) := match rest with
      | '^' :: rest => (true, rest)
      | rest => (false, rest)
    let (name, rest) := rest.span (· != ':')
    match rest with
    | ':' :: ']' :: rest =>
      (asciiSet? (String.ofList name)).map fun s =>
        (.complementIf negated (.foldedIf ignoreCase s), rest)
    | _ => none
  | _ => none

/-! ## Opening and items -/

/-- Reads hyphens that stand for themselves at the beginning. -/
def leadingHyphens (flags : Flags) (bracket : Bracket) : List Char → Bracket × List Char
  | '-' :: rest => leadingHyphens flags (bracket.take (.flat (.single '-'))) (flags.skip rest)
  | cs => (bracket, cs)
termination_by cs => cs.length
decreasing_by exact Nat.lt_succ_of_le (flags.length_skip_le rest)

/-- Reads the beginning of brackets, whose first bracket has been read. A closing bracket as the very
first character stands for itself. -/
def openBracket (flags : Flags) (cs : List Char) : Bracket × List Char :=
  let (negated, cs) := match flags.skip cs with
    | '^' :: rest => (true, flags.skip rest)
    | cs => (false, cs)
  match leadingHyphens flags ⟨negated, none, []⟩ cs with
  | (bracket, ']' :: rest) =>
    if bracket.items.isEmpty then (bracket.take (.flat (.single ']')), flags.skip rest)
    else (bracket, ']' :: rest)
  | opened => opened

/-- Reads one character or escape inside brackets. -/
def bracketEscape? (flags : Flags) : List Char → Option (Escape × List Char)
  | [] => none
  | '\\' :: rest => escape? flags rest
  | c :: rest => some (.char c, rest)

/-- The set of an escape; an assertion has none. -/
def Escape.set? : Escape → Option CharSet
  | .char c => some (.single c)
  | .set s => some s
  | .assertion _ => none

/-- Reads a character, a class or a range. A hyphen makes a range unless it stands before a closing
bracket or another hyphen. -/
def bracketItem? (flags : Flags) (cs : List Char) : Option (CharSet × List Char) := do
  let (first, rest) ← bracketEscape? flags cs
  match flags.skip rest with
  | '-' :: behind =>
    let next := flags.peek? behind
    if next == some ']' || next == some '-' then
      let s ← first.set?
      some (s, '-' :: behind)
    else
      let (last, rest) ← bracketEscape? flags (flags.skip behind)
      match first, last with
      | .char a, .char b => if a ≤ b then some (.range a b, rest) else none
      | _, _ => none
  | rest =>
    let s ← first.set?
    some (s, rest)

/-! ## Reading -/

/-- What one step of reading leads to. -/
inductive BracketMove where
  /-- Reading goes on in the innermost of the open brackets. -/
  | inside (innermost : Bracket) (outer : List Bracket)
  /-- The outermost brackets have been closed. -/
  | closed (set : Nested CharSet)

/-- One step at a character. -/
def bracketMove? (flags : Flags) (bracket : Bracket) (outer : List Bracket) :
    Char → List Char → Option (BracketMove × List Char)
  | '[', rest =>
    match asciiClass? flags.ignoreCase rest with
    | some (s, rest) => some (.inside (bracket.take (.flat s)) outer, rest)
    | none =>
      let (inner, rest) := openBracket flags rest
      some (.inside inner (bracket :: outer), rest)
  | ']', rest =>
    let s := bracket.set flags.ignoreCase
    match outer with
    | [] => some (.closed s, rest)
    | next :: outer => some (.inside (next.take s) outer, rest)
  | '&', '&' :: rest => some (.inside (bracket.join flags.ignoreCase .intersection) outer, rest)
  | '-', '-' :: rest => some (.inside (bracket.join flags.ignoreCase .difference) outer, rest)
  | '~', '~' :: rest => some (.inside (bracket.join flags.ignoreCase .symmetric) outer, rest)
  | c, rest =>
    (bracketItem? flags (c :: rest)).map fun (s, rest) =>
      (.inside (bracket.take (.flat s)) outer, rest)

/-- Reads on inside open brackets. -/
def bracketFrom? (flags : Flags) (bracket : Bracket) (outer : List Bracket) (cs : List Char) :
    Option (Nested CharSet × List Char) :=
  match flags.skip cs with
  | [] => none
  | c :: behind =>
    match bracketMove? flags bracket outer c behind with
    | none => none
    | some (.closed s, rest) => some (s, rest)
    | some (.inside bracket outer, rest) =>
      if rest.length < cs.length then bracketFrom? flags bracket outer rest else none
termination_by cs.length

/-- Reads a set in brackets, whose first bracket has been read. -/
def bracket? (flags : Flags) (cs : List Char) : Option (Nested CharSet × List Char) :=
  let (bracket, rest) := openBracket flags cs
  bracketFrom? flags bracket [] rest

end ResidualPolicy.Pattern
