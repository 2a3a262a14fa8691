import ResidualPolicy.Pattern
import ResidualPolicy.Pattern.Flags
import ResidualPolicy.Text.Hexadecimal

/-!
# Escapes

What may stand behind a backslash in a pattern: a character given by its code point, a class of
characters, an assertion, or any character of ASCII that is neither a letter nor a digit, which then
stands for itself. Everything else is reserved.
-/

namespace ResidualPolicy.Pattern

/-- Meaning of an escape. -/
inductive Escape where
  | char (c : Char)
  | set (s : CharSet)
  | assertion (a : Assertion)
  deriving Repr

/-! ## Code points -/

/-- The character with a code point, if it has one. -/
def charAt? (point : Nat) : Option Char :=
  if point.isValidChar then some (Char.ofNat point) else none

/-- Reads a fixed number of hexadecimal digits. -/
def hexFrom? (flags : Flags) : Nat → Nat → List Char → Option (Nat × List Char)
  | 0, value, cs => some (value, cs)
  | count + 1, value, cs =>
    match flags.skip cs with
    | [] => none
    | c :: rest => (Text.hexDigit? c).bind fun digit => hexFrom? flags count (16 * value + digit) rest

/-- Value of a text of hexadecimal digits. -/
def hexText? (cs : List Char) : Option Nat :=
  if cs.isEmpty then none
  else cs.foldlM (fun value c => (Text.hexDigit? c).map fun digit => 16 * value + digit) 0

/-- Reads a code point: digits in braces, or as many digits as the letter of the escape asks for. -/
def codePoint? (flags : Flags) (digits : Nat) (cs : List Char) : Option (Escape × List Char) :=
  match flags.skip cs with
  | '\x7b' :: inner => do
    let (text, rest) ← flags.braced? (flags.skip inner)
    let point ← hexText? text
    let c ← charAt? point
    some (.char c, rest)
  | cs => do
    let (point, rest) ← hexFrom? flags digits 0 cs
    let c ← charAt? point
    some (.char c, rest)

/-! ## Classes -/

/-- The set of characters with a property, by the name of the property without case, blanks, hyphens
and underscores. -/
def propertySet? (name : String) : Option CharSet :=
  match name with
  | "any" => some (.named .any)
  | "ascii" => some (.range '\x00' '\x7f')
  | "alphabetic" | "alpha" => some (.named .alphabetic)
  | "whitespace" | "wspace" | "space" => some (.named .blank)
  | "nd" | "decimalnumber" | "digit" => some (.named .digit)
  | "n" | "number" => some (.named .numeric)
  | "m" | "mark" | "combiningmark" => some (.named .mark)
  | _ => none

/-- The name of a property as it is looked up. -/
def propertyName (cs : List Char) : String :=
  String.ofList ((cs.filter fun c => c != ' ' && c != '-' && c != '_').map Char.toLower)

/-- Reads the name of a property, one letter or a text in braces. -/
def property? (flags : Flags) (negated : Bool) (cs : List Char) : Option (Escape × List Char) := do
  let (name, rest) ←
    match flags.skip cs with
    | [] => none
    | '\x7b' :: inner => flags.braced? (flags.skip inner)
    | c :: rest => some ([c], rest)
  let set ← propertySet? (propertyName name)
  some (.set (.complementIf negated (.foldedIf flags.ignoreCase set)), rest)

/-- The set of a class letter. -/
def classSet? : Char → Option CharSet
  | 'd' => some (.named .digit)
  | 's' => some (.named .blank)
  | 'w' => some (.named .word)
  | 'D' => some (.complement (.named .digit))
  | 'S' => some (.complement (.named .blank))
  | 'W' => some (.complement (.named .word))
  | _ => none

/-! ## Assertions -/

/-- The boundary of words with a name. -/
def boundary? (name : String) : Option Assertion :=
  match name with
  | "start" => some .wordStart
  | "end" => some .wordEnd
  | "start-half" => some .wordStartHalf
  | "end-half" => some .wordEndHalf
  | _ => none

/-- Reads what follows `\b`: the name of a boundary in braces, if the braces begin like one. -/
def wordBoundary? (flags : Flags) : List Char → Option (Escape × List Char)
  | '\x7b' :: inner =>
    match flags.skip inner with
    | [] => none
    | c :: _ =>
      if c.isAlpha || c == '-' then do
        let (name, rest) ← flags.braced? (flags.skip inner)
        let a ← boundary? (String.ofList name)
        some (.assertion a, rest)
      else some (.assertion .wordBoundary, '\x7b' :: inner)
  | cs => some (.assertion .wordBoundary, cs)

/-- The assertion of a letter or an angle bracket. -/
def assertion? : Char → Option Assertion
  | 'A' => some .textStart
  | 'z' => some .textEnd
  | 'B' => some .notWordBoundary
  | '<' => some .wordStart
  | '>' => some .wordEnd
  | _ => none

/-! ## Characters -/

/-- The control character of a letter. -/
def control? : Char → Option Char
  | 'a' => some '\x07'
  | 'f' => some '\x0c'
  | 't' => some '\t'
  | 'n' => some '\n'
  | 'r' => some '\r'
  | 'v' => some '\x0b'
  | _ => none

/-- Whether a backslash makes a character stand for itself. -/
def isEscapable (c : Char) : Bool :=
  Text.isAscii c && !c.isAlphanum && c != '<' && c != '>'

/-- Reads an escape, whose backslash has been read. -/
def escape? (flags : Flags) : List Char → Option (Escape × List Char)
  | [] => none
  | 'x' :: rest => codePoint? flags 2 rest
  | 'u' :: rest => codePoint? flags 4 rest
  | 'U' :: rest => codePoint? flags 8 rest
  | 'p' :: rest => property? flags false rest
  | 'P' :: rest => property? flags true rest
  | 'b' :: rest => wordBoundary? flags rest
  | c :: rest =>
    if isEscapable c then some (.char c, rest)
    else
      match classSet? c, assertion? c, control? c with
      | some s, _, _ => some (.set s, rest)
      | _, some a, _ => some (.assertion a, rest)
      | _, _, some d => some (.char d, rest)
      | none, none, none => none

end ResidualPolicy.Pattern
