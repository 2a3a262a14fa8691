import ResidualPolicy.Json.Quoted
import ResidualPolicy.Notation.Token
import ResidualPolicy.Value

/-!
# Reading policy notation

A text is read as one value. Its tokens are taken one by one by a machine that keeps a stack of the
brackets that are still open, so reading is a recursion on the tokens. Keywords and words are strings,
apart from the words `true`, `false` and `nil`.

Of several faults the one that comes first in the text is reported. A fault in a lexeme counts from the
lexeme before on, because closing a bracket looks one token ahead.
-/

namespace ResidualPolicy.Notation

/-- What a pair of brackets makes of the values between them. -/
inductive Bracket where
  | vector
  | list
  | set
  | map
  deriving DecidableEq, Repr

/-- The bracket that a symbol opens. -/
def Bracket.ofOpening? (symbol : List Char) : Option Bracket :=
  if symbol = ['['] then some .vector
  else if symbol = ['('] then some .list
  else if symbol = ['#', '\x7b'] then some .set
  else if symbol = ['\x7b'] then some .map
  else none

/-- The symbol that closes a bracket. -/
def Bracket.closing : Bracket → List Char
  | .vector => [']']
  | .list => [')']
  | .set | .map => ['\x7d']

/-- A bracket that is still open, and the values inside it so far, the latest first. -/
structure Frame where
  opener : Token
  bracket : Bracket
  items : List Value

/-- Keys and values by turns as entries; none if the last key has no value. -/
def pairUp : List Value → Option (List (Value × Value))
  | [] => some []
  | [_] => none
  | k :: v :: rest => (pairUp rest).map ((k, v) :: ·)

/-- The value of a bracket that is closed. -/
def Frame.close (frame : Frame) : Except Failure Value :=
  match frame.bracket with
  | .vector | .list => .ok (.array frame.items.reverse)
  | .set => .ok (Value.ofMembers frame.items.reverse)
  | .map =>
    match pairUp frame.items.reverse with
    | some entries => .ok (Value.ofEntries entries)
    | none => .error (frame.opener.fail .unevenMap)

/-- The value of a word. -/
def wordValue (text : List Char) : Value :=
  if text = "true".toList then .bool true
  else if text = "false".toList then .bool false
  else if text = "nil".toList then .null
  else .string (.ofList text)

/-- The value of a token that is no bracket. -/
def Token.atom (token : Token) : Except Failure Value :=
  match token.kind with
  | .symbol => .error (token.fail (.unexpectedSymbol token.text))
  | .string =>
    match Json.unquote ('"' :: (token.text ++ ['"'])) with
    | some (content, []) => .ok (.string (.ofList content))
    | _ => .error (token.fail .invalidString)
  | .number =>
    match Number.ofText? token.text with
    | some n => .ok (.number n)
    | none => .error (token.fail (.unreadableNumber ⟨token.text⟩))
  | .keyword => .ok (.string (.ofList token.text))
  | .word => .ok (wordValue token.text)
  | .eof => .error (token.fail .unexpectedEnd)

/-- Whether a token closes the innermost open bracket. -/
def closes (token : Token) : List Frame → Bool
  | [] => false
  | frame :: _ => token.kind == .symbol && token.text == frame.bracket.closing

/-- What a token does to the stack of open brackets. -/
inductive Move where
  /-- It opens a bracket. -/
  | opened (frame : Frame)
  /-- It completes a value inside the given brackets. -/
  | completed (v : Value) (frames : List Frame)

/-- The move of a token. `lookahead` is the fault that follows directly, if one does. -/
def move (lookahead : Except Failure Unit) (frames : List Frame) (token : Token) :
    Except Failure Move :=
  match frames with
  | frame :: outer =>
    if closes token frames then do
      lookahead
      let v ← frame.close
      pure (.completed v outer)
    else openOrAtom
  | [] => openOrAtom
where
  /-- The move of a token that closes nothing. -/
  openOrAtom : Except Failure Move :=
    match token.kind, Bracket.ofOpening? token.text with
    | .symbol, some bracket => .ok (.opened ⟨token, bracket, []⟩)
    | _, _ => token.atom.map fun v => .completed v frames

/-- The fault at the end of the tokens, unless tokens are left or the text ends there. -/
def faultBehind (ending : Except Failure Token) (rest : List Token) : Except Failure Unit :=
  match rest, ending with
  | [], .error failure => .error failure
  | _, _ => .ok ()

/-- Reads on inside the given open brackets. -/
def readFrom (ending : Except Failure Token) : List Frame → List Token → Except Failure Value
  | frames, [] =>
    match ending, frames with
    | .error failure, _ => .error failure
    | .ok eof, [] => .error (eof.fail .unexpectedEnd)
    | .ok _, frame :: _ => .error (frame.opener.fail (.missingClose frame.bracket.closing))
  | frames, token :: rest =>
    match move (faultBehind ending rest) frames token with
    | .error failure => .error failure
    | .ok (.opened frame) => readFrom ending (frame :: frames) rest
    | .ok (.completed v (frame :: outer)) =>
      readFrom ending ({ frame with items := v :: frame.items } :: outer) rest
    | .ok (.completed v []) =>
      match ending, rest with
      | _, extra :: _ => .error (extra.fail .trailingInput)
      | .error failure, [] => .error failure
      | .ok _, [] => .ok v

/-- Reads a text as one value. -/
def read? (cs : List Char) : Except Failure Value :=
  let lexed := lex cs
  readFrom lexed.ending [] lexed.tokens

/-- Reads a named text as one value, unless it is too large; the error is the diagnostic. -/
def Source.read (source : Source) : Except String Value :=
  if sizeLimit ≤ source.text.utf8ByteSize then .error source.tooLarge
  else (read? source.text.toList).mapError source.report

end ResidualPolicy.Notation
