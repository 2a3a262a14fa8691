import ResidualPolicy.Json.Text
import ResidualPolicy.Json.Token

/-!
# Reading JSON

Strict JSON: no comments, no trailing commas, only the four blanks of JSON between tokens, and nothing
behind the text. A text is split into tokens first; a machine with a stack of unfinished arrays and
objects then takes the tokens one by one. The height of the stack is the depth of nesting, which is
limited.

Numbers are read as the format's users expect of a fast reader. An integer of 64 bits is exact. Any
other number is scaled: as many of its leading digits as 64 bits hold are rounded to a double, and that
is multiplied or divided by a power of ten, rounding once more. The result is the nearest double
whenever those digits and that power are exact as doubles.
-/

namespace ResidualPolicy.Json

/-! ## Numbers -/

/-- A number literal taken apart. -/
structure Literal where
  negative : Bool
  /-- Digits before the point, at least one. -/
  whole : List Char
  /-- Digits behind the point, if there is one. -/
  fraction : Option (List Char)
  exponent : Option Int
  deriving DecidableEq, Repr

/-- The fraction of a number literal, and what follows it. -/
def fraction? : List Char → Option (Option (List Char) × List Char)
  | '.' :: rest =>
    let digits := rest.takeWhile Char.isDigit
    if digits.isEmpty then none else some (some digits, rest.dropWhile Char.isDigit)
  | rest => some (none, rest)

/-- The exponent of a number literal, behind which nothing follows. -/
def exponent? : List Char → Option (Option Int)
  | [] => some none
  | rest => (Double.exponent? rest).map some

/-- Takes a number literal apart. Its whole part has no leading zero. -/
def literal? (cs : List Char) : Option Literal := do
  let (negative, unsigned) :=
    match cs with
    | '-' :: rest => (true, rest)
    | rest => (false, rest)
  let whole := unsigned.takeWhile Char.isDigit
  if whole.isEmpty || (whole.head? == some '0' && whole.length != 1) then none
  else
    let (fraction, rest) ← fraction? (unsigned.dropWhile Char.isDigit)
    let exponent ← exponent? rest
    some { negative, whole, fraction, exponent }

/-- Appends digits to a significand for as long as it stays below `2 ^ 64`; gives the significand and
the number of digits left out. -/
def absorb (significand : Nat) : List Char → Nat × Nat
  | [] => (significand, 0)
  | digit :: rest =>
    let next := 10 * significand + (digit.toNat - '0'.toNat)
    if next < UInt64.size then absorb next rest else (significand, rest.length + 1)

/-- Divides by a power of ten, in steps that a double can hold. -/
def scaleDown (d : Double) (exponent : Nat) : Double :=
  if exponent ≤ 308 then d.overPowerOfTen exponent
  else if d.magnitude = 0 then d
  else scaleDown (d.overPowerOfTen 308) (exponent - 308)
termination_by exponent

/-- `significand * 10 ^ exponent` as a double, unless it is too large for one. -/
def scale? (significand : Nat) (exponent : Int) : Option Double :=
  let d := Double.ofInt significand
  if exponent < 0 then some (scaleDown d (-exponent).toNat)
  else if 308 < exponent then
    if significand = 0 then some d else none
  else
    let product := d.timesPowerOfTen exponent.toNat
    if product.isFinite then some product else none

/-- The sign of a literal applied to the double that its digits give. -/
def signed (negative : Bool) (d : Double) : Double :=
  .ofMagnitude negative d.magnitude

/-- A negated whole number: an integer if it is one of 64 bits, and else a double. Zero keeps its sign
as a double only. -/
def negated (significand : Nat) : Event :=
  let rounded : Event := .double (signed true (Double.ofInt significand))
  if significand = 0 then rounded else (Number.int64? (-(significand : Int))).elim rounded .int64

/-- The number that a literal stands for, unless it is too large for a double. -/
def Literal.number? (l : Literal) : Option Event :=
  let (significand, wholeLeft) := absorb 0 l.whole
  match l.fraction, l.exponent with
  | none, none =>
    if wholeLeft = 0 then
      some (if l.negative then negated significand else .uint64 (.ofNat significand))
    else
      (scale? significand wholeLeft).map fun d => .double (signed l.negative d)
  | fraction, exponent =>
    let digits := fraction.getD []
    let (significand, fractionLeft) := absorb significand digits
    let shift : Int := wholeLeft - (digits.length - fractionLeft)
    (scale? significand (shift + exponent.getD 0)).map fun d => .double (signed l.negative d)

/-! ## Tokens -/

/-- Characters that a number literal is made of. -/
def isNumberPart (c : Char) : Bool :=
  c.isDigit || c == '-' || c == '+' || c == '.' || c == 'e' || c == 'E'

/-- The event that a bare word names. -/
def word? (cs : List Char) : Option Event :=
  if cs = "null".toList then some .unit
  else if cs = "true".toList then some (.bool true)
  else if cs = "false".toList then some (.bool false)
  else none

/-- A run of characters of one class that starts with `c`, and what follows it. -/
def run (inClass : Char → Bool) (c : Char) (rest : List Char) : List Char × List Char :=
  (c :: rest.takeWhile inClass, rest.dropWhile inClass)

/-- What follows a run is no longer than what follows its first character. -/
theorem length_run_le (inClass : Char → Bool) (c : Char) (rest : List Char) :
    (run inClass c rest).2.length ≤ rest.length :=
  (List.dropWhile_sublist _).length_le

/-- Splits a text into tokens, blanks left out. -/
def tokens? (cs : List Char) : Option (List Token) :=
  match cs with
  | [] => some []
  | c :: rest =>
    if isBlank c then tokens? rest
    else
      match punctuation? c with
      | some token => (tokens? rest).map (token :: ·)
      | none =>
        if c = '"' then
          match h : unescapeFrom .plain rest with
          | none => none
          | some (content, behind) =>
            have := length_of_unescapeFrom .plain rest h
            (tokens? behind).map (.scalar (.string (.ofList content)) :: ·)
        else if c = '-' || c.isDigit then
          let behind := (run isNumberPart c rest).2
          have := length_run_le isNumberPart c rest
          match (literal? (run isNumberPart c rest).1).bind Literal.number? with
          | none => none
          | some e => (tokens? behind).map (.scalar e :: ·)
        else
          let behind := (run Char.isAlpha c rest).2
          have := length_run_le Char.isAlpha c rest
          match word? (run Char.isAlpha c rest).1 with
          | none => none
          | some e => (tokens? behind).map (.scalar e :: ·)
termination_by cs.length
decreasing_by all_goals simp only [List.length_cons]; omega

/-! ## Events -/

/-- A sequence or a map that is not finished, with what it holds so far, the latest first. -/
inductive Frame where
  | array (items : List Event)
  /-- `key` belongs to the event that comes next. -/
  | object (entries : List (String × Event)) (key : String)
  deriving Repr, Inhabited

/-- What may come next. -/
inductive Expecting where
  | event
  /-- Behind an opening bracket: an item, or the closing bracket. -/
  | firstItem
  /-- Behind an opening brace: a key, or the closing brace. -/
  | firstKey
  | key (entries : List (String × Event))
  | colon (entries : List (String × Event)) (key : String)
  /-- `e` is complete: what goes on or ends the frame that it stands in. -/
  | after (e : Event)
  deriving Repr, Inhabited

/-- The state behind a token, or none if the token cannot come here. -/
def step? (limit : Nat) : List Frame → Expecting → Token → Option (List Frame × Expecting)
  | frames, .event, .scalar e | frames, .firstItem, .scalar e => some (frames, .after e)
  | frames, .event, .openArray | frames, .firstItem, .openArray =>
    if frames.length < limit then some (.array [] :: frames, .firstItem) else none
  | frames, .event, .openObject | frames, .firstItem, .openObject =>
    if frames.length < limit then some (.object [] "" :: frames, .firstKey) else none
  | .array items :: frames, .firstItem, .closeArray => some (frames, .after (.seq items.reverse))
  | .object _ _ :: frames, .firstKey, .closeObject => some (frames, .after (.map []))
  | .object _ _ :: frames, .firstKey, .scalar (.string s) => some (frames, .colon [] s)
  | frames, .key entries, .scalar (.string s) => some (frames, .colon entries s)
  | frames, .colon entries key, .colon => some (.object entries key :: frames, .event)
  | .array items :: frames, .after e, .comma => some (.array (e :: items) :: frames, .event)
  | .array items :: frames, .after e, .closeArray =>
    some (frames, .after (.seq (e :: items).reverse))
  | .object entries key :: frames, .after e, .comma => some (frames, .key ((key, e) :: entries))
  | .object entries key :: frames, .after e, .closeObject =>
    some (frames, .after (.map ((key, e) :: entries).reverse))
  | _, _, _ => none

/-- Takes all tokens from a state; the event is complete when nothing is left open behind them. -/
def eventOf? (limit : Nat) : List Frame → Expecting → List Token → Option Event
  | [], .after e, [] => some e
  | _, _, [] => none
  | frames, expecting, token :: rest =>
    match step? limit frames expecting token with
    | some (frames, expecting) => eventOf? limit frames expecting rest
    | none => none

/-- Reads the events of a text that nests at most `limit` deep. -/
def eventWithin? (limit : Nat) (cs : List Char) : Option Event :=
  (tokens? cs).bind (eventOf? limit [] .event)

/-- Reads a document that nests at most `limit` deep. -/
def readWithin? (limit : Nat) (cs : List Char) : Option Value :=
  (eventWithin? limit cs).map Value.ofEvent

/-- Texts of this kind as a library, with the usual limit. -/
instance library : Library where
  compact := Event.compact
  pretty := Event.prettyAt 0
  read? := eventWithin? depthLimit

end ResidualPolicy.Json
