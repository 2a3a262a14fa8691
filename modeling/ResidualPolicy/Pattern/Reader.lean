import ResidualPolicy.Operator.PatternEngine
import ResidualPolicy.Pattern.Bracket
import ResidualPolicy.Pattern.Size

/-!
# Reading patterns

A pattern is read from left to right. The groups that are open are kept on a stack, each with the
alternatives and items read so far and with the flags that hold again behind the group.
-/

namespace ResidualPolicy.Pattern

/-- Why a text is no pattern. -/
inductive Fault where
  | malformed
  /-- The size of the pattern is greater than `sizeLimit`. -/
  | tooLarge
  deriving DecidableEq, Repr

/-- The greatest depth of a pattern. -/
def depthLimit : Nat := 250

/-- The largest count of a repetition. -/
def countLimit : Nat := 4294967295

/-! ## State -/

/-- The part of a group that has been read. -/
structure Level where
  /-- Alternatives that are complete, newest first. -/
  alternatives : List (Nested Pattern)
  /-- Items of the alternative being read, newest first. A change of flags counts as an item, so that
  it can not be repeated. -/
  items : List (Nested (Option Pattern))
  deriving Repr

/-- A group of which nothing has been read. -/
def Level.start : Level :=
  ⟨[], []⟩

/-- Takes a further item. -/
def Level.take (level : Level) (p : Nested Pattern) : Level :=
  { level with items := ⟨some p.value, p.depth⟩ :: level.items }

/-- The alternative being read. -/
def Level.alternative (level : Level) : Nested Pattern :=
  .join (fun items => sequenceOf (items.filterMap id)) level.items.reverse

/-- Goes on with a further alternative. -/
def Level.alternate (level : Level) : Level :=
  ⟨level.alternative :: level.alternatives, []⟩

/-- The pattern of a group that has been read to its end. -/
def Level.pattern (level : Level) : Nested Pattern :=
  .join eitherOf level.alternate.alternatives.reverse

/-- Repeats the item read last. -/
def Level.repeatLast? (level : Level) (least : Nat) (most : Option Nat) : Option Level :=
  match level.items with
  | ⟨some p, depth⟩ :: items =>
    some { level with items := ⟨some (.repeated least most p), depth + 1⟩ :: items }
  | _ => none

/-- A group around the place of reading. -/
structure Enclosing where
  /-- What has been read of it before the group inside. -/
  level : Level
  /-- The flags that hold in it. -/
  flags : Flags
  /-- Whether the place of the group inside is kept. -/
  keepsInner : Bool
  deriving Repr

/-- Reading, at some place of the text. -/
structure Reading where
  level : Level
  /-- The groups around, innermost first. -/
  outer : List Enclosing
  flags : Flags
  /-- Names of groups, which must differ. -/
  names : List (List Char)
  deriving Repr

/-- Reading before anything has been read. -/
def Reading.start : Reading :=
  ⟨.start, [], {}, []⟩

/-- Takes a further item. -/
def Reading.take (reading : Reading) (p : Nested Pattern) : Reading :=
  { reading with level := reading.level.take p }

/-- Opens a group, whose place is kept or not. -/
def Reading.enter (reading : Reading) (keeps : Bool) (flags : Flags) : Reading :=
  { reading with
    level := .start
    outer := ⟨reading.level, reading.flags, keeps⟩ :: reading.outer
    flags := flags }

/-- Changes the flags inside a group. -/
def Reading.change (reading : Reading) (flags : Flags) : Reading :=
  { reading with
    level := { reading.level with items := .flat none :: reading.level.items }
    flags := flags }

/-- Closes a group. -/
def Reading.leave? (reading : Reading) : Option Reading :=
  match reading.outer with
  | [] => none
  | around :: outer =>
    let body := reading.level.pattern.around fun p => if around.keepsInner then .group p else p
    some { reading with level := around.level.take body, outer := outer, flags := around.flags }

/-! ## Groups -/

/-- Whether a character may stand in the name of a group. -/
def isNameChar (first : Bool) (c : Char) : Bool :=
  c == '_' || Text.isAlphabetic c ||
    (!first && (c == '.' || c == '[' || c == ']' || Text.isNumeric c))

/-- Whether a text may be the name of a group. -/
def isGroupName : List Char → Bool
  | [] => false
  | c :: rest => isNameChar true c && rest.all (isNameChar false)

/-- Opens a group with a name, of which nothing has been read. -/
def Reading.named? (reading : Reading) (cs : List Char) : Option (Reading × List Char) :=
  let (name, rest) := cs.span (· != '>')
  match rest with
  | [] => none
  | _ :: rest =>
    if isGroupName name && !reading.names.contains name then
      some ({ reading with names := name :: reading.names }.enter true reading.flags, rest)
    else none

/-- Reads what follows the parenthesis that opens a group. Assertions that look around are not part of
patterns. -/
def Reading.group? (reading : Reading) (cs : List Char) : Option (Reading × List Char) :=
  match reading.flags.skip cs with
  | '?' :: '=' :: _ | '?' :: '!' :: _ => none
  | '?' :: '<' :: '=' :: _ | '?' :: '<' :: '!' :: _ => none
  | '?' :: 'P' :: '<' :: rest => reading.named? rest
  | '?' :: '<' :: rest => reading.named? rest
  | '?' :: rest =>
    match flagListFrom reading.flags [] rest with
    | none => none
    | some (list, rest) =>
      if list.ending == ':' then some (reading.enter false list.flags, rest)
      else if list.isEmpty then none
      else some (reading.change list.flags, rest)
  | rest => some (reading.enter true reading.flags, rest)

/-! ## Repetitions -/

/-- Reads on in a row of decimal digits, skipping what has no meaning under the flags behind each of
them. -/
def Flags.digitsFrom (flags : Flags) (count : Option Nat) : List Char → Option Nat × List Char
  | [] => (count, [])
  | c :: rest =>
    if c.isDigit then
      flags.digitsFrom (some (10 * count.getD 0 + (c.toNat - '0'.toNat))) (flags.skip rest)
    else (count, c :: rest)
termination_by cs => cs.length
decreasing_by exact Nat.lt_succ_of_le (flags.length_skip_le rest)

/-- Reads a count with blanks around it. -/
def Flags.count? (flags : Flags) (cs : List Char) : Option (Nat × List Char) :=
  match flags.digitsFrom none (cs.dropWhile Text.isBlank) with
  | (some count, rest) =>
    if count ≤ countLimit then some (count, rest.dropWhile Text.isBlank) else none
  | (none, _) => none

/-- Reads the bounds of a repetition and the brace behind them. -/
def Flags.bounds? (flags : Flags) (cs : List Char) : Option ((Nat × Option Nat) × List Char) := do
  let (least, rest) ← flags.count? (flags.skip cs)
  match rest with
  | '\x7d' :: rest => some ((least, some least), rest)
  | ',' :: rest =>
    match flags.skip rest with
    | '\x7d' :: rest => some ((least, none), rest)
    | rest =>
      match flags.count? rest with
      | some (most, '\x7d' :: rest) =>
        if least ≤ most then some ((least, some most), rest) else none
      | _ => none
  | _ => none

/-- Skips the sign of a lazy repetition. -/
def skipLazy : List Char → List Char
  | '?' :: rest => rest
  | cs => cs

/-- Repeats the item read last. -/
def Reading.repeat? (reading : Reading) (least : Nat) (most : Option Nat) : Option Reading :=
  (reading.level.repeatLast? least most).map fun level => { reading with level := level }

/-- Reads what follows the brace that begins a repetition. -/
def Reading.counted? (reading : Reading) (cs : List Char) : Option (Reading × List Char) := do
  let ((least, most), rest) ← reading.flags.bounds? cs
  let reading ← reading.repeat? least most
  some (reading, skipLazy (reading.flags.skip rest))

/-! ## Items -/

/-- The pattern of a character. -/
def Flags.literal (flags : Flags) (c : Char) : Pattern :=
  .chars (.foldedIf flags.ignoreCase (.single c))

/-- The pattern of an escape. -/
def Flags.escape (flags : Flags) : Escape → Pattern
  | .char c => flags.literal c
  | .set s => .chars s
  | .assertion a => .assertion a

/-- The set of the dot. -/
def Flags.dot (flags : Flags) : CharSet :=
  if flags.dotAll then .named .any
  else if flags.carriage then .notLineBreak
  else .notLineFeed

/-- The assertion of `^`. -/
def Flags.start (flags : Flags) : Assertion :=
  if !flags.multiLine then .textStart
  else if flags.carriage then .carriageLineStart
  else .lineStart

/-- The assertion of `$`. -/
def Flags.stop (flags : Flags) : Assertion :=
  if !flags.multiLine then .textEnd
  else if flags.carriage then .carriageLineEnd
  else .lineEnd

/-- The pattern of a single character outside brackets. -/
def Flags.atom (flags : Flags) : Char → Pattern
  | '.' => .chars flags.dot
  | '^' => .assertion flags.start
  | '$' => .assertion flags.stop
  | c => flags.literal c

/-- One step at a character. -/
def Reading.step? (reading : Reading) : Char → List Char → Option (Reading × List Char)
  | '(', rest => reading.group? rest
  | ')', rest => reading.leave?.map fun reading => (reading, rest)
  | '|', rest => some ({ reading with level := reading.level.alternate }, rest)
  | '?', rest => (reading.repeat? 0 (some 1)).map fun reading => (reading, skipLazy rest)
  | '*', rest => (reading.repeat? 0 none).map fun reading => (reading, skipLazy rest)
  | '+', rest => (reading.repeat? 1 none).map fun reading => (reading, skipLazy rest)
  | '\x7b', rest => reading.counted? rest
  | '[', rest =>
    (bracket? reading.flags rest).map fun (s, rest) => (reading.take ⟨.chars s.value, s.depth⟩, rest)
  | '\\', rest =>
    (escape? reading.flags rest).map fun (e, rest) =>
      (reading.take (.flat (reading.flags.escape e)), rest)
  | c, rest => some (reading.take (.flat (reading.flags.atom c)), rest)

/-- Reads on to the end of the text. -/
def Reading.run? (reading : Reading) (cs : List Char) : Option (Nested Pattern) :=
  match reading.flags.skip cs with
  | [] => if reading.outer.isEmpty then some reading.level.pattern else none
  | c :: behind =>
    match reading.step? c behind with
    | none => none
    | some (reading, rest) => if rest.length < cs.length then reading.run? rest else none
termination_by cs.length

/-- Reads a text as a pattern. -/
def read? (text : String) : Except Fault Pattern :=
  match Reading.start.run? text.toList with
  | none => .error .malformed
  | some p =>
    if depthLimit < p.depth then .error .malformed
    else if p.value.fits then .ok p.value
    else .error .tooLarge

/-- What is said about a fault, where it is known. -/
def Fault.account : Fault → Option String
  | .malformed => none
  | .tooLarge => some ("Compiled regex exceeds size limit of " ++ toString sizeLimit ++ " bytes.")

/-- Patterns of this kind as an engine. -/
instance engine : PatternEngine where
  Compiled := Pattern
  read text := (read? text).mapError fun fault => ⟨fault.account⟩
  occursIn := occursIn

end ResidualPolicy.Pattern
