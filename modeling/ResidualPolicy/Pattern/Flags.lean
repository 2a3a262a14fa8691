import ResidualPolicy.Text.Blank

/-!
# Flags of a pattern

Flags are set and cleared in the text of a pattern and hold to the end of the group in which they
stand. Patterns are always about characters: the flag `u` may be set but not cleared. The flag `U`
exchanges greedy and lazy repetitions, which makes no difference to whether a text matches.
-/

namespace ResidualPolicy.Pattern

/-- How the text of a pattern is to be understood at some place. -/
structure Flags where
  ignoreCase : Bool := false
  /-- `^` and `$` stand for the ends of lines. -/
  multiLine : Bool := false
  /-- `.` includes the line feed. -/
  dotAll : Bool := false
  /-- A carriage return ends a line as a line feed does, and both together end one line. -/
  carriage : Bool := false
  /-- Blanks and comments are skipped. -/
  spaced : Bool := false
  deriving DecidableEq, Repr

/-- Sets or clears the flag of a letter. -/
def Flags.assign? (flags : Flags) (letter : Char) (on : Bool) : Option Flags :=
  match letter with
  | 'i' => some { flags with ignoreCase := on }
  | 'm' => some { flags with multiLine := on }
  | 's' => some { flags with dotAll := on }
  | 'R' => some { flags with carriage := on }
  | 'x' => some { flags with spaced := on }
  | 'U' => some flags
  | 'u' => if on then some flags else none
  | _ => none

/-- A list of flags in the text of a pattern. -/
structure FlagList where
  /-- The flags as the list leaves them. -/
  flags : Flags
  isEmpty : Bool
  /-- The character that ends the list. -/
  ending : Char
  deriving Repr

/-- Reads a list of flags up to the colon or the parenthesis that ends it. Letters behind a minus sign
are cleared; neither a letter nor the sign may be repeated, and the sign may not be the last. -/
def flagListFrom (flags : Flags) (seen : List Char) : List Char → Option (FlagList × List Char)
  | [] => none
  | c :: rest =>
    if c == ':' || c == ')' then
      if seen.head? == some '-' then none else some (⟨flags, seen.isEmpty, c⟩, rest)
    else if seen.contains c then none
    else if c == '-' then flagListFrom flags (c :: seen) rest
    else (flags.assign? c (!seen.contains '-')).bind fun flags => flagListFrom flags (c :: seen) rest

/-! ## Blanks and comments -/

/-- Skips blanks, and comments from `#` to the end of the line. The first argument says whether the
text begins inside a comment. -/
def skipBlanks : Bool → List Char → List Char
  | _, [] => []
  | true, c :: rest => skipBlanks (c != '\n') rest
  | false, c :: rest =>
    if c == '#' then skipBlanks true rest
    else if Text.isBlank c then skipBlanks false rest
    else c :: rest

/-- Skips what has no meaning under the flags. -/
def Flags.skip (flags : Flags) (cs : List Char) : List Char :=
  if flags.spaced then skipBlanks false cs else cs

theorem length_skipBlanks_le (comment : Bool) (cs : List Char) :
    (skipBlanks comment cs).length ≤ cs.length := by
  fun_induction skipBlanks comment cs <;> simp_all <;> omega

theorem Flags.length_skip_le (flags : Flags) (cs : List Char) :
    (flags.skip cs).length ≤ cs.length := by
  unfold Flags.skip
  split
  · exact length_skipBlanks_le false cs
  · exact Nat.le_refl _

/-- Takes the text up to the closing brace, skipping what has no meaning under the flags behind each
character. A comment may hold a brace. -/
def Flags.braced? (flags : Flags) : List Char → Option (List Char × List Char)
  | [] => none
  | c :: rest =>
    if c == '\x7d' then some ([], rest)
    else (flags.braced? (flags.skip rest)).map fun (text, rest) => (c :: text, rest)
termination_by cs => cs.length
decreasing_by exact Nat.lt_succ_of_le (flags.length_skip_le rest)

/-- Looks at the next character that is no blank. A comment is not skipped: what is seen is the first
character in it. -/
def Flags.peek? (flags : Flags) (cs : List Char) : Option Char :=
  if flags.spaced then
    match cs.dropWhile Text.isBlank with
    | '#' :: comment => (comment.dropWhile Text.isBlank).head?
    | rest => rest.head?
  else cs.head?

end ResidualPolicy.Pattern
