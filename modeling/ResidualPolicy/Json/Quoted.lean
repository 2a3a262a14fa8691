import ResidualPolicy.Text.Hexadecimal

/-!
# JSON literals

`quote` writes a text between double quotes and `unquote` reads such a literal. Writing escapes as
little as JSON allows: the quote, the backslash and the characters below U+0020, five of which have a
letter of their own. Reading accepts every escape of JSON; two `\u` escapes may form one character.
-/

namespace ResidualPolicy.Json

/-- Text of a truth value. -/
def boolText (b : Bool) : List Char :=
  if b then "true".toList else "false".toList

/-! ## Writing -/

/-- The letter that stands for a control character after a backslash. -/
def controlLetter? (c : Char) : Option Char :=
  if c = '\x08' then some 'b'
  else if c = '\t' then some 't'
  else if c = '\n' then some 'n'
  else if c = '\x0c' then some 'f'
  else if c = '\r' then some 'r'
  else none

/-- One character of a string literal. -/
def escape (c : Char) : List Char :=
  if c = '"' ∨ c = '\\' then ['\\', c]
  else if c.toNat < 0x20 then
    match controlLetter? c with
    | some letter => ['\\', letter]
    | none => ['\\', 'u', '0', '0', Nat.digitChar (c.toNat / 16), Nat.digitChar (c.toNat % 16)]
  else [c]

/-- The characters of a literal between its quotes. -/
def escapeAll (cs : List Char) : List Char :=
  cs.flatMap escape

/-- A text as a string literal. -/
def quote (cs : List Char) : List Char :=
  '"' :: (escapeAll cs ++ ['"'])

/-! ## Reading -/

/-- The character that a letter after a backslash stands for; `u` is not among them. -/
def unescape? (letter : Char) : Option Char :=
  if letter = '"' ∨ letter = '\\' ∨ letter = '/' then some letter
  else if letter = 'b' then some '\x08'
  else if letter = 't' then some '\t'
  else if letter = 'n' then some '\n'
  else if letter = 'f' then some '\x0c'
  else if letter = 'r' then some '\r'
  else none

/-- Where the reading of a literal stands. -/
inductive Reading where
  /-- Between characters. -/
  | plain
  /-- Behind a backslash. -/
  | escaped
  /-- Inside the four digits of `\u`, of which `left` are still missing; `high` is the surrogate of
  the escape before. -/
  | hex (high : Option Nat) (left : Nat) (value : Nat)
  /-- Behind a high surrogate, which needs a second escape. -/
  | half (high : Nat)
  /-- Behind a high surrogate and a backslash. -/
  | halfEscaped (high : Nat)
  deriving DecidableEq, Repr

/-- What a complete `\u` escape gives. -/
inductive Unit16 where
  | character (c : Char)
  | highSurrogate (value : Nat)
  | misplaced
  deriving DecidableEq, Repr

/-- Whether a 16-bit unit is the first half of a pair. -/
def isHighSurrogate (unit : Nat) : Bool :=
  0xD800 ≤ unit && unit < 0xDC00

/-- Whether a 16-bit unit is the second half of a pair. -/
def isLowSurrogate (unit : Nat) : Bool :=
  0xDC00 ≤ unit && unit < 0xE000

/-- Takes a 16-bit unit behind an optional high surrogate. -/
def Unit16.ofEscape (high : Option Nat) (unit : Nat) : Unit16 :=
  match high with
  | some high =>
    if isLowSurrogate unit then
      .character (Char.ofNat (0x10000 + (high - 0xD800) * 0x400 + (unit - 0xDC00)))
    else .misplaced
  | none =>
    if isHighSurrogate unit then .highSurrogate unit
    else if isLowSurrogate unit then .misplaced
    else .character (Char.ofNat unit)

/-- Adds a character in front of what was read behind it. -/
def prepend (c : Char) (read : Option (List Char × List Char)) : Option (List Char × List Char) :=
  read.map fun (content, rest) => (c :: content, rest)

/-- Reads on to the closing quote; gives the content and what follows the quote. -/
def unescapeFrom : Reading → List Char → Option (List Char × List Char)
  | _, [] => none
  | .plain, c :: rest =>
    if c = '"' then some ([], rest)
    else if c = '\\' then unescapeFrom .escaped rest
    else if c.toNat < 0x20 then none
    else prepend c (unescapeFrom .plain rest)
  | .escaped, c :: rest =>
    if c = 'u' then unescapeFrom (.hex none 4 0) rest
    else
      match unescape? c with
      | some d => prepend d (unescapeFrom .plain rest)
      | none => none
  | .hex high left value, c :: rest =>
    match Text.hexDigit? c with
    | none => none
    | some digit =>
      let value := 16 * value + digit
      if 1 < left then unescapeFrom (.hex high (left - 1) value) rest
      else
        match Unit16.ofEscape high value with
        | .character d => prepend d (unescapeFrom .plain rest)
        | .highSurrogate unit => unescapeFrom (.half unit) rest
        | .misplaced => none
  | .half high, c :: rest => if c = '\\' then unescapeFrom (.halfEscaped high) rest else none
  | .halfEscaped high, c :: rest =>
    if c = 'u' then unescapeFrom (.hex (some high) 4 0) rest else none

/-- Reads a whole literal, quotes included; gives the text and what follows. -/
def unquote : List Char → Option (List Char × List Char)
  | [] => none
  | c :: rest => if c = '"' then unescapeFrom .plain rest else none

/-! ## Reading undoes writing -/

/-- The letter of a control character is read as that character. -/
theorem unescape?_controlLetter {c letter : Char} (h : controlLetter? c = some letter) :
    unescape? letter = some c ∧ letter ≠ 'u' := by
  unfold controlLetter? at h
  repeat' split at h
  all_goals first
    | (simp only [Option.some.injEq] at h; subst_vars; exact ⟨rfl, by decide⟩)
    | simp at h

/-- The two digits of a control character without a letter give it back. -/
theorem unescapeFrom_hex {c : Char} (control : c.toNat < 0x20) (rest : List Char) :
    unescapeFrom (.hex none 4 0)
        ('0' :: '0' :: Nat.digitChar (c.toNat / 16) :: Nat.digitChar (c.toNat % 16) :: rest) =
      prepend c (unescapeFrom .plain rest) := by
  have zero : Text.hexDigit? '0' = some 0 := rfl
  have upper := Text.hexDigit?_digitChar (c.toNat / 16) (by omega)
  have lower := Text.hexDigit?_digitChar (c.toNat % 16) (by omega)
  have value : 16 * (c.toNat / 16) + c.toNat % 16 = c.toNat := by omega
  have unit : Unit16.ofEscape none c.toNat = .character c := by
    have notHigh : isHighSurrogate c.toNat = false := by
      simp only [isHighSurrogate, Bool.and_eq_false_iff, decide_eq_false_iff_not]; omega
    have notLow : isLowSurrogate c.toNat = false := by
      simp only [isLowSurrogate, Bool.and_eq_false_iff, decide_eq_false_iff_not]; omega
    simp [Unit16.ofEscape, notHigh, notLow]
  simp [unescapeFrom, zero, upper, lower, value, unit]

theorem unescapeFrom_escape (c : Char) (rest : List Char) :
    unescapeFrom .plain (escape c ++ rest) = prepend c (unescapeFrom .plain rest) := by
  by_cases quoted : c = '"' ∨ c = '\\'
  · rcases quoted with rfl | rfl <;> simp [escape, unescapeFrom, unescape?]
  · have notQuote : c ≠ '"' := fun h => quoted (.inl h)
    have notBackslash : c ≠ '\\' := fun h => quoted (.inr h)
    by_cases control : c.toNat < 0x20
    · cases letter : controlLetter? c with
      | some l =>
        obtain ⟨back, notHex⟩ := unescape?_controlLetter letter
        simp [escape, quoted, control, letter, unescapeFrom, back, notHex]
      | none =>
        rw [← unescapeFrom_hex control rest]
        simp [escape, quoted, control, letter, unescapeFrom]
    · simp [escape, unescapeFrom, notQuote, notBackslash, control]

theorem unescapeFrom_escapeAll (cs rest : List Char) :
    unescapeFrom .plain (escapeAll cs ++ '"' :: rest) = some (cs, rest) := by
  induction cs with
  | nil => simp [escapeAll, unescapeFrom]
  | cons c cs ih =>
    have split : escapeAll (c :: cs) ++ '"' :: rest = escape c ++ (escapeAll cs ++ '"' :: rest) := by
      simp [escapeAll]
    rw [split, unescapeFrom_escape, ih]
    rfl

/-- A literal reads back as the text that it was written from, whatever follows it. -/
theorem unquote_quote (cs rest : List Char) : unquote (quote cs ++ rest) = some (cs, rest) := by
  simp [unquote, quote, unescapeFrom_escapeAll]

/-- What is read from a literal leaves less text than there was. -/
theorem length_of_unescapeFrom (state : Reading) (cs : List Char) {content rest : List Char}
    (h : unescapeFrom state cs = some (content, rest)) : rest.length < cs.length := by
  induction cs generalizing state content with
  | nil => simp [unescapeFrom] at h
  | cons c cs ih =>
    have step : ∀ {state' : Reading} {content' : List Char},
        unescapeFrom state' cs = some (content', rest) → rest.length < (c :: cs).length :=
      fun h => Nat.lt_succ_of_lt (ih _ h)
    have front : ∀ {state' : Reading} {d : Char},
        prepend d (unescapeFrom state' cs) = some (content, rest) →
          rest.length < (c :: cs).length := by
      intro state' d h
      obtain ⟨⟨content', rest'⟩, found, same⟩ := Option.map_eq_some_iff.mp h
      simp only [Prod.mk.injEq] at same
      exact step (same.2 ▸ found)
    cases state with
    | plain =>
      simp only [unescapeFrom] at h
      split at h
      · simp only [Option.some.injEq, Prod.mk.injEq] at h
        simp [h.2]
      · split at h
        · exact step h
        · split at h
          · simp at h
          · exact front h
    | escaped =>
      simp only [unescapeFrom] at h
      split at h
      · exact step h
      · split at h
        · exact front h
        · simp at h
    | hex high left value =>
      simp only [unescapeFrom] at h
      split at h
      · simp at h
      · split at h
        · exact step h
        · split at h
          · exact front h
          · exact step h
          · simp at h
    | half high =>
      simp only [unescapeFrom] at h
      split at h
      · exact step h
      · simp at h
    | halfEscaped high =>
      simp only [unescapeFrom] at h
      split at h
      · exact step h
      · simp at h

end ResidualPolicy.Json
