import ResidualPolicy.Json.Quoted

/-!
# JSON string literals

The grammar of what stands between the quotes of a literal, with the text that it stands for
(`IsContent`), and that reading accepts exactly this (`unquote_eq_some_iff`). Reading passes through
several states inside one escape; `exists_front` says what it has taken when it is between characters
again.
-/

namespace ResidualPolicy.Json

/-! ## The grammar -/

/-- The letters that may follow a backslash, each with the character that both stand for. -/
def letters : List (Char × Char) :=
  [('"', '"'), ('\\', '\\'), ('/', '/'), ('b', '\x08'), ('f', '\x0c'), ('n', '\n'), ('r', '\x0d'),
    ('t', '\t')]

/-- The number that hexadecimal digits stand for when they are written behind those of `value`. -/
def hexNumber? (value : Nat) : List Char → Option Nat
  | [] => some value
  | c :: rest => (Text.hexDigit? c).bind fun digit => hexNumber? (16 * value + digit) rest

/-- Four hexadecimal digits, and the number that they stand for. -/
def IsUnit (digits : List Char) (unit : Nat) : Prop :=
  digits.length = 4 ∧ hexNumber? 0 digits = some unit

/-- What stands between the quotes of a literal, and the text that it stands for. A number between
`0xD800` and `0xE000` is no character; two of them are one, if the first is below `0xDC00` and the
second is not. -/
inductive IsContent : List Char → List Char → Prop
  | nil : IsContent [] []
  | plain {c : Char} {literal content : List Char} : c ≠ '"' → c ≠ '\\' → 0x20 ≤ c.toNat →
      IsContent literal content → IsContent (c :: literal) (c :: content)
  | letter {letter c : Char} {literal content : List Char} : (letter, c) ∈ letters →
      IsContent literal content → IsContent ('\\' :: letter :: literal) (c :: content)
  | unit {digits literal content : List Char} {unit : Nat} : IsUnit digits unit →
      unit < 0xD800 ∨ 0xE000 ≤ unit → IsContent literal content →
      IsContent ('\\' :: 'u' :: (digits ++ literal)) (Char.ofNat unit :: content)
  | pair {digits more literal content : List Char} {high low : Nat} : IsUnit digits high →
      0xD800 ≤ high → high < 0xDC00 → IsUnit more low → 0xDC00 ≤ low → low < 0xE000 →
      IsContent literal content →
      IsContent ('\\' :: 'u' :: (digits ++ '\\' :: 'u' :: (more ++ literal)))
        (Char.ofNat (0x10000 + (high - 0xD800) * 0x400 + (low - 0xDC00)) :: content)

/-! ## Escapes -/

theorem unescape?_eq_some_iff {letter c : Char} :
    unescape? letter = some c ↔ (letter, c) ∈ letters := by
  constructor
  · intro h
    unfold unescape? at h
    split at h
    · next quoted =>
      cases h
      rcases quoted with rfl | rfl | rfl <;> decide
    · repeat' split at h
      all_goals first
        | (cases h; subst_vars; decide)
        | exact nomatch h
  · intro member
    simp only [letters, List.mem_cons, Prod.mk.injEq, List.not_mem_nil, or_false] at member
    rcases member with ⟨rfl, rfl⟩ | ⟨rfl, rfl⟩ | ⟨rfl, rfl⟩ | ⟨rfl, rfl⟩ | ⟨rfl, rfl⟩ | ⟨rfl, rfl⟩ |
      ⟨rfl, rfl⟩ | ⟨rfl, rfl⟩ <;> rfl

theorem ne_u_of_mem_letters {letter c : Char} (member : (letter, c) ∈ letters) : letter ≠ 'u' := by
  rintro rfl
  exact nomatch unescape?_eq_some_iff.mpr member

theorem isHighSurrogate_iff {unit : Nat} :
    isHighSurrogate unit = true ↔ 0xD800 ≤ unit ∧ unit < 0xDC00 := by
  rw [isHighSurrogate, Bool.and_eq_true, decide_eq_true_eq, decide_eq_true_eq]

theorem isLowSurrogate_iff {unit : Nat} :
    isLowSurrogate unit = true ↔ 0xDC00 ≤ unit ∧ unit < 0xE000 := by
  rw [isLowSurrogate, Bool.and_eq_true, decide_eq_true_eq, decide_eq_true_eq]

/-- A single number is a character, the first half of one, or nothing. -/
theorem ofEscape_none (unit : Nat) :
    ((unit < 0xD800 ∨ 0xE000 ≤ unit) ∧ Unit16.ofEscape none unit = .character (Char.ofNat unit)) ∨
      ((0xD800 ≤ unit ∧ unit < 0xDC00) ∧ Unit16.ofEscape none unit = .highSurrogate unit) ∨
      ((0xDC00 ≤ unit ∧ unit < 0xE000) ∧ Unit16.ofEscape none unit = .misplaced) := by
  rw [← isHighSurrogate_iff, ← isLowSurrogate_iff, Unit16.ofEscape]
  by_cases high : isHighSurrogate unit = true
  · exact .inr (.inl ⟨high, if_pos high⟩)
  · by_cases low : isLowSurrogate unit = true
    · exact .inr (.inr ⟨low, by rw [if_neg high, if_pos low]⟩)
    · refine .inl ⟨?_, by rw [if_neg high, if_neg low]⟩
      rw [isHighSurrogate_iff] at high
      rw [isLowSurrogate_iff] at low
      omega

/-- Behind the first half of a character comes the second half or nothing. -/
theorem ofEscape_some (high low : Nat) :
    ((0xDC00 ≤ low ∧ low < 0xE000) ∧ Unit16.ofEscape (some high) low =
        .character (Char.ofNat (0x10000 + (high - 0xD800) * 0x400 + (low - 0xDC00)))) ∨
      (¬(0xDC00 ≤ low ∧ low < 0xE000) ∧ Unit16.ofEscape (some high) low = .misplaced) := by
  rw [← isLowSurrogate_iff, Unit16.ofEscape]
  by_cases second : isLowSurrogate low = true
  · exact .inl ⟨second, if_pos second⟩
  · exact .inr ⟨second, if_neg second⟩

/-- What a complete `\u` escape does to the rest of the literal. -/
def afterUnit (high : Option Nat) (unit : Nat) (cs : List Char) : Option (List Char × List Char) :=
  match Unit16.ofEscape high unit with
  | .character c => prepend c (unescapeFrom .plain cs)
  | .highSurrogate unit => unescapeFrom (.half unit) cs
  | .misplaced => none

theorem unescapeFrom_digits (high : Option Nat) {digits : List Char} {left value unit : Nat}
    (count : digits.length = left + 1) (number : hexNumber? value digits = some unit)
    (cs : List Char) :
    unescapeFrom (.hex high (left + 1) value) (digits ++ cs) = afterUnit high unit cs := by
  induction left generalizing digits value with
  | zero =>
    obtain ⟨c, rfl⟩ := List.length_eq_one_iff.mp count
    obtain ⟨digit, known, last⟩ := Option.bind_eq_some_iff.mp number
    cases last
    rw [List.singleton_append, unescapeFrom, known]
    rfl
  | succ left ih =>
    obtain ⟨c, rest, rfl⟩ := List.exists_cons_of_length_eq_add_one count
    obtain ⟨digit, known, later⟩ := Option.bind_eq_some_iff.mp number
    have more : 1 < left + 1 + 1 := by omega
    rw [List.cons_append, unescapeFrom, known]
    dsimp only
    rw [if_pos more, Nat.add_sub_cancel, ih (Nat.succ.inj count) later]

theorem exists_digits {high : Option Nat} {left value : Nat} {cs : List Char}
    {read : List Char × List Char} (h : unescapeFrom (.hex high (left + 1) value) cs = some read) :
    ∃ digits unit rest, cs = digits ++ rest ∧ digits.length = left + 1 ∧
      hexNumber? value digits = some unit := by
  induction left generalizing cs value with
  | zero =>
    cases cs with
    | nil => cases h
    | cons c rest =>
      cases known : Text.hexDigit? c with
      | none => rw [unescapeFrom, known] at h; cases h
      | some digit => exact ⟨[c], 16 * value + digit, rest, rfl, rfl, by rw [hexNumber?, known]; rfl⟩
  | succ left ih =>
    cases cs with
    | nil => cases h
    | cons c rest =>
      cases known : Text.hexDigit? c with
      | none => rw [unescapeFrom, known] at h; cases h
      | some digit =>
        have more : 1 < left + 1 + 1 := by omega
        rw [unescapeFrom, known] at h
        dsimp only at h
        rw [if_pos more, Nat.add_sub_cancel] at h
        obtain ⟨digits, unit, behind, rfl, count, number⟩ := ih h
        exact ⟨c :: digits, unit, behind, rfl, congrArg (· + 1) count,
          by rw [hexNumber?, known]; exact number⟩

theorem unescapeFrom_unit (high : Option Nat) {digits : List Char} {unit : Nat}
    (isUnit : IsUnit digits unit) (cs : List Char) :
    unescapeFrom (.hex high 4 0) (digits ++ cs) = afterUnit high unit cs :=
  unescapeFrom_digits high isUnit.1 isUnit.2 cs

theorem exists_unit {high : Option Nat} {cs : List Char} {read : List Char × List Char}
    (h : unescapeFrom (.hex high 4 0) cs = some read) :
    ∃ digits unit rest, cs = digits ++ rest ∧ IsUnit digits unit ∧
      afterUnit high unit rest = some read := by
  obtain ⟨digits, unit, rest, rfl, isUnit⟩ := exists_digits h
  exact ⟨digits, unit, rest, rfl, isUnit, unescapeFrom_unit high isUnit rest ▸ h⟩

theorem exists_half {high : Nat} {cs : List Char} {read : List Char × List Char}
    (h : unescapeFrom (.half high) cs = some read) :
    ∃ digits unit rest, cs = '\\' :: 'u' :: (digits ++ rest) ∧ IsUnit digits unit ∧
      afterUnit (some high) unit rest = some read := by
  cases cs with
  | nil => cases h
  | cons c cs =>
    rw [unescapeFrom] at h
    split at h
    · next backslash =>
      subst backslash
      cases cs with
      | nil => cases h
      | cons c cs =>
        rw [unescapeFrom] at h
        split at h
        · next hex =>
          subst hex
          obtain ⟨digits, unit, rest, rfl, isUnit, after⟩ := exists_unit h
          exact ⟨digits, unit, rest, rfl, isUnit, after⟩
        · cases h
    · cases h

/-! ## Reading accepts the grammar -/

theorem prepend_eq_some_iff {c : Char} {read : Option (List Char × List Char)}
    {content rest : List Char} :
    prepend c read = some (content, rest) ↔ ∃ later, content = c :: later ∧ read = some (later, rest) := by
  rw [prepend, Option.map_eq_some_iff]
  constructor
  · rintro ⟨⟨later, behind⟩, rfl, same⟩
    cases same
    exact ⟨later, rfl, rfl⟩
  · rintro ⟨later, rfl, rfl⟩
    exact ⟨(later, rest), rfl, rfl⟩

/-- A backslash and a `u` begin an escape of four digits. -/
theorem unescapeFrom_backslash_u (cs : List Char) :
    unescapeFrom .plain ('\\' :: 'u' :: cs) = unescapeFrom (.hex none 4 0) cs := rfl

theorem IsContent.unescapeFrom {literal content : List Char} (h : IsContent literal content)
    (rest : List Char) : unescapeFrom .plain (literal ++ '"' :: rest) = some (content, rest) := by
  induction h with
  | nil => rfl
  | @plain c literal content notQuote notBackslash printable _ ih =>
    rw [List.cons_append, Json.unescapeFrom, if_neg notQuote, if_neg notBackslash,
      if_neg (Nat.not_lt.mpr printable), ih]
    rfl
  | @letter letter c literal content member _ ih =>
    have known := unescape?_eq_some_iff.mpr member
    have backslash (cs : List Char) :
        Json.unescapeFrom .plain ('\\' :: cs) = Json.unescapeFrom .escaped cs := rfl
    rw [List.cons_append, List.cons_append, backslash, Json.unescapeFrom,
      if_neg (ne_u_of_mem_letters member), known]
    dsimp only
    rw [ih]
    rfl
  | @unit digits literal content unit isUnit outside _ ih =>
    have single : Unit16.ofEscape none unit = .character (Char.ofNat unit) := by
      rcases ofEscape_none unit with ⟨-, single⟩ | ⟨_, _⟩ | ⟨_, _⟩
      · exact single
      all_goals omega
    rw [List.cons_append, List.cons_append, List.append_assoc, unescapeFrom_backslash_u,
      unescapeFrom_unit none isUnit, afterUnit, single]
    dsimp only
    rw [ih]
    rfl
  | @pair digits more literal content high low isHigh fromHigh toHigh isLow fromLow toLow _ ih =>
    have first : Unit16.ofEscape none high = .highSurrogate high := by
      rcases ofEscape_none high with ⟨_, _⟩ | ⟨-, first⟩ | ⟨_, _⟩
      · omega
      · exact first
      · omega
    have second : Unit16.ofEscape (some high) low =
        .character (Char.ofNat (0x10000 + (high - 0xD800) * 0x400 + (low - 0xDC00))) :=
      (ofEscape_some high low).elim And.right fun none => absurd ⟨fromLow, toLow⟩ none.1
    have again (cs : List Char) : Json.unescapeFrom (.half high) ('\\' :: 'u' :: cs) =
        Json.unescapeFrom (.hex (some high) 4 0) cs := rfl
    rw [List.cons_append, List.cons_append, List.append_assoc, List.cons_append, List.cons_append,
      List.append_assoc, unescapeFrom_backslash_u, unescapeFrom_unit none isHigh, afterUnit, first]
    dsimp only
    rw [again, unescapeFrom_unit (some high) isLow, afterUnit, second]
    dsimp only
    rw [ih]
    rfl

/-- In a literal the characters stand for `c`. -/
def Writes (cs : List Char) (c : Char) : Prop :=
  ∀ literal content, IsContent literal content → IsContent (cs ++ literal) (c :: content)

theorem exists_escape {cs content rest : List Char}
    (h : unescapeFrom .escaped cs = some (content, rest)) :
    ∃ c escape later, cs = escape ++ later ∧ Writes ('\\' :: escape) c ∧
      prepend c (unescapeFrom .plain later) = some (content, rest) := by
  cases cs with
  | nil => cases h
  | cons letter cs =>
    rw [unescapeFrom] at h
    split at h
    · next hex =>
      subst hex
      obtain ⟨digits, unit, behind, rfl, isUnit, after⟩ := exists_unit h
      rw [afterUnit] at after
      rcases ofEscape_none unit with ⟨outside, single⟩ | ⟨⟨low, high⟩, first⟩ | ⟨-, misplaced⟩
      · rw [single] at after
        exact ⟨_, 'u' :: digits, behind, rfl, fun _ _ => .unit isUnit outside, after⟩
      · rw [first] at after
        obtain ⟨more, lower, later, rfl, isLower, read⟩ := exists_half after
        rw [afterUnit] at read
        rcases ofEscape_some unit lower with ⟨⟨fromLow, toLow⟩, second⟩ | ⟨-, misplaced⟩
        · rw [second] at read
          refine ⟨_, 'u' :: (digits ++ '\\' :: 'u' :: more), later, by simp, fun _ _ later => ?_, read⟩
          simpa using IsContent.pair isUnit low high isLower fromLow toLow later
        · rw [misplaced] at read
          cases read
      · rw [misplaced] at after
        cases after
    · split at h
      · next c known =>
        exact ⟨c, [letter], cs, rfl, fun _ _ => .letter (unescape?_eq_some_iff.mp known), h⟩
      · cases h

/-- A literal that is read ends at once or goes on with what stands for one character. -/
theorem exists_front {cs content rest : List Char}
    (h : unescapeFrom .plain cs = some (content, rest)) :
    (cs = '"' :: rest ∧ content = []) ∨ ∃ c front later, cs = front ++ later ∧ front ≠ [] ∧
      Writes front c ∧ prepend c (unescapeFrom .plain later) = some (content, rest) := by
  cases cs with
  | nil => cases h
  | cons c cs =>
    rw [unescapeFrom] at h
    split at h
    · next quote =>
      cases h
      exact .inl ⟨congrArg (· :: rest) quote, rfl⟩
    next notQuote =>
    split at h
    · next backslash =>
      obtain ⟨d, escape, later, rfl, writes, read⟩ := exists_escape h
      exact .inr ⟨d, c :: escape, later, rfl, List.cons_ne_nil _ _, backslash ▸ writes, read⟩
    next notBackslash =>
    split at h
    · cases h
    next printable =>
    exact .inr ⟨c, [c], cs, rfl, List.cons_ne_nil _ _,
      fun _ _ => .plain notQuote notBackslash (Nat.not_lt.mp printable), h⟩

theorem exists_isContent {cs content rest : List Char}
    (h : unescapeFrom .plain cs = some (content, rest)) :
    ∃ literal, cs = literal ++ '"' :: rest ∧ IsContent literal content := by
  generalize size : cs.length = n
  induction n using Nat.strongRecOn generalizing cs content with
  | ind n ih =>
    rcases exists_front h with ⟨rfl, rfl⟩ | ⟨c, front, later, rfl, occupied, writes, read⟩
    · exact ⟨[], rfl, .nil⟩
    · obtain ⟨more, rfl, behind⟩ := prepend_eq_some_iff.mp read
      have shorter : later.length < n := by
        have some := List.length_pos_iff.mpr occupied
        rw [← size, List.length_append]
        omega
      obtain ⟨literal, rfl, isContent⟩ := ih later.length shorter behind rfl
      exact ⟨front ++ literal, (List.append_assoc ..).symm, writes literal more isContent⟩

/-- A text between quotes is read as a literal exactly if it is one. -/
theorem unquote_eq_some_iff {literal content : List Char} :
    unquote ('"' :: (literal ++ ['"'])) = some (content, []) ↔ IsContent literal content := by
  have opened : unquote ('"' :: (literal ++ ['"'])) = unescapeFrom .plain (literal ++ ['"']) := rfl
  rw [opened]
  constructor
  · intro h
    obtain ⟨literal', same, isContent⟩ := exists_isContent h
    rwa [List.append_cancel_right same]
  · exact fun h => h.unescapeFrom []

end ResidualPolicy.Json
