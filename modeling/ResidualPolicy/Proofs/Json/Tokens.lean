import Mathlib.Data.List.Forall2
import ResidualPolicy.Json.Reader
import ResidualPolicy.Proofs.Json.Grammar
import ResidualPolicy.Proofs.Notation.Lexeme

/-!
# Tokens of JSON text

Reading splits a text that stands for an event into the tokens of the event, as a reader reports them
(`tokens?_of_spells`). What is written spells the tokens of its event, in front of anything that may stand
behind a literal (`SpellsAhead`), so that the texts of parts can be put together.
-/

namespace ResidualPolicy.Json

/-! ## Reading tokens -/

/-- A run of characters ends before what may stand behind a literal. -/
theorem run_append {inClass : Char → Bool} {c : Char} {cs rest : List Char}
    (each : ∀ d ∈ cs, inClass d = true) (apart : enders.any inClass = false) (ends : Ends rest) :
    run inClass c (cs ++ rest) = (c :: cs, rest) := by
  have stops : rest.takeWhile inClass = [] ∧ rest.dropWhile inClass = rest := by
    cases rest with
    | nil => exact ⟨rfl, rfl⟩
    | cons d rest =>
      have outside := List.any_eq_false.mp apart d (ends d rfl)
      exact ⟨List.takeWhile_cons_of_neg outside, List.dropWhile_cons_of_neg outside⟩
  rw [run, List.takeWhile_append_of_pos each, List.dropWhile_append_of_pos each, stops.1, stops.2,
    List.append_nil]

theorem tokens?_blank {c : Char} (blank : isBlank c = true) (rest : List Char) :
    tokens? (c :: rest) = tokens? rest := by
  rw [tokens?, if_pos blank]

theorem tokens?_punctuation {c : Char} {token : Token} (known : punctuation? c = some token)
    (rest : List Char) : tokens? (c :: rest) = (tokens? rest).map (token :: ·) := by
  have blank : isBlank c = false := by
    unfold punctuation? at known
    repeat' split at known
    all_goals first | (subst_vars; rfl) | exact nomatch known
  rw [tokens?, blank, if_neg Bool.false_ne_true, known]

theorem tokens?_string {literal content : List Char} (spelt : IsContent literal content)
    (rest : List Char) :
    tokens? ('"' :: (literal ++ ['"']) ++ rest) =
      (tokens? rest).map (.scalar (.string (.ofList content)) :: ·) := by
  have read : unescapeFrom .plain (literal ++ (['"'] ++ rest)) = some (content, rest) :=
    spelt.unescapeFrom rest
  have blank : isBlank '"' = false := rfl
  have symbol : punctuation? '"' = none := rfl
  rw [List.cons_append, List.append_assoc, tokens?, blank, if_neg Bool.false_ne_true, symbol]
  dsimp only
  rw [if_pos rfl]
  split
  · next failed => rw [read] at failed; cases failed
  · next found => rw [read] at found; cases found; rfl

theorem tokens?_word {c : Char} {cs rest : List Char} {e : Event} (blank : isBlank c = false)
    (symbol : punctuation? c = none) (quote : c ≠ '"') (digit : (c = '-' || c.isDigit) = false)
    (each : ∀ d ∈ cs, d.isAlpha = true) (known : word? (c :: cs) = some e) (ends : Ends rest) :
    tokens? (c :: cs ++ rest) = (tokens? rest).map (.scalar e :: ·) := by
  have apart : enders.any Char.isAlpha = false := by decide
  have word : run Char.isAlpha c (cs ++ rest) = (c :: cs, rest) := run_append each apart ends
  rw [List.cons_append, tokens?, blank, if_neg Bool.false_ne_true, symbol]
  dsimp only
  rw [if_neg quote, if_neg (Bool.eq_false_iff.mp digit), word]
  dsimp only
  rw [known]

/-! ## Integers -/

/-- Digits are absorbed up to the last one if what they stand for has 64 bits. -/
theorem absorb_of_lt {significand : Nat} {digits : List Char}
    (fits : Nat.ofDigitChars 10 digits significand < UInt64.size) :
    absorb significand digits = (Nat.ofDigitChars 10 digits significand, 0) := by
  induction digits generalizing significand with
  | nil => rfl
  | cons digit rest ih =>
    rw [Nat.ofDigitChars_cons] at fits ⊢
    have here : 10 * significand + (digit.toNat - '0'.toNat) < UInt64.size := by
      have power : 0 < 10 ^ rest.length := Nat.pow_pos (by decide)
      have grown := Nat.le_mul_of_pos_left (10 * significand + (digit.toNat - '0'.toNat)) power
      rw [Nat.ofDigitChars_eq_ofDigitChars_zero] at fits
      omega
    rw [absorb, if_pos here, ih fits]

/-- An integer is taken apart into its sign and its digits. -/
theorem literal?_intText (i : Int) :
    literal? (Double.intText i) = some ⟨decide (i < 0), Nat.toDigits 10 i.natAbs, none, none⟩ := by
  have each : ∀ c ∈ Nat.toDigits 10 i.natAbs, c.isDigit = true :=
    fun _ => Nat.isDigit_of_mem_toDigits (by decide) (by decide)
  have whole := @List.takeWhile_append_of_pos _ Char.isDigit _ [] each
  have behind := @List.dropWhile_append_of_pos _ Char.isDigit _ [] each
  rw [List.append_nil, List.takeWhile_nil, List.append_nil] at whole
  rw [List.append_nil, List.dropWhile_nil] at behind
  have leading : ((Nat.toDigits 10 i.natAbs).isEmpty ||
      (Nat.toDigits 10 i.natAbs).head? == some '0' && (Nat.toDigits 10 i.natAbs).length != 1) =
        false := by
    rw [List.isEmpty_eq_false_iff.mpr Nat.toDigits_ne_nil, Bool.false_or]
    by_cases zero : i.natAbs = 0
    · rw [zero]
      rfl
    · rw [beq_eq_false_iff_ne.mpr (Notation.toDigits_head zero), Bool.false_and]
  by_cases negative : i < 0
  · rw [Double.intText, if_pos negative, decide_eq_true negative, literal?]
    dsimp only
    rw [whole, behind, leading]
    rfl
  · rw [Double.intText, if_neg negative, decide_eq_false negative, literal?]
    · dsimp only
      rw [whole, behind, leading]
      rfl
    · intro rest signed
      have minus : '-' ∈ Nat.toDigits 10 i.natAbs := signed ▸ List.mem_cons_self
      exact absurd (each '-' minus) (by decide)

/-- The digits of an integer are read with its sign. -/
theorem number?_intText {i : Int} (fits : i.natAbs < UInt64.size) :
    (literal? (Double.intText i)).bind Literal.number? =
      some (if i < 0 then negated i.natAbs else .uint64 (.ofNat i.natAbs)) := by
  have digits := @Nat.ofDigitChars_ten_toDigits i.natAbs
  have absorbed : absorb 0 (Nat.toDigits 10 i.natAbs) = (i.natAbs, 0) := by
    rw [absorb_of_lt (digits.symm ▸ fits), digits]
  rw [literal?_intText, Option.bind_some, Literal.number?]
  dsimp only
  rw [absorbed]
  dsimp only
  rw [if_pos rfl]
  simp only [decide_eq_true_eq]

theorem number?_int64 (i : Int64) :
    (literal? (Double.intText i.toInt)).bind Literal.number? = some (Event.int64 i).asRead := by
  have low := i.minValue_le_toInt
  have high := i.toInt_le
  have fits : i.toInt.natAbs < UInt64.size := by
    simp only [Int64.toInt_minValue, Int64.toInt_maxValue] at low high
    simp only [UInt64.size]
    omega
  rw [number?_intText fits, Event.asRead]
  split
  · next negative =>
    have value : -(i.toInt.natAbs : Int) = i.toInt := by omega
    have nonzero : i.toInt.natAbs ≠ 0 := by omega
    rw [negated, if_neg nonzero, value, Number.int64?, if_pos ⟨low, high⟩, Int64.ofInt_toInt]
    rfl
  · next natural =>
    have value := toNat_toUInt64 natural
    have same : i.toInt.natAbs = i.toUInt64.toNat := by omega
    rw [same, UInt64.ofNat_toNat]

theorem number?_uint64 (n : UInt64) :
    (literal? (Double.intText n.toNat)).bind Literal.number? = some (.uint64 n) := by
  have fits : (n.toNat : Int).natAbs < UInt64.size := by
    rw [Int.natAbs_natCast]
    exact n.toNat_lt
  have natural : ¬(n.toNat : Int) < 0 := by omega
  rw [number?_intText fits, if_neg natural, Int.natAbs_natCast, UInt64.ofNat_toNat]

/-- A number begins like no other token. -/
theorem begins_number {c : Char} (begins : (c = '-' || c.isDigit) = true) :
    isBlank c = false ∧ punctuation? c = none ∧ c ≠ '"' := by
  have other (d : Char) (unlike : (d = '-' || d.isDigit) = false) : c ≠ d := by
    rintro rfl
    exact Bool.false_ne_true (unlike.symm.trans begins)
  refine ⟨?_, ?_, other '"' rfl⟩
  · simp [isBlank, other ' ' rfl, other '\t' rfl, other '\n' rfl, other '\x0d' rfl]
  · rw [punctuation?, if_neg (other '[' rfl), if_neg (other ']' rfl), if_neg (other '\x7b' rfl),
      if_neg (other '\x7d' rfl), if_neg (other ',' rfl), if_neg (other ':' rfl)]

/-- The text of an integer is a sign or a digit with more digits behind it. -/
theorem intText_cons (i : Int) :
    ∃ c cs, Double.intText i = c :: cs ∧ (c = '-' || c.isDigit) = true ∧
      ∀ d ∈ cs, d.isDigit = true := by
  have each : ∀ c ∈ Nat.toDigits 10 i.natAbs, c.isDigit = true :=
    fun _ => Nat.isDigit_of_mem_toDigits (by decide) (by decide)
  rw [Double.intText]
  split
  · exact ⟨'-', _, rfl, rfl, each⟩
  · obtain ⟨c, cs, digits, digit⟩ := Notation.toDigits_cons i.natAbs
    rw [digits] at each ⊢
    refine ⟨c, cs, rfl, ?_, fun d member => each d (List.mem_cons_of_mem c member)⟩
    rw [digit, Bool.or_true]

theorem tokens?_intText {i : Int} {e : Event} {rest : List Char}
    (known : (literal? (Double.intText i)).bind Literal.number? = some e) (ends : Ends rest) :
    tokens? (Double.intText i ++ rest) = (tokens? rest).map (.scalar e :: ·) := by
  obtain ⟨c, cs, digits, begins, each⟩ := intText_cons i
  rw [digits] at known ⊢
  have apart : enders.any isNumberPart = false := by decide
  have part (d : Char) (digit : d.isDigit = true) : isNumberPart d = true := by
    simp only [isNumberPart, digit, Bool.true_or]
  have whole : run isNumberPart c (cs ++ rest) = (c :: cs, rest) :=
    run_append (fun d member => part d (each d member)) apart ends
  obtain ⟨blank, symbol, quote⟩ := begins_number begins
  rw [List.cons_append, tokens?, blank, if_neg Bool.false_ne_true, symbol]
  dsimp only
  rw [if_neg quote, if_pos begins, whole]
  dsimp only
  rw [known]

/-! ## Reading texts -/

/-- The literal is one token. -/
theorem tokens?_literal {e : Event} {lexeme rest : List Char} (spelt : IsLiteral e lexeme)
    (ends : Ends rest) :
    tokens? (lexeme ++ rest) = (tokens? rest).map (.scalar e.asRead :: ·) := by
  cases spelt with
  | unit => exact tokens?_word rfl rfl (by decide) rfl (List.all_eq_true.mp rfl) rfl ends
  | bool b =>
    cases b <;> exact tokens?_word rfl rfl (by decide) rfl (List.all_eq_true.mp rfl) rfl ends
  | int64 i => exact tokens?_intText (number?_int64 i) ends
  | uint64 n => exact tokens?_intText (number?_uint64 n) ends
  | string content => exact tokens?_string content rest

/-- The token as a reader reports it. -/
def Token.asRead : Token → Token
  | .scalar e => .scalar e.asRead
  | token => token

theorem asRead_of_punctuation {c : Char} {token : Token} (known : punctuation? c = some token) :
    token.asRead = token := by
  unfold punctuation? at known
  repeat' split at known
  all_goals cases known <;> rfl

/-- A text is split into the tokens that it spells. -/
theorem tokens?_of_spells {cs : List Char} {ts : List Token} (spells : Spells cs ts) :
    tokens? cs = some (ts.map Token.asRead) := by
  induction spells with
  | done => rw [tokens?]; rfl
  | blank blank _ ih => rw [tokens?_blank blank, ih]
  | @punctuation c token _ _ known _ ih =>
    rw [tokens?_punctuation known, ih, List.map_cons, asRead_of_punctuation known]
    rfl
  | literal spelt ends _ ih =>
    rw [tokens?_literal spelt ends, ih]
    rfl

/-! ## Writing texts -/

/-- The text spells the tokens in front of anything that may stand behind a literal. -/
def SpellsAhead (cs : List Char) (ts : List Token) : Prop :=
  ∀ rest more, Ends rest → Spells rest more → Spells (cs ++ rest) (ts ++ more)

theorem spellsAhead_nil : SpellsAhead [] [] :=
  fun _ _ _ behind => behind

theorem spellsAhead_literal {e : Event} {lexeme : List Char} (spelt : IsLiteral e lexeme) :
    SpellsAhead lexeme [.scalar e] :=
  fun _ _ ends behind => .literal spelt ends behind

theorem isLiteral_quote (s : String) : IsLiteral (.string s) (quote s.toList) := by
  have read := unquote_quote s.toList []
  rw [List.append_nil] at read
  have literal := IsLiteral.string (unquote_eq_some_iff.mp read)
  rwa [String.ofList_toList] at literal

theorem SpellsAhead.blank {cs : List Char} {ts : List Token} (spells : SpellsAhead cs ts) :
    SpellsAhead (' ' :: cs) ts :=
  fun rest more ends behind => .blank rfl (spells rest more ends behind)

theorem spells_newline (level : Nat) {rest : List Char} {ts : List Token} (spells : Spells rest ts) :
    Spells (newline level ++ rest) ts := by
  have blanks (n : Nat) : Spells (List.replicate n ' ' ++ rest) ts := by
    induction n with
    | zero => exact spells
    | succ n ih => exact .blank rfl ih
  exact .blank rfl (blanks _)

/-- Line breaks around a text spell nothing. -/
theorem SpellsAhead.newlines {cs : List Char} {ts : List Token} (spells : SpellsAhead cs ts)
    (inside outside : Nat) : SpellsAhead (newline inside ++ cs ++ newline outside) ts := by
  intro rest more _ behind
  rw [List.append_assoc, List.append_assoc]
  exact spells_newline _ (spells _ more (ends_cons _ (by decide)) (spells_newline _ behind))

/-- A text that spells a comma. -/
structure Separates (separator : List Char) : Prop where
  ends : ∀ rest, Ends (separator ++ rest)
  spells : ∀ rest more, Spells rest more → Spells (separator ++ rest) (.comma :: more)

theorem separates_comma : Separates [','] where
  ends _ := ends_cons _ (by decide)
  spells _ _ behind := .punctuation rfl behind

theorem separates_newline (level : Nat) : Separates (',' :: newline level) where
  ends _ := ends_cons _ (by decide)
  spells _ _ behind := .punctuation rfl (spells_newline level behind)

/-- Texts that each spell their tokens. -/
theorem forall₂_spellsAhead {α : Type} {items : List α} {textOf : α → List Char}
    {tokensOf : α → List Token} (each : ∀ x ∈ items, SpellsAhead (textOf x) (tokensOf x)) :
    List.Forall₂ SpellsAhead (items.map textOf) (items.map tokensOf) := by
  rw [List.forall₂_map_left_iff, List.forall₂_map_right_iff, List.forall₂_same]
  exact each

theorem spellsAhead_separated {separator : List Char} (separates : Separates separator)
    {css : List (List Char)} {tss : List (List Token)} (each : List.Forall₂ SpellsAhead css tss) :
    SpellsAhead (List.intercalate separator css) (List.intercalate [.comma] tss) := by
  induction each with
  | nil => exact spellsAhead_nil
  | @cons cs ts css tss first others ih =>
    cases others with
    | nil => simpa [List.intercalate] using first
    | cons second later =>
      intro rest more ends behind
      rw [List.intercalate_cons_cons, List.intercalate_cons_cons, List.append_assoc,
        List.append_assoc, List.append_assoc, List.append_assoc]
      exact first _ _ (separates.ends _) (separates.spells _ _ (ih rest more ends behind))

theorem spellsAhead_enclosed {opening closing : Char} {opener closer : Token}
    (opens : punctuation? opening = some opener) (closes : punctuation? closing = some closer)
    (member : closing ∈ enders) {cs : List Char} {ts : List Token} (spells : SpellsAhead cs ts) :
    SpellsAhead (opening :: (cs ++ [closing])) (opener :: (ts ++ [closer])) := by
  intro rest more _ behind
  rw [List.cons_append, List.append_assoc, List.singleton_append, List.cons_append,
    List.append_assoc, List.singleton_append]
  exact .punctuation opens (spells _ _ (ends_cons rest member) (.punctuation closes behind))

theorem spellsAhead_stacked {opening closing : Char} {opener closer : Token}
    (opens : punctuation? opening = some opener) (closes : punctuation? closing = some closer)
    (member : closing ∈ enders) (level : Nat) {css : List (List Char)} {tss : List (List Token)}
    (each : List.Forall₂ SpellsAhead css tss) :
    SpellsAhead (stacked level opening css closing)
      (opener :: (List.intercalate [.comma] tss ++ [closer])) := by
  cases each with
  | nil => exact spellsAhead_enclosed opens closes member spellsAhead_nil
  | cons first others =>
    rw [stacked, if_neg (by simp)]
    exact spellsAhead_enclosed opens closes member
      ((spellsAhead_separated (separates_newline (level + 1)) (.cons first others)).newlines _ level)

theorem spellsAhead_entry (s : String) {cs : List Char} {ts : List Token}
    (spells : SpellsAhead cs ts) :
    SpellsAhead (quote s.toList ++ ':' :: cs) (.scalar (.string s) :: .colon :: ts) := by
  intro rest more ends behind
  rw [List.append_assoc]
  exact .literal (isLiteral_quote s) (ends_cons _ (by decide))
    (.punctuation rfl (spells rest more ends behind))

namespace Event

theorem itemTokens_eq_map (items : List Event) : itemTokens items = items.map tokens := by
  induction items with
  | nil => rfl
  | cons e rest ih => rw [itemTokens, ih, List.map_cons]

theorem entryTokens_eq_map (entries : List (String × Event)) :
    entryTokens entries =
      entries.map fun entry => .scalar (.string entry.1) :: .colon :: tokens entry.2 := by
  induction entries with
  | nil => rfl
  | cons entry rest ih => rw [entryTokens, ih, List.map_cons]

theorem compactItems_eq_map (items : List Event) : compactItems items = items.map compact := by
  induction items with
  | nil => rfl
  | cons e rest ih => rw [compactItems, ih, List.map_cons]

theorem compactEntries_eq_map (entries : List (String × Event)) :
    compactEntries entries =
      entries.map fun entry => quote entry.1.toList ++ ':' :: compact entry.2 := by
  induction entries with
  | nil => rfl
  | cons entry rest ih => rw [compactEntries, ih, List.map_cons]

theorem prettyItems_eq_map (level : Nat) (items : List Event) :
    prettyItems level items = items.map (prettyAt level) := by
  induction items with
  | nil => rfl
  | cons e rest ih => rw [prettyItems, ih, List.map_cons]

theorem prettyEntries_eq_map (level : Nat) (entries : List (String × Event)) :
    prettyEntries level entries =
      entries.map fun entry => quote entry.1.toList ++ ':' :: ' ' :: prettyAt level entry.2 := by
  induction entries with
  | nil => rfl
  | cons entry rest ih => rw [prettyEntries, ih, List.map_cons]

/-- The compact text of an event spells its tokens. -/
theorem IsPlain.spellsAhead_compact {e : Event} (plain : e.IsPlain) :
    SpellsAhead e.compact e.tokens := by
  induction plain with
  | unit => exact spellsAhead_literal .unit
  | bool b => exact spellsAhead_literal (.bool b)
  | int64 i => exact spellsAhead_literal (.int64 i)
  | uint64 n => exact spellsAhead_literal (.uint64 n)
  | string s => exact spellsAhead_literal (isLiteral_quote s)
  | seq _ ih =>
    rw [compact, bracketed, compactItems_eq_map, tokens, itemTokens_eq_map]
    exact spellsAhead_enclosed rfl rfl (by decide)
      (spellsAhead_separated separates_comma (forall₂_spellsAhead ih))
  | map _ ih =>
    rw [compact, bracketed, compactEntries_eq_map, tokens, entryTokens_eq_map]
    refine spellsAhead_enclosed rfl rfl (by decide)
      (spellsAhead_separated separates_comma (forall₂_spellsAhead ?_))
    exact fun entry member => spellsAhead_entry entry.1 (ih entry member)

/-- So does its pretty text, on every level. -/
theorem IsPlain.spellsAhead_prettyAt {e : Event} (plain : e.IsPlain) (level : Nat) :
    SpellsAhead (e.prettyAt level) e.tokens := by
  induction plain generalizing level with
  | unit => exact IsPlain.unit.spellsAhead_compact
  | bool b => exact (IsPlain.bool b).spellsAhead_compact
  | int64 i => exact (IsPlain.int64 i).spellsAhead_compact
  | uint64 n => exact (IsPlain.uint64 n).spellsAhead_compact
  | string s => exact (IsPlain.string s).spellsAhead_compact
  | seq _ ih =>
    rw [prettyAt, prettyItems_eq_map, tokens, itemTokens_eq_map]
    exact spellsAhead_stacked rfl rfl (by decide) level
      (forall₂_spellsAhead fun e member => ih e member (level + 1))
  | map _ ih =>
    rw [prettyAt, prettyEntries_eq_map, tokens, entryTokens_eq_map]
    refine spellsAhead_stacked rfl rfl (by decide) level (forall₂_spellsAhead ?_)
    exact fun entry member => spellsAhead_entry entry.1 (ih entry member (level + 1)).blank

end Event

theorem SpellsAhead.isText {cs : List Char} {e : Event} (spells : SpellsAhead cs e.tokens) :
    IsText cs e := by
  have whole := spells [] [] ends_nil .done
  rwa [List.append_nil, List.append_nil] at whole

end ResidualPolicy.Json
