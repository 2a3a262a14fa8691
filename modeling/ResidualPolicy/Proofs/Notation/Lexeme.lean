import ResidualPolicy.Json.Quoted
import ResidualPolicy.Notation.Reader
import ResidualPolicy.Notation.Text

/-!
# Lexemes that are cut off whole

Between the values of a printed text stand blanks, commas and closing brackets. A word, a keyword, a
number or a string literal that is followed by one of them, or by the end of the text, is cut off as
the lexeme that it was written as (`IsLexeme`), and what follows stays as it is.
-/

namespace ResidualPolicy.Notation

/-! ## What may follow a lexeme -/

/-- Characters that end every lexeme before them. -/
def delimiters : List Char := [' ', ',', ']', ')', '\x7d']

/-- A text that is empty or begins with a delimiter. -/
def Delimited (rest : List Char) : Prop :=
  ∀ c ∈ rest.head?, c ∈ delimiters

theorem delimited_nil : Delimited [] := nofun

theorem delimited_cons {c : Char} (rest : List Char) (member : c ∈ delimiters) :
    Delimited (c :: rest) :=
  fun _ first => Option.some.inj first ▸ member

theorem Delimited.not_any {rest : List Char} (h : Delimited rest) {inClass : Char → Bool}
    (apart : delimiters.any inClass = false) : rest.head?.any inClass = false := by
  cases rest with
  | nil => rfl
  | cons c rest => exact Bool.eq_false_iff.mpr (List.any_eq_false.mp apart c (h c rfl))

/-- The characters of a class are split off up to a delimiter. -/
theorem splitWhile_append {inClass : Char → Bool} {cs rest : List Char}
    (each : ∀ c ∈ cs, inClass c = true) (apart : delimiters.any inClass = false)
    (ends : Delimited rest) : splitWhile inClass (cs ++ rest) = (cs, rest) := by
  have stops : rest.takeWhile inClass = [] ∧ rest.dropWhile inClass = rest := by
    cases rest with
    | nil => exact ⟨rfl, rfl⟩
    | cons c rest =>
      have outside := List.any_eq_false.mp apart c (ends c rfl)
      exact ⟨List.takeWhile_cons_of_neg outside, List.dropWhile_cons_of_neg outside⟩
  rw [splitWhile, List.takeWhile_append_of_pos each, List.dropWhile_append_of_pos each, stops.1,
    stops.2, List.append_nil]

/-- Whether a text that begins with this character begins with trivia. -/
def beginsTrivia (c : Char) : Bool :=
  Text.isBlank c || c == ',' || c == ';'

theorem splitTrivia_of_not {c : Char} (h : beginsTrivia c = false) (rest : List Char) :
    splitTrivia false (c :: rest) = ([], c :: rest) := by
  unfold beginsTrivia at h
  rw [splitTrivia, Bool.false_or, h]
  rfl

/-- A text that is cut off as one lexeme of a kind, whatever may follow it. -/
def IsLexeme (kind : TokenKind) (lexeme : List Char) : Prop :=
  ∃ c body, lexeme = c :: body ∧ beginsTrivia c = false ∧
    ∀ here rest, Delimited rest → Piece.cut? here c (body ++ rest) = .ok ⟨kind, lexeme, rest⟩

/-! ## Words and keywords -/

theorem not_isWordChar : delimiters.any isWordChar = false := by
  decide

theorem isLexeme_null : IsLexeme .word "nil".toList := by
  refine ⟨'n', ['i', 'l'], rfl, rfl, fun here rest ends => ?_⟩
  have cut : Piece.cut? here 'n' (['i', 'l'] ++ rest) = .ok (cutWord 'n' (['i', 'l'] ++ rest)) := rfl
  rw [cut, cutWord, splitWhile_append (List.all_eq_true.mp rfl) not_isWordChar ends]
  rfl

theorem isLexeme_bool (b : Bool) : IsLexeme .word (Json.boolText b) := by
  cases b with
  | true =>
    refine ⟨'t', ['r', 'u', 'e'], rfl, rfl, fun here rest ends => ?_⟩
    have cut (text : List Char) : Piece.cut? here 't' text = .ok (cutWord 't' text) := rfl
    rw [cut, cutWord, splitWhile_append (List.all_eq_true.mp rfl) not_isWordChar ends]
    rfl
  | false =>
    refine ⟨'f', ['a', 'l', 's', 'e'], rfl, rfl, fun here rest ends => ?_⟩
    have cut (text : List Char) : Piece.cut? here 'f' text = .ok (cutWord 'f' text) := rfl
    rw [cut, cutWord, splitWhile_append (List.all_eq_true.mp rfl) not_isWordChar ends]
    rfl

theorem isLexeme_keyword {cs : List Char} (name : isName cs = true) :
    IsLexeme .keyword (':' :: cs) := by
  obtain ⟨occupied, each⟩ := Bool.and_eq_true_iff.mp name
  refine ⟨':', cs, rfl, rfl, fun here rest ends => ?_⟩
  have cut : Piece.cut? here ':' (cs ++ rest) = cutKeyword here (cs ++ rest) := rfl
  rw [cut, cutKeyword, splitWhile_append (List.all_eq_true.mp each) not_isWordChar ends]
  exact if_neg (Bool.not_eq_true _ ▸ (Bool.not_eq_true' _).mp occupied)

/-! ## Strings -/

theorem splitString_backslash (opening here : Position) {letter : Char}
    (allowed : isEscapeLetter letter = true) (cs : List Char) :
    splitString opening here ('\\' :: letter :: cs) =
      (splitString opening (here.after ['\\', letter]) cs).map fun split =>
        ('\\' :: letter :: split.1, split.2) := by
  rw [splitString, if_pos allowed]
  cases splitString opening (here.after ['\\', letter]) cs <;> rfl

theorem splitString_plain (opening here : Position) {c : Char} (notQuote : c ≠ '"')
    (notBackslash : c ≠ '\\') (cs : List Char) :
    splitString opening here (c :: cs) =
      (splitString opening (here.next c) cs).map fun split => (c :: split.1, split.2) := by
  rw [splitString, if_neg notQuote]
  · cases splitString opening (here.next c) cs <;> rfl
  · exact fun backslash _ => notBackslash backslash
  · exact fun letter rest backslash _ => notBackslash backslash

theorem digitChar_plain : ∀ d < 16, Nat.digitChar d ≠ '"' ∧ Nat.digitChar d ≠ '\\' := by
  decide

/-- What one character is written as in a literal belongs to the literal. -/
theorem splitString_escape (opening here : Position) (c : Char) (cs : List Char) :
    ∃ here', splitString opening here (Json.escape c ++ cs) =
      (splitString opening here' cs).map fun split => (Json.escape c ++ split.1, split.2) := by
  unfold Json.escape
  split
  · next quoted =>
    refine ⟨_, splitString_backslash opening here (?_ : isEscapeLetter c = true) cs⟩
    rcases quoted with rfl | rfl <;> rfl
  · next unquoted =>
    rw [not_or] at unquoted
    split
    · next control =>
      cases letter : Json.controlLetter? c with
      | some l =>
        refine ⟨_, splitString_backslash opening here (?_ : isEscapeLetter l = true) cs⟩
        unfold Json.controlLetter? at letter
        repeat' split at letter
        all_goals first | exact Option.some.inj letter ▸ rfl | exact nomatch letter
      | none =>
        have upper := digitChar_plain (c.toNat / 16) (by omega)
        have lower := digitChar_plain (c.toNat % 16) (by omega)
        let digits := ['0', '0', Nat.digitChar (c.toNat / 16), Nat.digitChar (c.toNat % 16)]
        refine ⟨(here.after ['\\', 'u']).after digits, ?_⟩
        simp only [List.cons_append, List.nil_append]
        rw [splitString_backslash _ _ rfl, splitString_plain _ _ (by decide) (by decide),
          splitString_plain _ _ (by decide) (by decide), splitString_plain _ _ upper.1 upper.2,
          splitString_plain _ _ lower.1 lower.2]
        change Except.map _ (Except.map _ (Except.map _ (Except.map _ (Except.map _
          (splitString opening ((here.after ['\\', 'u']).after digits) cs))))) = _
        cases splitString opening ((here.after ['\\', 'u']).after digits) cs <;> rfl
    · exact ⟨_, splitString_plain opening here unquoted.1 unquoted.2 cs⟩

theorem splitString_escapeAll (opening here : Position) (cs rest : List Char) :
    splitString opening here (Json.escapeAll cs ++ '"' :: rest) =
      .ok (Json.escapeAll cs ++ ['"'], rest) := by
  induction cs generalizing here with
  | nil => rfl
  | cons c cs ih =>
    obtain ⟨here', escaped⟩ :=
      splitString_escape opening here c (Json.escapeAll cs ++ '"' :: rest)
    rw [Json.escapeAll, List.flatMap_cons, List.append_assoc, ← Json.escapeAll, escaped, ih here',
      List.append_assoc]
    rfl

theorem isLexeme_quote (cs : List Char) : IsLexeme .string (Json.quote cs) := by
  refine ⟨'"', Json.escapeAll cs ++ ['"'], rfl, rfl, fun here rest ends => ?_⟩
  have cut (text : List Char) : Piece.cut? here '"' text =
      (splitString here (here.next '"') text).bind fun split =>
        .ok ⟨.string, '"' :: split.1, split.2⟩ := rfl
  rw [cut, List.append_assoc, List.singleton_append, splitString_escapeAll]
  rfl

/-! ## Integers -/

theorem toDigits_head {n : Nat} (positive : n ≠ 0) : (Nat.toDigits 10 n).head? ≠ some '0' := by
  induction n using Nat.strongRecOn with
  | ind n ih =>
    by_cases small : n < 10
    · have digit : ∀ d < 10, d ≠ 0 → Nat.digitChar d ≠ '0' := by decide
      rw [Nat.toDigits_of_lt_base small]
      exact fun zero => digit n small positive (Option.some.inj zero)
    · have nonempty : Nat.toDigits 10 (n / 10) ≠ [] := Nat.toDigits_ne_nil
      rw [Nat.toDigits_of_base_le (by decide) (Nat.le_of_not_lt small), List.head?_append,
        Option.or_of_isSome (List.isSome_head?.mpr nonempty)]
      exact ih (n / 10) (by omega) (by omega)

/-- The digits of a natural number begin with a digit. -/
theorem toDigits_cons (n : Nat) :
    ∃ c body, Nat.toDigits 10 n = c :: body ∧ c.isDigit = true := by
  cases digits : Nat.toDigits 10 n with
  | nil => exact absurd digits Nat.toDigits_ne_nil
  | cons c body =>
    have member : c ∈ Nat.toDigits 10 n := digits ▸ List.mem_cons_self
    exact ⟨c, body, rfl, Nat.isDigit_of_mem_toDigits (by decide) (by decide) member⟩

theorem not_isDigit : delimiters.any Char.isDigit = false := by
  decide

theorem splitWhole_toDigits (n : Nat) {rest : List Char} (ends : Delimited rest) :
    splitWhole (Nat.toDigits 10 n ++ rest) = (Nat.toDigits 10 n, rest) := by
  by_cases zero : n = 0
  · subst zero
    rfl
  · have head := toDigits_head zero
    obtain ⟨c, body, digits, -⟩ := toDigits_cons n
    unfold splitWhole
    split
    · next started =>
      rw [digits] at started head
      exact absurd (congrArg some (List.cons.inj started).1) head
    · exact splitWhile_append (fun c => Nat.isDigit_of_mem_toDigits (by decide) (by decide))
        not_isDigit ends

theorem splitFraction_of_delimited {rest : List Char} (ends : Delimited rest) :
    splitFraction rest = ([], rest) := by
  unfold splitFraction
  split
  · exact absurd (ends '.' rfl) (by decide)
  · rfl

theorem splitExponent_of_delimited {rest : List Char} (ends : Delimited rest) :
    splitExponent rest = ([], rest) := by
  cases rest with
  | nil => rfl
  | cons c rest =>
    have unmarked : delimiters.any (fun c => c == 'e' || c == 'E') = false := by decide
    rw [splitExponent, Bool.eq_false_iff.mpr (List.any_eq_false.mp unmarked c (ends c rfl))]
    rfl

theorem splitNumber_intText (i : Int) {rest : List Char} (ends : Delimited rest) :
    splitNumber (Double.intText i ++ rest) = (Double.intText i, rest) := by
  have minus : splitMinus (Double.intText i ++ rest) =
      (if i < 0 then ['-'] else [], Nat.toDigits 10 i.natAbs ++ rest) := by
    unfold Double.intText
    split
    · rfl
    · obtain ⟨c, body, digits, digit⟩ := toDigits_cons i.natAbs
      rw [digits]
      unfold splitMinus
      split
      · next started =>
        rw [(List.cons.inj started).1] at digit
        exact absurd digit (by decide)
      · rfl
  rw [splitNumber, minus]
  dsimp only
  rw [splitWhole_toDigits _ ends]
  dsimp only
  rw [splitFraction_of_delimited ends]
  dsimp only
  rw [splitExponent_of_delimited ends]
  dsimp only
  unfold Double.intText
  split <;> simp

theorem int?_intText (i : Int) : Double.int? (Double.intText i) = some i := by
  have digits : Double.digits? (Nat.toDigits 10 i.natAbs) = some i.natAbs := by
    have each : (Nat.toDigits 10 i.natAbs).all Char.isDigit = true :=
      List.all_eq_true.mpr fun c => Nat.isDigit_of_mem_toDigits (by decide) (by decide)
    have occupied : (Nat.toDigits 10 i.natAbs).isEmpty = false :=
      List.isEmpty_eq_false_iff.mpr Nat.toDigits_ne_nil
    rw [Double.digits?, each, occupied, Nat.ofDigitChars_ten_toDigits]
    rfl
  have sign : Double.splitSign (Double.intText i) =
      (decide (i < 0), Nat.toDigits 10 i.natAbs) := by
    unfold Double.intText
    split
    · next negative => rw [Double.splitSign, decide_eq_true negative]
    · next natural =>
      obtain ⟨c, body, digits, digit⟩ := toDigits_cons i.natAbs
      rw [digits, decide_eq_false natural]
      unfold Double.splitSign
      split
      · next started =>
        rw [(List.cons.inj started).1] at digit
        exact absurd digit (by decide)
      · next started =>
        rw [(List.cons.inj started).1] at digit
        exact absurd digit (by decide)
      · rfl
  rw [Double.int?, sign]
  dsimp only
  rw [digits]
  show some (if decide (i < 0) = true then -(i.natAbs : Int) else i.natAbs) = some i
  split
  · next negative =>
    have negative : i < 0 := of_decide_eq_true negative
    exact congrArg some (by omega)
  · next natural =>
    have natural : ¬i < 0 := fun negative => natural (decide_eq_true negative)
    exact congrArg some (by omega)

/-- The digits of a word are read as that word. -/
theorem ofText?_intText (word : Int64) :
    Number.ofText? (Double.intText word.toInt) = some (.int word) := by
  have fits : Number.int64? word.toInt = some word := by
    rw [Number.int64?, if_pos ⟨word.minValue_le_toInt, word.toInt_le⟩, Int64.ofInt_toInt]
  rw [Number.ofText?, int?_intText, Option.bind_some, fits]

theorem toNat_of_isDigit {c : Char} (digit : c.isDigit = true) : 48 ≤ c.toNat ∧ c.toNat ≤ 57 := by
  rw [Char.isDigit, Bool.and_eq_true, decide_eq_true_eq, decide_eq_true_eq] at digit
  exact ⟨UInt32.le_iff_toNat_le.mp digit.1, UInt32.le_iff_toNat_le.mp digit.2⟩

theorem cut?_digit (here : Position) {c : Char} (digit : c.isDigit = true) (rest : List Char) :
    Piece.cut? here c rest = cutNumber here (c :: rest) := by
  have other {d : Char} (unlike : d.isDigit = false) : c ≠ d := by
    rintro rfl
    exact Bool.false_ne_true (unlike.symm.trans digit)
  have symbol : isBracket c = false := by
    simp [isBracket, @other '[' rfl, @other ']' rfl, @other '(' rfl, @other ')' rfl,
      @other '\x7b' rfl, @other '\x7d' rfl]
  rw [Piece.cut?, symbol, if_neg Bool.false_ne_true, if_neg fun hash => other rfl hash.1,
    if_neg (other rfl), if_neg (other rfl), startsNumber, digit]
  rfl

theorem cut?_minus (here : Position) {c : Char} (digit : c.isDigit = true) (rest : List Char) :
    Piece.cut? here '-' (c :: rest) = cutNumber here ('-' :: c :: rest) := by
  have minus : Piece.cut? here '-' (c :: rest) =
      if c.isDigit then cutNumber here ('-' :: c :: rest) else .ok (cutWord '-' (c :: rest)) := rfl
  rw [minus, if_pos digit]

theorem beginsTrivia_digit {c : Char} (digit : c.isDigit = true) : beginsTrivia c = false := by
  obtain ⟨low, high⟩ := toNat_of_isDigit digit
  have other (d : Char) (unlike : d.isDigit = false) : (c == d) = false := by
    rw [beq_eq_false_iff_ne]
    rintro rfl
    exact Bool.false_ne_true (unlike.symm.trans digit)
  have ascii : Text.isAscii c = true := decide_eq_true (by omega)
  have control : decide (c.toNat ≤ 0x0D) = false := decide_eq_false (by omega)
  rw [beginsTrivia, Text.isBlank, if_pos ascii, other ' ' rfl, other ',' rfl, other ';' rfl, control,
    Bool.and_false]
  rfl

theorem isLexeme_intText (word : Int64) : IsLexeme .number (Double.intText word.toInt) := by
  have cut (here : Position) (rest : List Char) (ends : Delimited rest) :
      cutNumber here (Double.intText word.toInt ++ rest) =
        .ok ⟨.number, Double.intText word.toInt, rest⟩ := by
    have apart : delimiters.any extendsNumber = false := by decide
    rw [cutNumber, splitNumber_intText _ ends]
    dsimp only
    rw [ends.not_any apart, if_neg Bool.false_ne_true, ofText?_intText]
  obtain ⟨c, body, digits, digit⟩ := toDigits_cons word.toInt.natAbs
  by_cases negative : word.toInt < 0
  · have text : Double.intText word.toInt = '-' :: c :: body := by
      rw [Double.intText, if_pos negative, digits]
    refine ⟨'-', c :: body, text, rfl, fun here rest ends => ?_⟩
    rw [List.cons_append, cut?_minus here digit, ← List.cons_append, ← List.cons_append, ← text,
      cut here rest ends]
  · have text : Double.intText word.toInt = c :: body := by
      rw [Double.intText, if_neg negative, digits]
    refine ⟨c, body, text, beginsTrivia_digit digit, fun here rest ends => ?_⟩
    rw [cut?_digit here digit, ← List.cons_append, ← text, cut here rest ends]

end ResidualPolicy.Notation
