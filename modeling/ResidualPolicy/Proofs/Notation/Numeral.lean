import ResidualPolicy.Proofs.Notation.Places
import ResidualPolicy.Proofs.Number.Numeral

/-!
# Tokens of numbers

A number is split off part by part, each part as far as it goes and with one character of lookahead.
What is split off is the longest numeral at its place (`exists_splitNumber`): where another numeral
has a shorter part, the character behind that part begins no later part, so the other numeral ends
there.

Only an exponent may turn out to lack its digits after it has been split off. That makes no
difference, since its mark is a letter that must not follow a number, and no number is read from a
lexeme that ends in it. So there is a token exactly if the longest numeral ends where a number may end
and does not overflow, and then it is the token (`Cursor.next_number`).
-/

namespace ResidualPolicy.Notation

open Double (IsDigits signed pointed)
open Numeral (IsWhole IsMark IsSign IsUnfinished Exponent exponentText)

/-! ## Sign, whole part and fraction -/

theorem splitMinus_signed (negative : Bool) {digit : Char} (isDigit : digit.isDigit = true)
    (rest : List Char) :
    splitMinus (signed negative (digit :: rest)) = (signed negative [], digit :: rest) := by
  cases negative with
  | true => rfl
  | false =>
    show splitMinus (digit :: rest) = ([], digit :: rest)
    unfold splitMinus
    split
    · next begins =>
      rw [(List.cons.inj begins).1] at isDigit
      exact absurd isDigit (by decide)
    · rfl

/-- Characters of a class are split off, and no others unless one more of them follows. -/
theorem splitWhile_append_or {inClass : Char → Bool} {cs : List Char}
    (each : ∀ c ∈ cs, inClass c = true) (rest : List Char) :
    splitWhile inClass (cs ++ rest) = (cs, rest) ∨
      cs.length < (splitWhile inClass (cs ++ rest)).1.length ∧
        ∃ c ∈ rest.head?, inClass c = true := by
  unfold splitWhile
  rw [List.takeWhile_append_of_pos each, List.dropWhile_append_of_pos each]
  cases rest with
  | nil => exact .inl (by simp)
  | cons c rest =>
    cases follows : inClass c with
    | true => exact .inr ⟨by simp [follows], c, rfl, follows⟩
    | false => exact .inl (by simp [follows])

theorem splitWhole_of_ne {digit : Char} (nonzero : digit ≠ '0') (rest : List Char) :
    splitWhole (digit :: rest) = splitWhile Char.isDigit (digit :: rest) := by
  unfold splitWhole
  split
  · next begins => exact absurd (List.cons.inj begins).1 nonzero
  · rfl

theorem isWhole_splitWhole {digit : Char} (isDigit : digit.isDigit = true) (rest : List Char) :
    IsWhole (splitWhole (digit :: rest)).1 := by
  by_cases zero : digit = '0'
  · subst zero
    exact .inl rfl
  · have whole : (splitWhole (digit :: rest)).1 = digit :: rest.takeWhile Char.isDigit := by
      rw [splitWhole_of_ne zero]
      exact List.takeWhile_cons_of_pos isDigit
    rw [whole]
    refine .inr ⟨⟨List.cons_ne_nil _ _, ?_⟩, fun first => zero (Option.some.inj first)⟩
    exact List.forall_mem_cons.mpr ⟨isDigit, List.all_eq_true.mp List.all_takeWhile⟩

theorem splitWhole_append_or {whole : List Char} (isWhole : IsWhole whole) (rest : List Char) :
    splitWhole (whole ++ rest) = (whole, rest) ∨
      whole.length < (splitWhole (whole ++ rest)).1.length ∧
        ∃ c ∈ rest.head?, c.isDigit = true := by
  rcases isWhole with rfl | ⟨digits, nonzero⟩
  · exact .inl rfl
  · obtain ⟨digit, more, rfl, -⟩ := digits.exists_cons
    rw [List.cons_append, splitWhole_of_ne fun zero => nonzero (congrArg some zero)]
    exact splitWhile_append_or digits.2 rest

theorem exists_splitFraction (cs : List Char) :
    ∃ fraction, (∀ c ∈ fraction, c.isDigit = true) ∧ (splitFraction cs).1 = pointed fraction := by
  unfold splitFraction
  split
  · next digit rest =>
    split
    · next isDigit =>
      refine ⟨digit :: rest.takeWhile Char.isDigit, ?_, rfl⟩
      exact List.forall_mem_cons.mpr ⟨isDigit, List.all_eq_true.mp List.all_takeWhile⟩
    · exact ⟨[], nofun, rfl⟩
  · exact ⟨[], nofun, rfl⟩

theorem splitFraction_append_or {fraction : List Char} (digits : ∀ c ∈ fraction, c.isDigit = true)
    (rest : List Char) :
    splitFraction (pointed fraction ++ rest) = (pointed fraction, rest) ∨
      (pointed fraction).length < (splitFraction (pointed fraction ++ rest)).1.length ∧
        ∃ c ∈ rest.head?, c.isDigit = true ∨ c = '.' := by
  cases fraction with
  | nil =>
    rw [pointed, List.nil_append]
    unfold splitFraction
    split
    · split
      · exact .inr ⟨Nat.zero_lt_succ _, '.', rfl, .inr rfl⟩
      · exact .inl rfl
    · exact .inl rfl
  | cons digit more =>
    obtain ⟨isDigit, each⟩ := List.forall_mem_cons.mp digits
    have split : splitFraction (pointed (digit :: more) ++ rest) =
        ('.' :: digit :: (splitWhile Char.isDigit (more ++ rest)).1,
          (splitWhile Char.isDigit (more ++ rest)).2) :=
      if_pos isDigit
    rw [split]
    rcases splitWhile_append_or each rest with whole | ⟨longer, c, first, follows⟩
    · rw [whole]
      exact .inl rfl
    · exact .inr ⟨Nat.add_lt_add_right longer 2, c, first, .inl follows⟩

/-! ## Exponent -/

theorem exists_splitExponentSign (cs : List Char) :
    ∃ sign behind, IsSign sign ∧ splitExponentSign cs = (sign.toList, behind) := by
  unfold splitExponentSign
  split
  · exact ⟨some '+', _, .inr (.inl rfl), rfl⟩
  · exact ⟨some '-', _, .inr (.inr rfl), rfl⟩
  · exact ⟨none, _, .inl rfl, rfl⟩

theorem splitExponentSign_append (e : Exponent) (rest : List Char) :
    splitExponentSign (e.sign.toList ++ (e.digits ++ rest)) = (e.sign.toList, e.digits ++ rest) := by
  rcases e.isSign with sign | sign | sign
  · obtain ⟨digit, more, digits, isDigit⟩ := e.isDigits.exists_cons
    rw [sign, digits]
    show splitExponentSign (digit :: (more ++ rest)) = ([], digit :: (more ++ rest))
    unfold splitExponentSign
    split
    · next begins =>
      rw [(List.cons.inj begins).1] at isDigit
      exact absurd isDigit (by decide)
    · next begins =>
      rw [(List.cons.inj begins).1] at isDigit
      exact absurd isDigit (by decide)
    · rfl
  · rw [sign]
    rfl
  · rw [sign]
    rfl

theorem splitExponent_of_isMark {mark : Char} (isMark : IsMark mark) (rest : List Char) :
    (splitExponent (mark :: rest)).1 = mark ::
      ((splitExponentSign rest).1 ++ (splitExponentSign rest).2.takeWhile Char.isDigit) := by
  rw [splitExponent, if_pos isMark.beq]
  rfl

/-- What is split off is an exponent, if there is one, or it lacks its digits. -/
theorem exists_splitExponent (cs : List Char) :
    ∃ e stray, (splitExponent cs).1 = exponentText e ++ stray ∧
      (stray = [] ∨ e = none ∧ IsUnfinished stray) := by
  cases cs with
  | nil => exact ⟨none, [], rfl, .inl rfl⟩
  | cons mark rest =>
    by_cases isMark : IsMark mark
    · obtain ⟨sign, behind, isSign, signed⟩ := exists_splitExponentSign rest
      rw [splitExponent_of_isMark isMark, signed]
      by_cases digitless : behind.takeWhile Char.isDigit = []
      · rw [digitless, List.append_nil]
        exact ⟨none, _, rfl, .inr ⟨rfl, mark, sign, rfl, isMark, isSign⟩⟩
      · let e : Exponent := ⟨mark, sign, behind.takeWhile Char.isDigit, isMark, isSign, digitless,
          List.all_eq_true.mp List.all_takeWhile⟩
        exact ⟨some e, [], (List.append_nil _).symm, .inl rfl⟩
    · have unmarked : (mark == 'e' || mark == 'E') = false := by
        rw [Bool.or_eq_false_iff, beq_eq_false_iff_ne, beq_eq_false_iff_ne]
        exact not_or.mp isMark
      rw [splitExponent, unmarked]
      exact ⟨none, [], rfl, .inl rfl⟩

theorem splitExponent_append (e : Exponent) (rest : List Char) :
    (splitExponent (e.text ++ rest)).1 = e.text ++ rest.takeWhile Char.isDigit := by
  unfold Exponent.text
  rw [List.cons_append, splitExponent_of_isMark e.isMark, List.append_assoc,
    splitExponentSign_append, List.takeWhile_append_of_pos e.isDigits.2, List.cons_append,
    List.append_assoc]

theorem not_isDigit_of_isUnfinished {cs : List Char} (h : IsUnfinished cs) :
    ∀ c ∈ cs, c.isDigit = false := by
  obtain ⟨mark, sign, rfl, isMark, isSign⟩ := h
  refine List.forall_mem_cons.mpr ⟨isMark.ends.1, ?_⟩
  rcases isSign with rfl | rfl | rfl
  · exact List.forall_mem_nil _
  · exact List.forall_mem_singleton.mpr rfl
  · exact List.forall_mem_singleton.mpr rfl

/-- The exponent that is split off is the longest one. -/
theorem length_exponentText_le {cs stray : List Char} {e other : Option Exponent}
    (split : (splitExponent cs).1 = exponentText e ++ stray)
    (unfinished : stray = [] ∨ e = none ∧ IsUnfinished stray) (begins : exponentText other <+: cs) :
    (exponentText other).length ≤ (exponentText e).length := by
  cases other with
  | none => exact Nat.zero_le _
  | some x =>
    obtain ⟨rest, rfl⟩ := begins
    rw [exponentText, splitExponent_append] at split
    rcases unfinished with rfl | ⟨rfl, digitless⟩
    · rw [← List.append_nil (exponentText e), ← split, List.length_append]
      exact Nat.le_add_right _ _
    · obtain ⟨digit, more, digits, isDigit⟩ := x.isDigits.exists_cons
      have member : digit ∈ stray := by
        rw [show stray = _ from split.symm, Exponent.text, digits]
        simp
      rw [not_isDigit_of_isUnfinished digitless digit member] at isDigit
      exact absurd isDigit Bool.false_ne_true

/-! ## The longest numeral -/

/-- A text begins with a numeral and with no longer one. -/
structure IsLongest (cs : List Char) (n : Numeral) (behind : List Char) : Prop where
  text : cs = n.text ++ behind
  longest : ∀ other : Numeral, other.text <+: cs → other.text.length ≤ n.text.length

theorem IsLongest.unique {cs behind later : List Char} {m n : Numeral} (h : IsLongest cs m behind)
    (h' : IsLongest cs n later) : m.text = n.text ∧ behind = later := by
  have length : m.text.length = n.text.length :=
    Nat.le_antisymm (h'.longest m ⟨behind, h.text.symm⟩) (h.longest n ⟨later, h'.text.symm⟩)
  exact List.append_inj (h.text.symm.trans h'.text) length

/-- No exponent begins with a digit or a point, -/
theorem exponentText_eq_nil {e : Option Exponent} {rest : List Char}
    (first : ∃ c ∈ (exponentText e ++ rest).head?, c.isDigit = true ∨ c = '.') :
    exponentText e = [] := by
  obtain ⟨c, head, follows⟩ := first
  cases e with
  | none => rfl
  | some e =>
    obtain rfl : e.mark = c := Option.some.inj head
    rcases follows with digit | point
    · exact absurd (e.isMark.ends.1.symm.trans digit) Bool.false_ne_true
    · exact absurd point e.isMark.ends.2

/-- and no fraction with a digit. -/
theorem pointed_eq_nil {fraction : List Char} {e : Option Exponent} {rest : List Char}
    (first : ∃ c ∈ (pointed fraction ++ (exponentText e ++ rest)).head?, c.isDigit = true) :
    pointed fraction = [] ∧ exponentText e = [] := by
  obtain ⟨c, head, digit⟩ := first
  cases fraction with
  | nil => exact ⟨rfl, exponentText_eq_nil ⟨c, head, .inl digit⟩⟩
  | cons =>
    obtain rfl : '.' = c := Option.some.inj head
    exact absurd digit (by decide)

/-- Without its sign, no numeral at the beginning of a text is longer than the parts that are split
off. -/
theorem length_unsigned_le {cs stray : List Char} {e : Option Exponent} {n : Numeral}
    (split : (splitExponent (splitFraction (splitWhole cs).2).2).1 = exponentText e ++ stray)
    (unfinished : stray = [] ∨ e = none ∧ IsUnfinished stray) (begins : n.unsigned <+: cs) :
    n.unsigned.length ≤ ((splitWhole cs).1 ++
      ((splitFraction (splitWhole cs).2).1 ++ exponentText e)).length := by
  obtain ⟨rest, rfl⟩ := begins
  unfold Numeral.unsigned at split ⊢
  rw [List.append_assoc, List.append_assoc] at split ⊢
  rw [List.length_append, List.length_append, List.length_append, List.length_append]
  -- Where a part is split off longer than the numeral has it, the numeral has no later part.
  rcases splitWhole_append_or n.isWhole (pointed n.fraction ++ (exponentText n.exponent ++ rest))
    with whole | ⟨longer, first⟩
  · rw [whole] at split ⊢
    rcases splitFraction_append_or n.isFraction (exponentText n.exponent ++ rest)
      with fraction | ⟨longer, first⟩
    · rw [fraction] at split ⊢
      have exponent := length_exponentText_le split unfinished (List.prefix_append _ rest)
      exact Nat.add_le_add_left (Nat.add_le_add_left exponent _) _
    · have noExponent := exponentText_eq_nil first
      rw [noExponent] at longer ⊢
      dsimp only
      rw [List.length_nil]
      omega
  · obtain ⟨noFraction, noExponent⟩ := pointed_eq_nil first
    rw [noFraction, noExponent] at longer ⊢
    rw [List.length_nil]
    omega

/-- A numeral at the beginning of a text has the sign of the text. -/
theorem unsigned_prefix {negative : Bool} {digit : Char} (isDigit : digit.isDigit = true)
    {rest : List Char} {n : Numeral} (begins : n.text <+: signed negative (digit :: rest)) :
    signed n.negative [] = signed negative [] ∧ n.unsigned <+: digit :: rest := by
  obtain ⟨behind, text⟩ := begins
  obtain ⟨first, more, digits, isFirst⟩ := n.isWhole.isDigits.exists_cons
  have minus := congrArg splitMinus text
  rw [Numeral.text, Numeral.unsigned, digits, Double.signed_append, List.append_assoc,
    List.cons_append, splitMinus_signed _ isFirst, splitMinus_signed _ isDigit] at minus
  refine ⟨congrArg Prod.fst minus, behind, ?_⟩
  rw [Numeral.unsigned, digits, List.append_assoc, List.cons_append]
  exact congrArg Prod.snd minus

/-- Where a numeral begins, the longest one is split off, perhaps with an exponent behind it that lacks
its digits. -/
theorem exists_splitNumber (negative : Bool) {digit : Char} (isDigit : digit.isDigit = true)
    (rest : List Char) :
    ∃ n stray behind,
      splitNumber (signed negative (digit :: rest)) = (n.text ++ stray, behind) ∧
      (stray = [] ∨ n.exponent = none ∧ IsUnfinished stray) ∧
      IsLongest (signed negative (digit :: rest)) n (stray ++ behind) := by
  obtain ⟨fraction, isFraction, point⟩ := exists_splitFraction (splitWhole (digit :: rest)).2
  obtain ⟨e, stray, split, unfinished⟩ :=
    exists_splitExponent (splitFraction (splitWhole (digit :: rest)).2).2
  let n : Numeral := ⟨negative, (splitWhole (digit :: rest)).1, fraction, e,
    isWhole_splitWhole isDigit rest, isFraction⟩
  have lexeme : (splitNumber (signed negative (digit :: rest))).1 = n.text ++ stray := by
    show _ = signed negative ((splitWhole (digit :: rest)).1 ++ (pointed fraction ++ exponentText e)) ++
      stray
    unfold splitNumber
    rw [splitMinus_signed negative isDigit]
    dsimp only
    rw [point, split]
    cases negative <;> simp [signed]
  have whole := append_splitNumber (signed negative (digit :: rest))
  rw [lexeme, List.append_assoc] at whole
  refine ⟨n, stray, _, Prod.ext lexeme rfl, unfinished, whole.symm, fun other begins => ?_⟩
  obtain ⟨sign, within⟩ := unsigned_prefix isDigit begins
  have length := length_unsigned_le split unfinished within
  rw [point] at length
  rw [Numeral.text, Numeral.text, Double.length_signed, Double.length_signed n.negative, sign]
  exact Nat.add_le_add_left length _

/-! ## Tokens -/

/-- Nothing follows that could belong to a number. -/
def EndsNumber (behind : List Char) : Prop :=
  ∀ c ∈ behind.head?, c ≠ '_' ∧ c ≠ '.' ∧ Text.isAlphabetic c = false ∧ Text.isNumeric c = false

theorem endsNumber_iff {behind : List Char} :
    EndsNumber behind ↔ behind.head?.any extendsNumber = false := by
  cases behind with
  | nil => exact iff_of_true nofun rfl
  | cons c rest => simp [EndsNumber, extendsNumber, and_assoc]

/-- The mark of an exponent is a letter. -/
theorem not_endsNumber_of_isUnfinished {stray : List Char} (h : IsUnfinished stray)
    (behind : List Char) : ¬ EndsNumber (stray ++ behind) := by
  obtain ⟨mark, sign, rfl, isMark, -⟩ := h
  intro ends
  have letter : Text.isAlphabetic mark = true := by
    rcases isMark with rfl | rfl <;> decide
  exact Bool.false_ne_true ((ends mark rfl).2.2.1.symm.trans letter)

section
variable {negative : Bool} {digit : Char} (isDigit : digit.isDigit = true) {rest : List Char}
include isDigit

/-- The longest numeral is cut off if a number may end where it ends and its value does not overflow.
Otherwise nothing is cut off. -/
theorem cutNumber_of_isLongest (here : Position) {n : Numeral} {behind : List Char}
    (longest : IsLongest (signed negative (digit :: rest)) n behind) :
    (EndsNumber behind ∧ n.Fits →
        cutNumber here (signed negative (digit :: rest)) = .ok ⟨.number, n.text, behind⟩) ∧
      (¬ (EndsNumber behind ∧ n.Fits) →
        ∃ failure, cutNumber here (signed negative (digit :: rest)) = .error failure) := by
  obtain ⟨m, stray, later, split, unfinished, longest'⟩ := exists_splitNumber negative isDigit rest
  obtain ⟨text, rfl⟩ := longest.unique longest'
  rw [cutNumber, split, ← text]
  dsimp only
  rcases unfinished with rfl | ⟨plain, digitless⟩
  -- The lexeme is the numeral: both tests are those of the statement.
  · rw [List.append_nil, List.nil_append, ← n.isSome_ofText?_text, endsNumber_iff]
    cases later.head?.any extendsNumber with
    | true => exact ⟨fun h => absurd h.1.symm Bool.false_ne_true, fun _ => ⟨_, rfl⟩⟩
    | false =>
      rw [if_neg Bool.false_ne_true]
      cases Number.ofText? n.text with
      | none => exact ⟨fun h => absurd h.2 Bool.false_ne_true, fun _ => ⟨_, rfl⟩⟩
      | some value => exact ⟨fun _ => rfl, fun h => absurd ⟨rfl, rfl⟩ h⟩
  -- The lexeme goes on behind the numeral with the mark of an exponent. Whichever test comes first fails.
  · have unread := Numeral.ofText?_unfinished plain digitless
    refine ⟨fun h => absurd h.1 (not_endsNumber_of_isUnfinished digitless later), fun _ => ?_⟩
    rw [text, unread]
    split
    · exact ⟨_, rfl⟩
    · exact ⟨_, rfl⟩

theorem Cursor.next_of_signed {cursor : Cursor}
    (behind : (splitTrivia false cursor.rest).2 = signed negative (digit :: rest)) :
    cursor.next =
      (cutNumber cursor.begun (signed negative (digit :: rest))).map fun piece =>
        (piece.token cursor.begun, ⟨cursor.begun.after piece.lexeme, piece.behind⟩) := by
  cases negative with
  | true =>
    rw [next_of_cons behind, cut?_minus _ isDigit]
    rfl
  | false =>
    rw [next_of_cons behind, cut?_digit _ isDigit]
    rfl

theorem splitTrivia_signed {trivia : List Char} (isTrivia : IsTrivia false trivia) :
    splitTrivia false (trivia ++ signed negative (digit :: rest)) =
      (trivia, signed negative (digit :: rest)) := by
  cases negative with
  | true => exact isTrivia.splitTrivia_append (by decide) (digit :: rest)
  | false => exact isTrivia.splitTrivia_append (beginsTrivia_digit isDigit) rest

end

/-- Where a digit comes next, or a minus sign and a digit, the next token is the longest number of the
JSON grammar, if nothing follows that could belong to it and its value does not overflow a double.
Otherwise there is no next token. -/
theorem Cursor.next_number (before : List Char) {trivia : List Char}
    (isTrivia : IsTrivia false trivia) (negative : Bool) {digit : Char}
    (isDigit : digit.isDigit = true) (rest : List Char) :
    let cs := signed negative (digit :: rest)
    let cursor : Cursor := ⟨Position.start.after before, trivia ++ cs⟩
    (∃ n behind, IsLongest cs n behind) ∧ ∀ n behind, IsLongest cs n behind →
      ((∃ token after, cursor.next = .ok (token, after) ∧ token.kind = .number ∧
          token.text = n.text ∧ token.IsPlaced (before ++ trivia) ∧ after.rest = behind) ↔
        EndsNumber behind ∧ n.Fits) ∧
      ((∃ failure, cursor.next = .error failure) ↔ ¬ (EndsNumber behind ∧ n.Fits)) := by
  intro cs cursor
  obtain ⟨m, stray, later, -, -, longest⟩ := exists_splitNumber negative isDigit rest
  refine ⟨⟨m, stray ++ later, longest⟩, fun n behind longest => ?_⟩
  have split : splitTrivia false cursor.rest = (trivia, cs) := splitTrivia_signed isDigit isTrivia
  have begun : cursor.begun = Position.start.after (before ++ trivia) := by
    rw [Cursor.begun, split, Position.after_append]
  have next := next_of_signed isDigit (congrArg Prod.snd split)
  have placed (before : List Char) :
      (Piece.token ⟨.number, n.text, behind⟩ (Position.start.after before)).IsPlaced before :=
    Piece.isPlaced_token (.number n.text) before
  obtain ⟨cut, uncut⟩ := cutNumber_of_isLongest isDigit cursor.begun longest
  by_cases number : EndsNumber behind ∧ n.Fits
  · have found := next.trans (congrArg _ (cut number))
    rw [begun] at found
    refine ⟨iff_of_true ⟨_, _, found, rfl, rfl, placed _, rfl⟩ number, iff_of_false ?_ (· number)⟩
    rintro ⟨failure, fails⟩
    cases found.symm.trans fails
  · obtain ⟨failure, fails⟩ := uncut number
    have found := next.trans (congrArg _ fails)
    refine ⟨iff_of_false ?_ number, iff_of_true ⟨failure, found⟩ number⟩
    rintro ⟨token, after, result, -⟩
    cases found.symm.trans result

/-- A number that is rounded to a double of the largest size, behind a comment, and one that is larger
by one at its last digit and overflows. -/
theorem Cursor.next_number_of_bound :
    let trivia := [' ', ';', '-', '1', '\n']
    let largest := signed true ('1' :: ".7976931348623158e+308]".toList)
    let tooLarge := signed false ('1' :: ".7976931348623159E308]".toList)
    let cursor cs : Cursor := ⟨Position.start.after "[:= [:a]".toList, trivia ++ cs⟩
    IsTrivia false trivia ∧ '1'.isDigit = true ∧
      (∃ n behind token after, IsLongest largest n behind ∧ EndsNumber behind ∧ n.Fits ∧
        (cursor largest).next = .ok (token, after) ∧ token.kind = .number ∧ token.text = n.text ∧
        n.text = "-1.7976931348623158e+308".toList) ∧
      ∃ n behind failure, IsLongest tooLarge n behind ∧ ¬ (EndsNumber behind ∧ n.Fits) ∧
        (cursor tooLarge).next = .error failure := by
  intro trivia largest tooLarge cursor
  have comment : IsTrivia false (';' :: (['-', '1'] ++ ['\n'])) := .comment (by decide) .nil
  have isTrivia : IsTrivia false trivia := .blank (.inl (by decide)) comment
  have isDigit : '1'.isDigit = true := by decide
  obtain ⟨⟨n, behind, longest⟩, outcomes⟩ := next_number "[:= [:a]".toList isTrivia true isDigit
    ".7976931348623158e+308]".toList
  obtain ⟨⟨m, later, longest'⟩, outcomes'⟩ := next_number "[:= [:a]".toList isTrivia false isDigit
    ".7976931348623159E308]".toList
  have text : (cursor largest).next.toOption.map (fun found => found.1.text) =
      some "-1.7976931348623158e+308".toList := by decide +kernel
  have nothing : (cursor tooLarge).next.toOption.map (fun found => found.1.text) = none := by
    decide +kernel
  have fits : EndsNumber behind ∧ n.Fits := by
    by_contra other
    obtain ⟨failure, fails⟩ := (outcomes n behind longest).2.mpr other
    rw [fails] at text
    exact nomatch text
  obtain ⟨token, after, next, kind, same, -, -⟩ := (outcomes n behind longest).1.mpr fits
  rw [next] at text
  refine ⟨isTrivia, isDigit, ⟨n, behind, token, after, longest, fits.1, fits.2, next, kind, same,
    same.symm.trans (Option.some.inj text)⟩, m, later, ?_⟩
  cases next : (cursor tooLarge).next with
  | ok found =>
    rw [next] at nothing
    exact nomatch nothing
  | error failure =>
    exact ⟨failure, longest', (outcomes' m later longest').2.mp ⟨failure, next⟩, rfl⟩

end ResidualPolicy.Notation
