import ResidualPolicy.Notation.Source
import ResidualPolicy.Number
import ResidualPolicy.Text.Alphabetic
import ResidualPolicy.Text.Blank
import ResidualPolicy.Text.Debug
import ResidualPolicy.Text.Numeric

/-!
# Tokens of policy text

Policy text consists of lexemes and of trivia between them: blanks, commas, and comments from a
semicolon to the end of the line. `Piece.cut?` cuts one lexeme off a text that does not begin with
trivia, and `lex` does so up to the end of the text or to the first fault. Nothing is lost on the way:
a lexeme and the text behind it make up the text that it was cut off (`Piece.append_of_cut`).
-/

namespace ResidualPolicy.Notation

/-! ## Faults -/

/-- What can be wrong with policy text. The first six are found in a lexeme, the others in the way
lexemes follow each other. -/
inductive Fault where
  | emptyKeyword
  | unmatchedQuote
  | invalidEscape
  | invalidNumber
  | unreadableNumber (reason : Number.Unreadable)
  | unexpectedCharacter (c : Char)
  | invalidString
  | unexpectedSymbol (text : List Char)
  | missingClose (text : List Char)
  | unevenMap
  | unexpectedEnd
  | trailingInput
  deriving DecidableEq, Repr

/-- Wording of a fault. -/
def Fault.message : Fault → String
  | .emptyKeyword => "empty keyword"
  | .unmatchedQuote => "unmatched \""
  | .invalidEscape => "invalid escape sequence"
  | .invalidNumber => "invalid number"
  | .unreadableNumber reason => "invalid number. " ++ reason.message
  | .unexpectedCharacter c => "unexpected character `" ++ String.singleton c ++ "`"
  | .invalidString => "invalid string."
  | .unexpectedSymbol text => "unexpected `" ++ String.ofList text ++ "`"
  | .missingClose text => "missing `" ++ String.ofList text ++ "`"
  | .unevenMap => "map literal must contain an even number of forms"
  | .unexpectedEnd => "unexpected end of input"
  | .trailingInput => "unexpected input after expression"

/-- A fault and the place that it is reported at. -/
structure Failure where
  line : Nat
  column : Nat
  fault : Fault
  deriving DecidableEq, Repr

/-- The diagnostic of a failure. -/
def Source.report (source : Source) (failure : Failure) : String :=
  source.error failure.line failure.column failure.fault.message

/-- A fault at a place of the text. -/
def Position.fail (p : Position) (fault : Fault) : Failure :=
  ⟨p.line, p.column, fault⟩

/-! ## Lexemes -/

/-- What sort of lexeme a token comes from. -/
inductive TokenKind where
  /-- A bracket, or the opener of a set. -/
  | symbol
  | string
  | number
  /-- A colon and a name. -/
  | keyword
  /-- A name that stands alone. -/
  | word
  /-- The end of the text. -/
  | eof
  deriving DecidableEq, Repr

/-- Characters of keywords and words: letters and numbers of any script and some signs. -/
def isWordChar (c : Char) : Bool :=
  Text.isAlphabetic c || Text.isNumeric c || "-_./?!*+<>=&%$'".toList.contains c

/-- Characters that must not follow a number directly. -/
def extendsNumber (c : Char) : Bool :=
  c == '_' || c == '.' || Text.isAlphabetic c || Text.isNumeric c

/-- Splits leading trivia off a text. `comment` says whether the text begins inside a comment. -/
def splitTrivia (comment : Bool) : List Char → List Char × List Char
  | [] => ([], [])
  | c :: rest =>
    if comment || Text.isBlank c || c == ',' || c == ';' then
      let stillComment := (comment || c == ';') && c != '\n'
      let (trivia, behind) := splitTrivia stillComment rest
      (c :: trivia, behind)
    else ([], c :: rest)

/-- Splits the characters of a class off a text. -/
def splitWhile (inClass : Char → Bool) (cs : List Char) : List Char × List Char :=
  (cs.takeWhile inClass, cs.dropWhile inClass)

/-- Splits a minus sign off a number. -/
def splitMinus : List Char → List Char × List Char
  | '-' :: rest => (['-'], rest)
  | rest => ([], rest)

/-- Splits the whole part off a number. A zero is a whole part of its own. -/
def splitWhole : List Char → List Char × List Char
  | '0' :: rest => (['0'], rest)
  | rest => splitWhile Char.isDigit rest

/-- Splits a point and the digits behind it off a number; a point needs a digit behind it. -/
def splitFraction : List Char → List Char × List Char
  | '.' :: digit :: rest =>
    if digit.isDigit then
      ('.' :: digit :: rest.takeWhile Char.isDigit, rest.dropWhile Char.isDigit)
    else ([], '.' :: digit :: rest)
  | rest => ([], rest)

/-- Splits the sign off an exponent. -/
def splitExponentSign : List Char → List Char × List Char
  | '+' :: rest => (['+'], rest)
  | '-' :: rest => (['-'], rest)
  | rest => ([], rest)

/-- Splits an exponent off a number. Its digits may be missing, which is found out when the number is
read. -/
def splitExponent : List Char → List Char × List Char
  | [] => ([], [])
  | mark :: rest =>
    if mark == 'e' || mark == 'E' then
      let (sign, behindSign) := splitExponentSign rest
      let (digits, behind) := splitWhile Char.isDigit behindSign
      (mark :: (sign ++ digits), behind)
    else ([], mark :: rest)

/-- Splits a number off a text that begins with one. -/
def splitNumber (cs : List Char) : List Char × List Char :=
  let (minus, behindMinus) := splitMinus cs
  let (whole, behindWhole) := splitWhole behindMinus
  let (fraction, behindFraction) := splitFraction behindWhole
  let (exponent, behind) := splitExponent behindFraction
  (minus ++ whole ++ fraction ++ exponent, behind)

/-- Letters that may follow a backslash inside a string. -/
def isEscapeLetter (c : Char) : Bool :=
  "\"\\/bfnrtu".toList.contains c

/-- Splits the rest of a string, up to and with its closing quote, off a text. A string without one is
reported at `opening`, where it begins, a wrong escape at the character behind its backslash. -/
def splitString (opening here : Position) : List Char → Except Failure (List Char × List Char)
  | [] => .error (opening.fail .unmatchedQuote)
  | '\\' :: [] => .error ((here.next '\\').fail .invalidEscape)
  | '\\' :: letter :: rest =>
    if isEscapeLetter letter then do
      let (body, behind) ← splitString opening (here.after ['\\', letter]) rest
      pure ('\\' :: letter :: body, behind)
    else .error ((here.next '\\').fail .invalidEscape)
  | c :: rest =>
    if c = '"' then .ok ([c], rest)
    else do
      let (body, behind) ← splitString opening (here.next c) rest
      pure (c :: body, behind)

/-- A lexeme cut off a text. -/
structure Piece where
  kind : TokenKind
  lexeme : List Char
  /-- The text behind the lexeme. -/
  behind : List Char
  deriving DecidableEq, Repr

/-- Whether a character is a symbol of its own. -/
def isBracket (c : Char) : Bool :=
  c == '[' || c == ']' || c == '(' || c == ')' || c == '\x7b' || c == '\x7d'

/-- Whether a number begins with `c`, `rest` being the text behind it. -/
def startsNumber (c : Char) (rest : List Char) : Bool :=
  c.isDigit || (c == '-' && rest.head?.any Char.isDigit)

/-- Cuts a keyword off a text, `rest` being the text behind its colon. -/
def cutKeyword (here : Position) (rest : List Char) : Except Failure Piece :=
  let (name, behind) := splitWhile isWordChar rest
  if name.isEmpty then .error (here.fail .emptyKeyword) else .ok ⟨.keyword, ':' :: name, behind⟩

/-- Cuts a number off a text that begins with one. It must end where its lexeme ends, and it must have
a value. -/
def cutNumber (here : Position) (cs : List Char) : Except Failure Piece :=
  let (lexeme, behind) := splitNumber cs
  if behind.head?.any extendsNumber then .error ((here.after lexeme).fail .invalidNumber)
  else
    match Number.ofText? lexeme with
    | none => .error (here.fail (.unreadableNumber ⟨lexeme⟩))
    | some _ => .ok ⟨.number, lexeme, behind⟩

/-- Cuts a word off a text that begins with the word character `c`. -/
def cutWord (c : Char) (rest : List Char) : Piece :=
  let (more, behind) := splitWhile isWordChar rest
  ⟨.word, c :: more, behind⟩

/-- Cuts the first lexeme off a text that begins with `c` and does not begin with trivia. -/
def Piece.cut? (here : Position) (c : Char) (rest : List Char) : Except Failure Piece :=
  if isBracket c then .ok ⟨.symbol, [c], rest⟩
  else if c = '#' ∧ rest.head? = some '\x7b' then .ok ⟨.symbol, ['#', '\x7b'], rest.drop 1⟩
  else if c = ':' then cutKeyword here rest
  else if c = '"' then do
    let (body, behind) ← splitString here (here.next c) rest
    pure ⟨.string, c :: body, behind⟩
  else if startsNumber c rest then cutNumber here (c :: rest)
  else if isWordChar c then .ok (cutWord c rest)
  else .error (here.fail (.unexpectedCharacter c))

/-! ## Nothing is lost -/

theorem append_splitTrivia (comment : Bool) (cs : List Char) :
    (splitTrivia comment cs).1 ++ (splitTrivia comment cs).2 = cs := by
  induction cs generalizing comment with
  | nil => rfl
  | cons c rest ih =>
    simp only [splitTrivia]
    split
    · simp [ih]
    · rfl

theorem append_splitWhile (inClass : Char → Bool) (cs : List Char) :
    (splitWhile inClass cs).1 ++ (splitWhile inClass cs).2 = cs :=
  List.takeWhile_append_dropWhile

theorem append_splitMinus (cs : List Char) : (splitMinus cs).1 ++ (splitMinus cs).2 = cs := by
  unfold splitMinus
  split <;> rfl

theorem append_splitWhole (cs : List Char) : (splitWhole cs).1 ++ (splitWhole cs).2 = cs := by
  unfold splitWhole
  split
  · rfl
  · exact append_splitWhile _ _

theorem append_splitFraction (cs : List Char) :
    (splitFraction cs).1 ++ (splitFraction cs).2 = cs := by
  unfold splitFraction
  split
  · split
    · simp [List.takeWhile_append_dropWhile]
    · rfl
  · rfl

theorem append_splitExponentSign (cs : List Char) :
    (splitExponentSign cs).1 ++ (splitExponentSign cs).2 = cs := by
  unfold splitExponentSign
  split <;> rfl

theorem append_splitExponent (cs : List Char) :
    (splitExponent cs).1 ++ (splitExponent cs).2 = cs := by
  cases cs with
  | nil => rfl
  | cons mark rest =>
    simp only [splitExponent]
    split
    · have sign := append_splitExponentSign rest
      have digits := append_splitWhile Char.isDigit (splitExponentSign rest).2
      simp only [List.cons_append, List.append_assoc, digits, sign]
    · rfl

theorem append_splitNumber (cs : List Char) : (splitNumber cs).1 ++ (splitNumber cs).2 = cs := by
  simp only [splitNumber, List.append_assoc, append_splitExponent, append_splitFraction,
    append_splitWhole, append_splitMinus]

theorem append_of_splitString {opening here : Position} {cs body behind : List Char}
    (h : splitString opening here cs = .ok (body, behind)) : body ++ behind = cs := by
  fun_induction splitString opening here cs generalizing body with
  | case1 => simp at h
  | case2 => simp at h
  | case3 here letter rest _ ih =>
    cases found : splitString opening (here.after ['\\', letter]) rest with
    | error e => simp [found, bind, Except.bind] at h
    | ok split =>
      simp only [found, bind, Except.bind, pure, Except.pure, Except.ok.injEq, Prod.mk.injEq] at h
      obtain ⟨rfl, rfl⟩ := h
      simp [ih found]
  | case4 => simp at h
  | case5 here c rest =>
    simp only [Except.ok.injEq, Prod.mk.injEq] at h
    obtain ⟨rfl, rfl⟩ := h
    rfl
  | case6 here c rest _ _ _ ih =>
    cases found : splitString opening (here.next c) rest with
    | error e => simp [found, bind, Except.bind] at h
    | ok split =>
      simp only [found, bind, Except.bind, pure, Except.pure, Except.ok.injEq, Prod.mk.injEq] at h
      obtain ⟨rfl, rfl⟩ := h
      simp [ih found]

/-- A lexeme and the text behind it are the text that it was cut off. -/
theorem Piece.append_of_cut {here : Position} {c : Char} {rest : List Char} {piece : Piece}
    (h : Piece.cut? here c rest = .ok piece) : piece.lexeme ++ piece.behind = c :: rest := by
  unfold Piece.cut? at h
  split at h
  · simp only [Except.ok.injEq] at h
    subst h
    rfl
  split at h
  · rename_i hash
    simp only [Except.ok.injEq] at h
    subst h
    obtain ⟨rfl, brace⟩ := hash
    cases rest with
    | nil => simp at brace
    | cons d more =>
      simp only [List.head?_cons, Option.some.injEq] at brace
      simp [brace]
  split at h
  · rename_i colon
    subst colon
    simp only [cutKeyword] at h
    split at h
    · simp at h
    · simp only [Except.ok.injEq] at h
      subst h
      simp [append_splitWhile]
  split at h
  · cases found : splitString here (here.next c) rest with
    | error e => simp [found, bind, Except.bind] at h
    | ok split =>
      simp only [found, bind, Except.bind, pure, Except.pure, Except.ok.injEq] at h
      subst h
      simp [append_of_splitString found]
  split at h
  · simp only [cutNumber] at h
    split at h
    · simp at h
    · split at h
      · simp at h
      · simp only [Except.ok.injEq] at h
        subst h
        exact append_splitNumber _
  split at h
  · simp only [Except.ok.injEq] at h
    subst h
    simp [cutWord, append_splitWhile]
  · simp at h

/-- A number that begins takes at least one character. -/
theorem splitNumber_ne_nil {c : Char} {rest : List Char} (h : startsNumber c rest = true) :
    (splitNumber (c :: rest)).1 ≠ [] := by
  simp only [splitNumber]
  by_cases minus : c = '-'
  · subst minus
    simp [splitMinus]
  · have digit : c.isDigit = true := by
      simpa [startsNumber, minus] using h
    have noSign : splitMinus (c :: rest) = ([], c :: rest) := by
      unfold splitMinus
      split
      · rename_i same
        simp only [List.cons.injEq] at same
        exact absurd same.1 minus
      · rfl
    have whole : (splitWhole (c :: rest)).1 ≠ [] := by
      unfold splitWhole
      split
      · simp
      · simp [splitWhile, digit]
    simp [noSign, whole]

/-- Every cut takes at least one character. -/
theorem Piece.lexeme_ne_nil {here : Position} {c : Char} {rest : List Char} {piece : Piece}
    (h : Piece.cut? here c rest = .ok piece) : piece.lexeme ≠ [] := by
  unfold Piece.cut? at h
  split at h
  · simp only [Except.ok.injEq] at h
    simp [← h]
  split at h
  · simp only [Except.ok.injEq] at h
    simp [← h]
  split at h
  · simp only [cutKeyword] at h
    split at h
    · simp at h
    · simp only [Except.ok.injEq] at h
      simp [← h]
  split at h
  · cases found : splitString here (here.next c) rest with
    | error e => simp [found, bind, Except.bind] at h
    | ok split =>
      simp only [found, bind, Except.bind, pure, Except.pure, Except.ok.injEq] at h
      simp [← h]
  split at h
  · rename_i number
    simp only [cutNumber] at h
    split at h
    · simp at h
    · split at h
      · simp at h
      · simp only [Except.ok.injEq] at h
        simp only [← h]
        exact splitNumber_ne_nil number
  split at h
  · simp only [Except.ok.injEq] at h
    simp [← h, cutWord]
  · simp at h

/-- A cut leaves less text than there was. -/
theorem Piece.length_behind_lt {here : Position} {c : Char} {rest : List Char} {piece : Piece}
    (h : Piece.cut? here c rest = .ok piece) : piece.behind.length < (c :: rest).length := by
  rw [← Piece.append_of_cut h, List.length_append]
  have := List.length_pos_iff.mpr (Piece.lexeme_ne_nil h)
  omega

/-- Trivia takes nothing of the text behind it. -/
theorem length_behind_trivia_le (cs : List Char) : (splitTrivia false cs).2.length ≤ cs.length := by
  have whole := congrArg List.length (append_splitTrivia false cs)
  simp only [List.length_append] at whole
  omega

/-! ## Tokens -/

/-- A lexeme in its place. -/
structure Token where
  kind : TokenKind
  line : Nat
  column : Nat
  /-- Bytes before the token's text. -/
  first : Nat
  /-- Bytes up to the end of the token's text. -/
  last : Nat
  /-- The lexeme, without the colon of a keyword and the quotes of a string. -/
  text : List Char
  deriving DecidableEq, Repr

/-- A fault reported at a token. -/
def Token.fail (token : Token) (fault : Fault) : Failure :=
  ⟨token.line, token.column, fault⟩

/-- The token of a lexeme that begins at `here`. A keyword is reported at its colon, a string at the
first character inside its quotes. -/
def Piece.token (piece : Piece) (here : Position) : Token :=
  let stop := (here.after piece.lexeme).offset
  match piece.kind with
  | .keyword => ⟨.keyword, here.line, here.column, here.offset + 1, stop, piece.lexeme.drop 1⟩
  | .string =>
    ⟨.string, here.line, here.column + 1, here.offset + 1, stop - 1,
      (piece.lexeme.drop 1).dropLast⟩
  | kind => ⟨kind, here.line, here.column, here.offset, stop, piece.lexeme⟩

/-- The token at the end of the text. -/
def Position.eof (p : Position) : Token :=
  ⟨.eof, p.line, p.column, p.offset, p.offset, []⟩

/-- The tokens of a text, up to its end or to its first fault. -/
structure Lexed where
  tokens : List Token
  /-- The token at the end, or the fault. -/
  ending : Except Failure Token

/-- Splits a text that begins at `here` into tokens. -/
def lexFrom (here : Position) (cs : List Char) : Lexed :=
  let begun := here.after (splitTrivia false cs).1
  match h : (splitTrivia false cs).2 with
  | [] => ⟨[], .ok begun.eof⟩
  | c :: rest =>
    match cut : Piece.cut? begun c rest with
    | .error failure => ⟨[], .error failure⟩
    | .ok piece =>
      have : piece.behind.length < cs.length := by
        have shorter := Piece.length_behind_lt cut
        have trivia := length_behind_trivia_le cs
        rw [h] at trivia
        omega
      let next := lexFrom (begun.after piece.lexeme) piece.behind
      ⟨piece.token begun :: next.tokens, next.ending⟩
termination_by cs.length

/-- Splits a text into tokens. -/
def lex (cs : List Char) : Lexed :=
  lexFrom .start cs

/-- Place and text of a token for developers; of a long text the first thirty-two characters. -/
def Token.debug (token : Token) : String :=
  let place := toString token.line ++ ":" ++ toString token.column ++ " "
  let more := if token.text.length ≤ 32 then "" else "..."
  place ++ String.ofList (Text.debug (token.text.take 32)) ++ more

end ResidualPolicy.Notation
