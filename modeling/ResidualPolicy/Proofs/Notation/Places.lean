import ResidualPolicy.Proofs.Notation.Lexing
import ResidualPolicy.Proofs.Notation.Position

/-!
# Places of tokens

Trivia and lexemes by turns make up the text that has been read (`Reads`), and each token tells the
place of its lexeme (`Token.IsPlaced`). Both hold for one token wherever it stands
(`Piece.isPlaced_token`), hence for all tokens up to the end of the text or the first fault
(`Cursor.Lexes.exists_reads`).
-/

namespace ResidualPolicy.Notation

/-! ## Trivia -/

/-- Blanks, commas, and comments that end with their line. The last comment of a text needs no end. -/
inductive IsTrivia (final : Bool) : List Char → Prop
  | nil : IsTrivia final []
  | blank {c : Char} {rest : List Char} : Text.isBlank c = true ∨ c = ',' → IsTrivia final rest →
      IsTrivia final (c :: rest)
  | comment {body rest : List Char} : '\n' ∉ body → IsTrivia final rest →
      IsTrivia final (';' :: (body ++ '\n' :: rest))
  | unended {body : List Char} : final = true → '\n' ∉ body → IsTrivia final (';' :: body)

/-- What is split off inside a comment: the rest of the comment with the trivia behind it, or all of a
text that ends inside it. -/
def IsCommented (final : Bool) (cs : List Char) : Prop :=
  (∃ body rest, cs = body ++ '\n' :: rest ∧ '\n' ∉ body ∧ IsTrivia final rest) ∨
    (final = true ∧ '\n' ∉ cs)

theorem IsCommented.isTrivia {final : Bool} {cs : List Char} (h : IsCommented final cs) :
    IsTrivia final (';' :: cs) := by
  rcases h with ⟨body, rest, rfl, line, trivia⟩ | ⟨last, line⟩
  · exact .comment line trivia
  · exact .unended last line

/-- A comment goes on to the end of its line. -/
theorem splitTrivia_inside {c : Char} (h : c ≠ '\n') (rest : List Char) :
    splitTrivia true (c :: rest) = (c :: (splitTrivia true rest).1, (splitTrivia true rest).2) := by
  have still : (c != '\n') = true := bne_iff_ne.mpr h
  rw [splitTrivia, still]
  rfl

theorem splitTrivia_spec (cs : List Char) :
    IsTrivia (splitTrivia false cs).2.isEmpty (splitTrivia false cs).1 ∧
      IsCommented (splitTrivia true cs).2.isEmpty (splitTrivia true cs).1 := by
  induction cs with
  | nil => exact ⟨.nil, .inr ⟨rfl, List.not_mem_nil⟩⟩
  | cons c rest ih =>
    obtain ⟨trivia, commented⟩ := ih
    constructor
    · by_cases semicolon : c = ';'
      · subst semicolon
        exact commented.isTrivia
      · have apart : (c == ';') = false := beq_eq_false_iff_ne.mpr semicolon
        rw [splitTrivia, apart]
        split
        · next begins =>
          simp only [Bool.false_or, Bool.or_false, Bool.or_eq_true, beq_iff_eq] at begins
          exact .blank begins trivia
        · exact .nil
    · by_cases newline : c = '\n'
      · subst newline
        exact .inl ⟨[], _, rfl, List.not_mem_nil, trivia⟩
      · rw [splitTrivia_inside newline]
        rcases commented with ⟨body, behind, text, line, later⟩ | ⟨last, line⟩
        · refine .inl ⟨c :: body, behind, congrArg (c :: ·) text, ?_, later⟩
          exact List.not_mem_cons_of_ne_of_not_mem (Ne.symm newline) line
        · exact .inr ⟨last, List.not_mem_cons_of_ne_of_not_mem (Ne.symm newline) line⟩

theorem splitTrivia_comment {body : List Char} (line : '\n' ∉ body) (rest : List Char) :
    splitTrivia true (body ++ '\n' :: rest) =
      (body ++ '\n' :: (splitTrivia false rest).1, (splitTrivia false rest).2) := by
  induction body with
  | nil => rfl
  | cons c body ih =>
    rw [List.mem_cons, not_or] at line
    rw [List.cons_append, splitTrivia_inside (Ne.symm line.1), ih line.2]
    rfl

/-- Trivia is split off up to a character that begins none. -/
theorem IsTrivia.splitTrivia_append {trivia : List Char} (isTrivia : IsTrivia false trivia) {c : Char}
    (apart : beginsTrivia c = false) (rest : List Char) :
    splitTrivia false (trivia ++ c :: rest) = (trivia, c :: rest) := by
  induction isTrivia with
  | nil => exact splitTrivia_of_not apart rest
  | @blank d trivia blank _ ih =>
    have begins : (false || Text.isBlank d || d == ',' || d == ';') = true := by
      rcases blank with blank | comma
      · rw [blank]
        rfl
      · rw [comma]
        rfl
    have semicolon : (d == ';') = false := by
      rw [beq_eq_false_iff_ne]
      rintro rfl
      exact absurd blank (by decide)
    rw [List.cons_append, splitTrivia, if_pos begins, semicolon, Bool.false_or, Bool.false_and]
    dsimp only
    rw [ih]
  | @comment body trivia line _ ih =>
    have inside := splitTrivia_comment line (trivia ++ c :: rest)
    rw [ih] at inside
    have text : body ++ '\n' :: trivia ++ c :: rest = body ++ '\n' :: (trivia ++ c :: rest) :=
      List.append_assoc ..
    rw [List.cons_append, text]
    show (';' :: (splitTrivia true _).1, (splitTrivia true _).2) = _
    rw [inside]
  | unended last _ => exact absurd last Bool.false_ne_true

/-! ## Tokens in their places -/

/-- What comes before the text of a token in its lexeme. -/
def Token.lead (token : Token) : List Char :=
  match token.kind with
  | .keyword => [':']
  | .string => ['"']
  | _ => []

/-- What comes behind the text of a token in its lexeme. -/
def Token.tail (token : Token) : List Char :=
  match token.kind with
  | .string => ['"']
  | _ => []

/-- The text of a token with the colon of a keyword or the quotes of a string. -/
def Token.lexeme (token : Token) : List Char :=
  token.lead ++ token.text ++ token.tail

/-- The text before the place that a token is reported at, `before` being the text before its lexeme.
A keyword is reported at its colon, every other token at its text. -/
def Token.pointed (token : Token) (before : List Char) : List Char :=
  match token.kind with
  | .keyword => before
  | _ => before ++ token.lead

/-- A token tells its place rightly, `before` being the text before its lexeme. -/
structure Token.IsPlaced (token : Token) (before : List Char) : Prop where
  first : token.first = bytes (before ++ token.lead)
  last : token.last = bytes (before ++ token.lead ++ token.text)
  line : token.line = 1 + (token.pointed before).count '\n'
  column : token.column = 1 + (lineSoFar (token.pointed before)).length

theorem Piece.lexeme_token {piece : Piece} (shape : IsShape piece.kind piece.lexeme)
    (here : Position) : (piece.token here).lexeme = piece.lexeme := by
  obtain ⟨kind, lexeme, behind⟩ := piece
  cases shape with
  | symbol | number | word | keyword => exact List.append_nil _
  | string content =>
    show ['"'] ++ (content ++ ['"']).dropLast ++ ['"'] = _
    rw [List.dropLast_concat]
    rfl

theorem offset_after (before lexeme : List Char) :
    ((Position.start.after before).after lexeme).offset = bytes before + bytes lexeme := by
  rw [← Position.after_append, after_start, bytes_append]

/-- The token at the end of a text, or of a lexeme that is all text, is reported where it begins. -/
theorem isPlaced_of_plain {token : Token} {before : List Char} (pointed : token.pointed before = before)
    (lead : token.lead = []) (line : token.line = (Position.start.after before).line)
    (column : token.column = (Position.start.after before).column)
    (first : token.first = (Position.start.after before).offset)
    (last : token.last = ((Position.start.after before).after token.text).offset) :
    token.IsPlaced before := by
  rw [after_start] at line column first
  rw [offset_after] at last
  constructor
  · rw [lead, List.append_nil, first]
  · rw [lead, List.append_nil, bytes_append, last]
  · rw [pointed, line]
  · rw [pointed, column]

theorem Piece.isPlaced_token {piece : Piece} (shape : IsShape piece.kind piece.lexeme)
    (before : List Char) : (piece.token (Position.start.after before)).IsPlaced before := by
  obtain ⟨kind, lexeme, behind⟩ := piece
  cases shape with
  | symbol | number | word =>
    exact isPlaced_of_plain (List.append_nil before) rfl rfl rfl rfl rfl
  | keyword name =>
    constructor
    · show (Position.start.after before).offset + 1 = bytes (before ++ [':'])
      rw [after_start, bytes_append]
      rfl
    · show ((Position.start.after before).after (':' :: name)).offset = bytes (before ++ [':'] ++ name)
      rw [offset_after, List.append_assoc, bytes_append]
      rfl
    · show (Position.start.after before).line = _
      rw [after_start]
      rfl
    · show (Position.start.after before).column = _
      rw [after_start]
      rfl
  | string content =>
    have quote : lineSoFar (before ++ ['"']) = lineSoFar before ++ ['"'] :=
      lineSoFar_append (by decide) before
    constructor
    · show (Position.start.after before).offset + 1 = bytes (before ++ ['"'])
      rw [after_start, bytes_append]
      rfl
    · show ((Position.start.after before).after ('"' :: (content ++ ['"']))).offset - 1 =
        bytes (before ++ ['"'] ++ (content ++ ['"']).dropLast)
      have closed : bytes ('"' :: (content ++ ['"'])) = bytes (['"'] ++ content) + 1 :=
        bytes_append (['"'] ++ content) ['"']
      rw [offset_after, List.dropLast_concat, List.append_assoc, bytes_append, closed]
      rfl
    · show (Position.start.after before).line = 1 + (before ++ ['"']).count '\n'
      rw [after_start, List.count_append]
      rfl
    · show (Position.start.after before).column + 1 = 1 + (lineSoFar (before ++ ['"'])).length
      rw [after_start, quote, List.length_append]
      rfl

theorem Position.isPlaced_eof (before : List Char) :
    (Position.start.after before).eof.IsPlaced before :=
  isPlaced_of_plain (List.append_nil before) rfl rfl rfl rfl rfl

/-! ## All tokens -/

/-- Behind `before`, the tokens come one after another with trivia before each of them, and all these
make up the text. -/
inductive Reads : List Char → List Token → List Char → Prop
  | nil (before : List Char) : Reads before [] []
  | cons {before trivia read : List Char} {token : Token} {tokens : List Token} :
      IsTrivia (token.kind == .eof) trivia → token.IsPlaced (before ++ trivia) →
      Reads (before ++ trivia ++ token.lexeme) tokens read →
      Reads before (token :: tokens) (trivia ++ (token.lexeme ++ read))

/-- All tokens of a text before its first fault, the one at its end among them. -/
def Lexed.produced (lexed : Lexed) : List Token :=
  match lexed.ending with
  | .ok eof => lexed.tokens ++ [eof]
  | .error _ => lexed.tokens

/-- A token that comes next, with the trivia before it. -/
structure Cursor.Reaches (cursor after : Cursor) (before trivia : List Char) (token : Token) :
    Prop where
  rest : cursor.rest = trivia ++ (token.lexeme ++ after.rest)
  isTrivia : IsTrivia (token.kind == .eof) trivia
  placed : token.IsPlaced (before ++ trivia)
  here : after.here = Position.start.after (before ++ trivia ++ token.lexeme)
  final : token.kind = .eof → after.rest = []

theorem Cursor.exists_reaches {cursor after : Cursor} {token : Token} {before : List Char}
    (here : cursor.here = Position.start.after before) (next : cursor.next = .ok (token, after)) :
    ∃ trivia, cursor.Reaches after before trivia token := by
  obtain ⟨⟨trivia, behind⟩, split⟩ : ∃ pair, splitTrivia false cursor.rest = pair := ⟨_, rfl⟩
  have whole := append_splitTrivia false cursor.rest
  have isTrivia := (splitTrivia_spec cursor.rest).1
  have begun : cursor.begun = Position.start.after (before ++ (splitTrivia false cursor.rest).1) := by
    rw [Cursor.begun, here, Position.after_append]
  rw [split] at whole isTrivia begun
  have behind' : (splitTrivia false cursor.rest).2 = behind := congrArg Prod.snd split
  refine ⟨trivia, ?_⟩
  cases behind with
  | nil =>
    rw [next_of_nil behind', begun] at next
    cases next
    exact ⟨whole.symm, isTrivia, Position.isPlaced_eof _,
      congrArg _ (List.append_nil (before ++ trivia)).symm, fun _ => rfl⟩
  | cons c rest =>
    rw [next_of_cons behind', begun] at next
    cases cut : Piece.cut? (Position.start.after (before ++ trivia)) c rest with
    | error failure =>
      rw [cut] at next
      cases next
    | ok piece =>
      rw [cut] at next
      cases next
      have shape := Piece.isShape_of_cut cut
      have lexeme := Piece.lexeme_token shape (Position.start.after (before ++ trivia))
      have kind := Piece.token_kind_ne_eof cut
      constructor
      · rw [lexeme, Piece.append_of_cut cut, whole]
      · rw [beq_eq_false_iff_ne.mpr kind]
        exact isTrivia
      · exact Piece.isPlaced_token shape (before ++ trivia)
      · rw [lexeme, Position.after_append _ (before ++ trivia)]
      · exact fun ending => absurd ending kind

/-- Trivia and lexemes make up the text up to its end or to the first fault. -/
theorem Cursor.Lexes.exists_reads {cursor : Cursor} {lexed : Lexed} (lexes : cursor.Lexes lexed)
    (before : List Char) (here : cursor.here = Position.start.after before) :
    ∃ read behind, cursor.rest = read ++ behind ∧ Reads before lexed.produced read ∧
      (lexed.ending.isOk = true → behind = []) := by
  induction lexes generalizing before with
  | fails => exact ⟨[], _, rfl, .nil before, nofun⟩
  | @ends cursor after token next kind =>
    obtain ⟨trivia, reaches⟩ := exists_reaches here next
    refine ⟨trivia ++ (token.lexeme ++ []), [], ?_, .cons reaches.isTrivia reaches.placed (.nil _),
      fun _ => rfl⟩
    rw [reaches.rest, reaches.final kind, List.append_nil (trivia ++ _)]
  | @takes cursor after token later next _ _ ih =>
    obtain ⟨trivia, reaches⟩ := exists_reaches here next
    obtain ⟨read, behind, text, reads, final⟩ := ih _ reaches.here
    have produced : Lexed.produced ⟨token :: later.tokens, later.ending⟩ = token :: later.produced := by
      unfold Lexed.produced
      cases later.ending <;> rfl
    refine ⟨trivia ++ (token.lexeme ++ read), behind, ?_, ?_, final⟩
    · rw [reaches.rest, text, List.append_assoc, List.append_assoc]
    · rw [produced]
      exact .cons reaches.isTrivia reaches.placed reads

section
variable {before read : List Char} {tokens : List Token}

theorem Reads.exists_isPlaced (reads : Reads before tokens read) :
    ∀ token ∈ tokens, ∃ front rest, before ++ read = front ++ (token.lexeme ++ rest) ∧
      token.IsPlaced front := by
  induction reads with
  | nil => exact nofun
  | @cons before trivia read token tokens _ placed _ ih =>
    refine List.forall_mem_cons.mpr ⟨⟨before ++ trivia, read, ?_, placed⟩, fun later member => ?_⟩
    · rw [List.append_assoc]
    · obtain ⟨front, rest, text, laterPlaced⟩ := ih later member
      refine ⟨front, rest, ?_, laterPlaced⟩
      rw [← text, List.append_assoc, List.append_assoc]

theorem Token.IsPlaced.bounds {token : Token} (placed : token.IsPlaced before) :
    bytes before ≤ token.first ∧ token.first ≤ token.last ∧
      token.last ≤ bytes (before ++ token.lexeme) := by
  rw [placed.first, placed.last, Token.lexeme]
  simp only [bytes_append]
  omega

theorem Reads.le_first (reads : Reads before tokens read) :
    ∀ token ∈ tokens, bytes before ≤ token.first := by
  induction reads with
  | nil => exact nofun
  | @cons before trivia read token tokens _ placed _ ih =>
    have bounds := placed.bounds
    simp only [bytes_append] at bounds ih
    refine List.forall_mem_cons.mpr ⟨by omega, fun later member => ?_⟩
    have beyond := ih later member
    omega

/-- Tokens follow each other without overlap. -/
theorem Reads.pairwise (reads : Reads before tokens read) :
    tokens.Pairwise fun a b => a.last ≤ b.first := by
  induction reads with
  | nil => exact .nil
  | cons _ placed later ih =>
    refine .cons (fun other member => ?_) ih
    exact Nat.le_trans placed.bounds.2.2 (later.le_first other member)

end

/-! ## Places in a source -/

/-- A token lies in the text of a source, `before` being the text before its lexeme: its span between
two characters, its numbers within 32 bits, and its line the piece of the text around the place that it
is reported at, without the carriage returns at its end. -/
structure Token.LiesIn (token : Token) (source : Source) (before : List Char) : Prop where
  placed : token.IsPlaced before
  text : ∃ rest, source.text.toList = before ++ (token.lexeme ++ rest)
  span : token.first ≤ token.last ∧ token.last ≤ source.text.utf8ByteSize
  fits : token.last < UInt32.size ∧ token.line < UInt32.size ∧ token.column < UInt32.size
  line : ∃ ahead returns, source.text.toList = token.pointed before ++ ahead ∧
    lineSoFar (token.pointed before) ++ lineAhead ahead =
      source.line token.line ++ List.replicate returns '\x0d' ∧
    (source.line token.line).getLast? ≠ some '\x0d'

theorem Token.exists_pointed (token : Token) (before rest : List Char) :
    ∃ ahead, before ++ (token.lexeme ++ rest) = token.pointed before ++ ahead := by
  unfold pointed
  split
  · exact ⟨_, rfl⟩
  · exact ⟨token.text ++ token.tail ++ rest, by simp [lexeme]⟩

theorem Token.IsPlaced.liesIn {token : Token} {source : Source} {before rest : List Char}
    (placed : token.IsPlaced before) (text : source.text.toList = before ++ (token.lexeme ++ rest))
    (size : source.text.utf8ByteSize < sizeLimit) : token.LiesIn source before := by
  obtain ⟨ahead, pointed⟩ := token.exists_pointed before rest
  rw [← text] at pointed
  have total : bytes source.text.toList = source.text.utf8ByteSize := by
    rw [bytes, String.ofList_toList]
  have limit : sizeLimit + 1 = UInt32.size := rfl
  have last : token.last ≤ source.text.utf8ByteSize := by
    rw [← total, text, ← List.append_assoc, bytes_append]
    exact Nat.le_trans placed.bounds.2.2 (Nat.le_add_right ..)
  have length : (token.pointed before).length ≤ source.text.utf8ByteSize := by
    rw [← total, pointed, bytes_append]
    exact Nat.le_trans (length_le_bytes _) (Nat.le_add_right ..)
  have line : token.line < UInt32.size := by
    have counted := List.count_le_length (a := '\n') (l := token.pointed before)
    rw [placed.line]
    omega
  have column : token.column < UInt32.size := by
    have counted := length_lineSoFar_le (token.pointed before)
    rw [placed.column]
    omega
  obtain ⟨returns, cut, clean⟩ :=
    exists_returns (lineSoFar (token.pointed before) ++ lineAhead ahead)
  rw [← Source.line_of_append pointed, ← placed.line] at cut clean
  exact ⟨placed, ⟨rest, text⟩, ⟨placed.bounds.2.1, last⟩, ⟨by omega, line, column⟩,
    ahead, returns, pointed, cut, clean⟩

/-- The tokens of a source that is not too large: trivia and lexemes make up the text up to its end or
to the first fault, the spans follow each other, and each token lies in the text where it says. -/
theorem Source.tokens_lieIn (source : Source) (size : source.text.utf8ByteSize < sizeLimit) :
    let lexed := lex source.text.toList
    (∃ read behind, source.text.toList = read ++ behind ∧ Reads [] lexed.produced read ∧
        (lexed.ending.isOk = true → behind = [])) ∧
      lexed.produced.Pairwise (fun a b => a.last ≤ b.first) ∧
      ∀ token ∈ lexed.produced, ∃ before, token.LiesIn source before := by
  intro lexed
  have lexes : (Cursor.start source.text.toList).Lexes lexed := Cursor.lexes_lexFrom (.start _)
  obtain ⟨read, behind, text, reads, final⟩ := lexes.exists_reads [] rfl
  refine ⟨⟨read, behind, text, reads, final⟩, reads.pairwise, fun token member => ?_⟩
  obtain ⟨before, rest, front, placed⟩ := reads.exists_isPlaced token member
  have whole : source.text.toList = before ++ (token.lexeme ++ (rest ++ behind)) := by
    rw [List.nil_append] at front
    rw [← List.append_assoc token.lexeme, ← List.append_assoc, ← front]
    exact text
  exact ⟨before, placed.liesIn whole size⟩

/-- A keyword, a comment that ends in a carriage return, and a string of two lines with a character of
two bytes. -/
theorem Source.tokens_lieIn_of_lines :
    let source : Source := ⟨"policy", "[:a, ; one\x0d\n \"b\nβ\" -1.5\x0d"⟩
    let tokens := (lex source.text.toList).produced
    source.text.utf8ByteSize < sizeLimit ∧
      (tokens.map fun token => (token.line, token.column, token.first, token.last)) =
        [(1, 1, 0, 1), (1, 2, 2, 3), (2, 3, 14, 18), (3, 4, 20, 24), (3, 9, 25, 25)] ∧
      tokens.Pairwise (fun a b => a.last ≤ b.first) ∧
      ∀ token ∈ tokens, ∃ before, token.LiesIn source before := by
  intro source tokens
  have size : source.text.utf8ByteSize < sizeLimit := by decide +kernel
  exact ⟨size, by decide +kernel, (tokens_lieIn source size).2⟩

end ResidualPolicy.Notation
