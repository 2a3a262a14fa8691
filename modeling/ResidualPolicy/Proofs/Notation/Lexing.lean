import ResidualPolicy.Proofs.Notation.RoundTrip

/-!
# Lexing one token at a time

`lex` gives all tokens of a text at once. A cursor stands at a place of the text and gives the token
that comes next there; asked again and again, it gives the same tokens (`Cursor.lexes_lexFrom`). Each
time it fails, ends at the end of the text or takes at least one character
(`Cursor.advances_next`), so a text has no more tokens than characters
(`Cursor.Lexes.length_tokens_le`).
-/

namespace ResidualPolicy.Notation

/-! ## One token -/

/-- What is cut off of a string ends with its closing quote. -/
theorem exists_of_splitString {opening here : Position} {cs body behind : List Char}
    (h : splitString opening here cs = .ok (body, behind)) : ∃ content, body = content ++ ['"'] := by
  fun_induction splitString opening here cs generalizing body with
  | case1 | case2 | case4 => cases h
  | case3 here letter rest _ ih =>
    cases found : splitString opening (here.after ['\\', letter]) rest with
    | error failure => rw [found] at h; cases h
    | ok split =>
      obtain ⟨more, later⟩ := split
      rw [found] at h
      cases h
      obtain ⟨content, closed⟩ := ih found
      exact ⟨'\\' :: letter :: content, congrArg ('\\' :: letter :: ·) closed⟩
  | case5 here c rest =>
    cases h
    exact ⟨[], rfl⟩
  | case6 here c rest _ _ _ ih =>
    cases found : splitString opening (here.next c) rest with
    | error failure => rw [found] at h; cases h
    | ok split =>
      obtain ⟨more, later⟩ := split
      rw [found] at h
      cases h
      obtain ⟨content, closed⟩ := ih found
      exact ⟨c :: content, congrArg (c :: ·) closed⟩

/-- How the lexemes of each kind begin and end. -/
inductive IsShape : TokenKind → List Char → Prop
  | symbol (lexeme : List Char) : IsShape .symbol lexeme
  | string (content : List Char) : IsShape .string ('"' :: (content ++ ['"']))
  | number (lexeme : List Char) : IsShape .number lexeme
  | keyword (name : List Char) : IsShape .keyword (':' :: name)
  | word (lexeme : List Char) : IsShape .word lexeme

theorem Piece.isShape_of_cut {here : Position} {c : Char} {rest : List Char} {piece : Piece}
    (h : Piece.cut? here c rest = .ok piece) : IsShape piece.kind piece.lexeme := by
  unfold Piece.cut? at h
  split at h
  · cases h
    exact .symbol _
  split at h
  · cases h
    exact .symbol _
  split at h
  · next colon =>
    rw [cutKeyword] at h
    dsimp only at h
    split at h
    · cases h
    · cases h
      exact .keyword _
  split at h
  · next quote =>
    cases found : splitString here (here.next c) rest with
    | error failure => rw [found] at h; cases h
    | ok split =>
      obtain ⟨content, closed⟩ := exists_of_splitString found
      rw [found] at h
      cases h
      rw [quote, closed]
      exact .string content
  split at h
  · rw [cutNumber] at h
    dsimp only at h
    split at h
    · cases h
    · split at h
      · cases h
      · cases h
        exact .number _
  split at h
  · cases h
    exact .word _
  · cases h

/-- A lexeme is never the end of the text. -/
theorem Piece.kind_ne_eof {here : Position} {c : Char} {rest : List Char} {piece : Piece}
    (h : Piece.cut? here c rest = .ok piece) : piece.kind ≠ .eof := by
  intro ending
  have shape := Piece.isShape_of_cut h
  rw [ending] at shape
  exact nomatch shape

theorem Piece.token_kind_ne_eof {here : Position} {c : Char} {rest : List Char} {piece : Piece}
    (h : Piece.cut? here c rest = .ok piece) : (piece.token here).kind ≠ .eof := by
  rw [Piece.token_kind]
  exact Piece.kind_ne_eof h

/-- A place of a text, and the text from there on. -/
structure Cursor where
  here : Position
  rest : List Char

/-- Before the first character of a text. -/
def Cursor.start (cs : List Char) : Cursor :=
  ⟨.start, cs⟩

/-- The place behind the trivia that comes first. -/
def Cursor.begun (cursor : Cursor) : Position :=
  cursor.here.after (splitTrivia false cursor.rest).1

/-- The token that comes next, and the place behind it. -/
def Cursor.next (cursor : Cursor) : Except Failure (Token × Cursor) :=
  match (splitTrivia false cursor.rest).2 with
  | [] => .ok (cursor.begun.eof, ⟨cursor.begun, []⟩)
  | c :: rest =>
    (Piece.cut? cursor.begun c rest).map fun piece =>
      (piece.token cursor.begun, ⟨cursor.begun.after piece.lexeme, piece.behind⟩)

section
variable {cursor : Cursor}

theorem Cursor.next_of_nil (nothing : (splitTrivia false cursor.rest).2 = []) :
    cursor.next = .ok (cursor.begun.eof, ⟨cursor.begun, []⟩) := by
  rw [next, nothing]

theorem Cursor.next_of_cons {c : Char} {rest : List Char}
    (behind : (splitTrivia false cursor.rest).2 = c :: rest) :
    cursor.next =
      (Piece.cut? cursor.begun c rest).map fun piece =>
        (piece.token cursor.begun, ⟨cursor.begun.after piece.lexeme, piece.behind⟩) := by
  rw [next, behind]

end

/-- What may come of asking a cursor for a token. -/
inductive Cursor.Advances (cursor : Cursor) : Except Failure (Token × Cursor) → Prop
  | fails (failure : Failure) : Advances cursor (.error failure)
  | ends {finish : Position} : finish = cursor.here.after cursor.rest →
      Advances cursor (.ok (finish.eof, ⟨finish, []⟩))
  | takes {token : Token} {taken : List Char} {after : Cursor} : token.kind ≠ .eof → taken ≠ [] →
      cursor.rest = taken ++ after.rest → after.here = cursor.here.after taken →
      Advances cursor (.ok (token, after))

theorem Cursor.advances_next (cursor : Cursor) : cursor.Advances cursor.next := by
  have whole := append_splitTrivia false cursor.rest
  cases behind : (splitTrivia false cursor.rest).2 with
  | nil =>
    rw [behind, List.append_nil] at whole
    rw [next_of_nil behind]
    exact .ends (congrArg cursor.here.after whole)
  | cons c rest =>
    rw [next_of_cons behind]
    cases cut : Piece.cut? cursor.begun c rest with
    | error failure => exact .fails failure
    | ok piece =>
      have occupied : (splitTrivia false cursor.rest).1 ++ piece.lexeme ≠ [] :=
        List.append_ne_nil_of_right_ne_nil _ (Piece.lexeme_ne_nil cut)
      refine .takes (Piece.token_kind_ne_eof cut) occupied ?_ ?_
      · rw [List.append_assoc, Piece.append_of_cut cut, ← behind, whole]
      · rw [Position.after_append, begun]

/-! ## All tokens -/

/-- What asking for tokens again and again gives. -/
inductive Cursor.Lexes : Cursor → Lexed → Prop
  | fails {cursor : Cursor} {failure : Failure} : cursor.next = .error failure →
      Lexes cursor ⟨[], .error failure⟩
  | ends {cursor after : Cursor} {token : Token} : cursor.next = .ok (token, after) →
      token.kind = .eof → Lexes cursor ⟨[], .ok token⟩
  | takes {cursor after : Cursor} {token : Token} {later : Lexed} :
      cursor.next = .ok (token, after) → token.kind ≠ .eof → Lexes after later →
      Lexes cursor ⟨token :: later.tokens, later.ending⟩

/-- The text is split into the tokens that come one after another. -/
theorem Cursor.lexes_lexFrom (cursor : Cursor) : cursor.Lexes (lexFrom cursor.here cursor.rest) := by
  generalize size : cursor.rest.length = n
  induction n using Nat.strongRecOn generalizing cursor with
  | ind n ih =>
    rw [lexFrom_eq, ← begun]
    cases behind : (splitTrivia false cursor.rest).2 with
    | nil => exact .ends (next_of_nil behind) rfl
    | cons c rest =>
      have next := next_of_cons behind
      rw [lexBehind]
      cases cut : Piece.cut? cursor.begun c rest with
      | error failure => exact .fails (by rw [next, cut]; rfl)
      | ok piece =>
        rw [cut] at next
        have shorter : piece.behind.length < n := by
          have cutLength := Piece.length_behind_lt cut
          have trivia := length_behind_trivia_le cursor.rest
          rw [behind] at trivia
          omega
        exact .takes next (Piece.token_kind_ne_eof cut) (ih _ shorter _ rfl)

/-- Every token takes at least one character. -/
theorem Cursor.Lexes.length_tokens_le {cursor : Cursor} {lexed : Lexed} (lexes : cursor.Lexes lexed) :
    lexed.tokens.length ≤ cursor.rest.length := by
  induction lexes with
  | fails | ends => exact Nat.zero_le _
  | @takes cursor after token later next kind _ ih =>
    have advances := cursor.advances_next
    rw [next] at advances
    cases advances with
    | ends => exact absurd rfl kind
    | @takes _ taken _ _ occupied text _ =>
      have some := List.length_pos_iff.mpr occupied
      rw [text, List.length_append, List.length_cons]
      omega

end ResidualPolicy.Notation
