import ResidualPolicy.Proofs.Notation.Lexeme
import ResidualPolicy.Proofs.Value.Induction
import ResidualPolicy.Proofs.Value.Navigation
import ResidualPolicy.Proofs.Value.Parts

/-!
# Reading undoes writing

A printed value is read back as an equal value (`Source.read_text`). The proof follows the printed
text: wherever it stands, with whatever brackets open around it, reading it amounts to completing a
value that equals the printed one (`Spells`), provided that a delimiter or nothing follows and that no
fault follows directly, since closing a bracket looks one token ahead.
-/

namespace ResidualPolicy.Notation

/-! ## Lexing step by step -/

/-- Splits a text that does not begin with trivia into tokens. -/
def lexBehind (begun : Position) : List Char → Lexed
  | [] => ⟨[], .ok begun.eof⟩
  | c :: rest =>
    match Piece.cut? begun c rest with
    | .error failure => ⟨[], .error failure⟩
    | .ok piece =>
      let next := lexFrom (begun.after piece.lexeme) piece.behind
      ⟨piece.token begun :: next.tokens, next.ending⟩

theorem lexFrom_eq (here : Position) (cs : List Char) :
    lexFrom here cs =
      lexBehind (here.after (splitTrivia false cs).1) (splitTrivia false cs).2 := by
  rw [lexFrom]
  split
  · next blank => rw [blank, lexBehind]
  · next c rest behind =>
    have begins : lexBehind (here.after (splitTrivia false cs).1) (splitTrivia false cs).2 =
        lexBehind (here.after (splitTrivia false cs).1) (c :: rest) := congrArg _ behind
    rw [begins, lexBehind]
    split
    · next failed => rw [failed]
    · next found =>
      dsimp only
      rw [found]

/-- A blank or a comma in front of a text only moves it. -/
theorem lexFrom_trivia (here : Position) {c : Char} (trivia : c = ' ' ∨ c = ',')
    (cs : List Char) : lexFrom here (c :: cs) = lexFrom (here.next c) cs := by
  have split : splitTrivia false (c :: cs) =
      (c :: (splitTrivia false cs).1, (splitTrivia false cs).2) := by
    rcases trivia with rfl | rfl <;> rfl
  rw [lexFrom_eq, lexFrom_eq, split]
  rfl

theorem lexFrom_of_cut {here : Position} {rest : List Char} {c : Char} {piece : Piece}
    (begins : beginsTrivia c = false) (cut : Piece.cut? here c rest = .ok piece) :
    lexFrom here (c :: rest) =
      ⟨piece.token here :: (lexFrom (here.after piece.lexeme) piece.behind).tokens,
        (lexFrom (here.after piece.lexeme) piece.behind).ending⟩ := by
  rw [lexFrom_eq, splitTrivia_of_not begins, Position.after_nil, lexBehind, cut]

/-! ## Reading step by step -/

/-- Reads on from a place of the text, inside the given open brackets. -/
def readText (here : Position) (frames : List Frame) (cs : List Char) : Except Failure Value :=
  readFrom (lexFrom here cs).ending frames (lexFrom here cs).tokens

/-- Reads on when a value has been completed inside the given open brackets. -/
def resumeText (here : Position) (frames : List Frame) (v : Value) (cs : List Char) :
    Except Failure Value :=
  match frames with
  | frame :: outer => readText here ({ frame with items := v :: frame.items } :: outer) cs
  | [] =>
    match (lexFrom here cs).ending, (lexFrom here cs).tokens with
    | _, extra :: _ => .error (extra.fail .trailingInput)
    | .error failure, [] => .error failure
    | .ok _, [] => .ok v

/-- Whether a fault follows directly. -/
def faultAhead (here : Position) (cs : List Char) : Except Failure Unit :=
  faultBehind (lexFrom here cs).ending (lexFrom here cs).tokens

section
variable {here : Position} {c : Char} {rest : List Char} {piece : Piece} {frames : List Frame}

theorem readText_opened (begins : beginsTrivia c = false) (cut : Piece.cut? here c rest = .ok piece)
    {frame : Frame}
    (opened : move (faultAhead (here.after piece.lexeme) piece.behind) frames (piece.token here) =
      .ok (.opened frame)) :
    readText here frames (c :: rest) =
      readText (here.after piece.lexeme) (frame :: frames) piece.behind := by
  unfold readText
  unfold faultAhead at opened
  rw [lexFrom_of_cut begins cut, readFrom, opened]

theorem readText_completed (begins : beginsTrivia c = false)
    (cut : Piece.cut? here c rest = .ok piece) {v : Value} {outer : List Frame}
    (completed : move (faultAhead (here.after piece.lexeme) piece.behind) frames
      (piece.token here) = .ok (.completed v outer)) :
    readText here frames (c :: rest) =
      resumeText (here.after piece.lexeme) outer v piece.behind := by
  unfold readText
  unfold faultAhead at completed
  rw [lexFrom_of_cut begins cut, readFrom, completed]
  cases outer <;> rfl

theorem faultAhead_of_cut (begins : beginsTrivia c = false)
    (cut : Piece.cut? here c rest = .ok piece) : faultAhead here (c :: rest) = .ok () := by
  rw [faultAhead, lexFrom_of_cut begins cut]
  rfl

end

/-! ## Separators -/

/-- A text of blanks and commas. -/
def IsSeparator (separator : List Char) : Prop :=
  separator ≠ [] ∧ ∀ c ∈ separator, c = ' ' ∨ c = ','

theorem isSeparator_blank : IsSeparator [' '] :=
  ⟨nofun, List.forall_mem_singleton.mpr (.inl rfl)⟩

theorem isSeparator_comma : IsSeparator [',', ' '] :=
  ⟨nofun, List.forall_mem_cons.mpr ⟨.inr rfl, isSeparator_blank.2⟩⟩

theorem lexFrom_separator {separator : List Char} (trivia : ∀ c ∈ separator, c = ' ' ∨ c = ',')
    (here : Position) (cs : List Char) :
    lexFrom here (separator ++ cs) = lexFrom (here.after separator) cs := by
  induction separator generalizing here with
  | nil => rfl
  | cons c separator ih =>
    obtain ⟨first, others⟩ := List.forall_mem_cons.mp trivia
    rw [List.cons_append, lexFrom_trivia here first, ih others]
    rfl

/-! ## What a text spells -/

/-- What a value may be followed by: a delimiter or nothing, with no fault directly behind. -/
structure Follows (rest : List Char) : Prop where
  delimited : Delimited rest
  faultless : ∀ here, faultAhead here rest = .ok ()

/-- To read the text is to complete the value, wherever the text stands. -/
structure Spells (cs : List Char) (v : Value) : Prop where
  begins : ∀ here rest, Delimited rest → faultAhead here (cs ++ rest) = .ok ()
  reads : ∀ here frames rest, Follows rest →
    ∃ there, readText here frames (cs ++ rest) = resumeText there frames v rest

/-- To read the text is to add the values to the innermost open bracket. -/
structure SpellsAll (cs : List Char) (vs : List Value) : Prop where
  begins : ∀ here rest, Follows rest → faultAhead here (cs ++ rest) = .ok ()
  reads : ∀ here frame outer rest, Follows rest → ∃ there,
    readText here (frame :: outer) (cs ++ rest) =
      readText there ({ frame with items := vs.reverse ++ frame.items } :: outer) rest

theorem Spells.spellsAll {cs : List Char} {v : Value} (spells : Spells cs v) :
    SpellsAll cs [v] where
  begins here rest follows := spells.begins here rest follows.delimited
  reads here frame outer rest follows := spells.reads here (frame :: outer) rest follows

theorem spellsAll_nil : SpellsAll [] [] where
  begins here _ follows := follows.faultless here
  reads here _ _ _ _ := ⟨here, rfl⟩

/-- Texts with a separator between them spell the values of both. -/
theorem SpellsAll.append {cs ds : List Char} {vs ws : List Value} (first : SpellsAll cs vs)
    (second : SpellsAll ds ws) {separator : List Char} (separates : IsSeparator separator) :
    SpellsAll (cs ++ separator ++ ds) (vs ++ ws) := by
  obtain ⟨occupied, trivia⟩ := separates
  have follows (rest : List Char) (behind : Follows rest) : Follows (separator ++ (ds ++ rest)) := by
    refine ⟨?_, fun here => ?_⟩
    · obtain ⟨c, more, rfl⟩ := List.exists_cons_of_ne_nil occupied
      refine delimited_cons _ ?_
      rcases trivia c List.mem_cons_self with rfl | rfl <;> decide
    · rw [faultAhead, lexFrom_separator trivia]
      exact second.begins _ rest behind
  constructor
  · intro here rest behind
    rw [List.append_assoc, List.append_assoc]
    exact first.begins here _ (follows rest behind)
  · intro here frame outer rest behind
    obtain ⟨there, read⟩ := first.reads here frame outer _ (follows rest behind)
    obtain ⟨beyond, again⟩ := second.reads (there.after separator)
      { frame with items := vs.reverse ++ frame.items } outer rest behind
    refine ⟨beyond, ?_⟩
    rw [List.append_assoc, List.append_assoc, read, readText, lexFrom_separator trivia, ← readText,
      again, List.reverse_append, List.append_assoc]

theorem spellsAll_separated {separator : List Char} (separates : IsSeparator separator)
    {css : List (List Char)} {vss : List (List Value)} (each : List.Forall₂ SpellsAll css vss) :
    SpellsAll (separated separator css) vss.flatten := by
  induction each with
  | nil => exact spellsAll_nil
  | @cons cs vs css vss first rest ih =>
    cases rest with
    | nil => simpa [separated, List.intercalate] using first
    | cons second later =>
      rw [separated, List.intercalate_cons_cons]
      exact first.append ih separates

/-! ## Values of one lexeme -/

theorem Piece.token_kind (piece : Piece) (here : Position) :
    (piece.token here).kind = piece.kind := by
  unfold Piece.token
  cases piece.kind <;> rfl

/-- A token that is no symbol completes its value. -/
theorem move_atom {token : Token} (atomic : token.kind ≠ .symbol) {v : Value}
    (atom : token.atom = .ok v) (lookahead : Except Failure Unit) (frames : List Frame) :
    move lookahead frames token = .ok (.completed v frames) := by
  have completed : move.openOrAtom frames token = .ok (.completed v frames) := by
    unfold move.openOrAtom
    rw [atom]
    split
    · next symbol _ => exact absurd symbol atomic
    · rfl
  cases frames with
  | nil => exact completed
  | cons frame outer =>
    have apart : closes token (frame :: outer) = false := by
      rw [closes, beq_eq_false_iff_ne.mpr atomic, Bool.false_and]
    rw [move, apart]
    exact completed

theorem IsLexeme.spells {kind : TokenKind} {cs : List Char} (lexeme : IsLexeme kind cs)
    (atomic : kind ≠ .symbol) {v : Value}
    (atom : ∀ here rest, (Piece.token ⟨kind, cs, rest⟩ here).atom = .ok v) : Spells cs v := by
  obtain ⟨c, body, rfl, begins, cut⟩ := lexeme
  constructor
  · exact fun here rest ends => faultAhead_of_cut begins (cut here rest ends)
  · intro here frames rest follows
    have cut := cut here rest follows.delimited
    have kept : (Piece.token ⟨kind, c :: body, rest⟩ here).kind ≠ .symbol := by
      rw [Piece.token_kind]
      exact atomic
    exact ⟨_, readText_completed begins cut (move_atom kept (atom here rest) _ frames)⟩

theorem spells_null : Spells (text .null) .null :=
  isLexeme_null.spells nofun fun _ _ => rfl

theorem spells_bool (b : Bool) : Spells (text (.bool b)) (.bool b) := by
  refine (isLexeme_bool b).spells nofun fun _ _ => ?_
  cases b <;> rfl

theorem spells_word {n : Number} {word : Int64} (integer : n.toInt64? = some word) :
    Spells (text (.number n)) (.number (.int word)) := by
  have written : text (.number n) = Double.intText word.toInt := by
    rw [text, Number.text, Number.textIn, integer]
  rw [written]
  refine (isLexeme_intText word).spells nofun fun here rest => ?_
  simp only [Token.atom, Piece.token, ofText?_intText]

theorem spells_string (s : String) : Spells (text (.string s)) (.string s) := by
  refine (isLexeme_quote s.toList).spells nofun fun here rest => ?_
  have content : ((Json.quote s.toList).drop 1).dropLast = Json.escapeAll s.toList := by
    simp [Json.quote]
  have read := Json.unquote_quote s.toList []
  rw [List.append_nil, Json.quote] at read
  simp only [Token.atom, Piece.token, content, read, String.ofList_toList]

/-- A key is spelled as a keyword where it is a name. -/
theorem spells_name (s : String) : Spells (nameText s) (.string s) := by
  unfold nameText
  split
  · next name =>
    refine (isLexeme_keyword name).spells nofun fun here rest => ?_
    simp only [Token.atom, Piece.token, List.drop_succ_cons, List.drop_zero, String.ofList_toList]
  · exact spells_string s

/-! ## Brackets -/

/-- The symbol that opens a bracket. -/
def Bracket.opening : Bracket → List Char
  | .vector => ['[']
  | .list => ['(']
  | .set => ['#', '\x7b']
  | .map => ['\x7b']

theorem Bracket.cut_opening (bracket : Bracket) :
    ∃ c more, bracket.opening = c :: more ∧ beginsTrivia c = false ∧
      ∀ here rest, Piece.cut? here c (more ++ rest) = .ok ⟨.symbol, bracket.opening, rest⟩ := by
  cases bracket <;> exact ⟨_, _, rfl, rfl, fun _ _ => rfl⟩

theorem Bracket.cut_closing (bracket : Bracket) :
    ∃ c, bracket.closing = [c] ∧ c ∈ delimiters ∧ beginsTrivia c = false ∧
      ∀ here rest, Piece.cut? here c rest = .ok ⟨.symbol, bracket.closing, rest⟩ := by
  cases bracket <;> exact ⟨_, rfl, by decide, rfl, fun _ _ => rfl⟩

theorem move_opening (bracket : Bracket) {token : Token} (symbol : token.kind = .symbol)
    (opening : token.text = bracket.opening) (lookahead : Except Failure Unit)
    (frames : List Frame) :
    move lookahead frames token = .ok (.opened ⟨token, bracket, []⟩) := by
  have opened : move.openOrAtom frames token = .ok (.opened ⟨token, bracket, []⟩) := by
    unfold move.openOrAtom
    rw [symbol, opening]
    cases bracket <;> rfl
  cases frames with
  | nil => exact opened
  | cons frame outer =>
    have apart : closes token (frame :: outer) = false := by
      rw [closes, symbol, opening]
      cases bracket <;> cases frame.bracket <;> rfl
    rw [move, apart]
    exact opened

theorem move_closing {token : Token} {frame : Frame} (symbol : token.kind = .symbol)
    (closing : token.text = frame.bracket.closing) {v : Value} (closed : frame.close = .ok v)
    (outer : List Frame) : move (.ok ()) (frame :: outer) token = .ok (.completed v outer) := by
  have matched : closes token (frame :: outer) = true := by
    rw [closes, symbol, closing, BEq.rfl, BEq.rfl]
    rfl
  rw [move, matched, if_pos rfl, closed]
  rfl

/-- The values in a bracket spell the value that the bracket makes of them. -/
theorem SpellsAll.bracket {cs : List Char} {vs : List Value} (spells : SpellsAll cs vs)
    {bracket : Bracket} {v : Value}
    (closed : ∀ opener, Frame.close ⟨opener, bracket, vs.reverse⟩ = .ok v) :
    Spells (bracket.opening ++ (cs ++ bracket.closing)) v := by
  obtain ⟨c, more, opening, begins, cut⟩ := bracket.cut_opening
  obtain ⟨d, closing, delimits, ends, cutClosing⟩ := bracket.cut_closing
  constructor
  · intro here rest _
    rw [opening, List.cons_append, List.cons_append, List.append_assoc]
    exact faultAhead_of_cut begins (cut here _)
  · intro here frames rest follows
    have behind : Follows (d :: rest) :=
      ⟨delimited_cons rest delimits, fun here => faultAhead_of_cut ends (cutClosing here rest)⟩
    let opener := Piece.token ⟨.symbol, bracket.opening, cs ++ d :: rest⟩ here
    obtain ⟨there, read⟩ := spells.reads (here.after bracket.opening) ⟨opener, bracket, []⟩ frames
      (d :: rest) behind
    have opened : readText here frames (c :: (more ++ (cs ++ d :: rest))) =
        readText (here.after bracket.opening) (⟨opener, bracket, []⟩ :: frames) (cs ++ d :: rest) :=
      readText_opened begins (cut here _) (move_opening bracket rfl rfl _ frames)
    have completed : readText there (⟨opener, bracket, vs.reverse⟩ :: frames) (d :: rest) =
        resumeText (there.after bracket.closing) frames v rest := by
      refine readText_completed ends (cutClosing there rest) ?_
      rw [follows.faultless]
      exact move_closing rfl rfl (closed opener) frames
    refine ⟨there.after bracket.closing, ?_⟩
    rw [List.append_nil] at read
    rw [closing, opening, List.append_assoc, List.append_assoc, List.singleton_append,
      List.cons_append, opened, read, ← closing, completed]

/-! ## All values -/

/-- A text is read as a value that equals `v`, and as `v` itself if all numbers in `v` are held as
integers. A double that is an integer is read as an integer. -/
def Denotes (cs : List Char) (v : Value) : Prop :=
  ∃ w, Spells cs w ∧ compare w v = .eq ∧ (v.HoldsIntegers → w = v)

theorem Spells.denotes {cs : List Char} {v : Value} (spells : Spells cs v) : Denotes cs v :=
  ⟨v, spells, Std.ReflOrd.compare_self, fun _ => rfl⟩

/-- A key is written as what it denotes. -/
theorem denotes_keyText {k : Value} (denotes : Denotes (text k) k) : Denotes (keyText k) k := by
  cases k with
  | string s => exact (spells_name s).denotes
  | _ => exact denotes

/-- Texts that denote values, with blanks between them, spell values that equal those. -/
theorem spellsAll_of_denotes {css : List (List Char)} {vs : List Value}
    (each : List.Forall₂ Denotes css vs) :
    ∃ ws, SpellsAll (separated [' '] css) ws ∧ List.Forall₂ (fun w v => compare w v = .eq) ws vs ∧
      ((∀ v ∈ vs, v.HoldsIntegers) → ws = vs) := by
  have values : ∃ ws, List.Forall₂ SpellsAll css (ws.map fun w => [w]) ∧
      List.Forall₂ (fun w v => compare w v = .eq) ws vs ∧
      ((∀ v ∈ vs, v.HoldsIntegers) → ws = vs) := by
    induction each with
    | nil => exact ⟨[], .nil, .nil, fun _ => rfl⟩
    | cons first _ ih =>
      obtain ⟨w, spells, same, kept⟩ := first
      obtain ⟨ws, others, alike, keptAll⟩ := ih
      refine ⟨w :: ws, .cons spells.spellsAll others, .cons same alike, fun held => ?_⟩
      obtain ⟨here, there⟩ := List.forall_mem_cons.mp held
      rw [kept here, keptAll there]
  obtain ⟨ws, spelled, rest⟩ := values
  have all := spellsAll_separated isSeparator_blank spelled
  rw [← List.flatMap_def, List.flatMap_singleton'] at all
  exact ⟨ws, all, rest⟩

/-- Texts between brackets denote the array of what they denote. -/
theorem denotes_bracketed {css : List (List Char)} {vs : List Value}
    (each : List.Forall₂ Denotes css vs) : Denotes (bracketed css) (.array vs) := by
  obtain ⟨ws, spells, same, kept⟩ := spellsAll_of_denotes each
  have closed (opener : Token) : Frame.close ⟨opener, .vector, ws.reverse⟩ = .ok (.array ws) := by
    rw [Frame.close, List.reverse_reverse]
  refine ⟨.array ws, spells.bracket closed, Value.compareItems_eq_eq_iff.mpr same, fun held => ?_⟩
  rw [kept (Value.forall_numbers_array.mp held)]

theorem denotes_itemTexts {items : List Value} (each : ∀ v ∈ items, Denotes (text v) v) :
    List.Forall₂ Denotes (itemTexts items) items := by
  rw [itemTexts_eq_map, List.forall₂_map_left_iff, List.forall₂_same]
  exact each

theorem entryTexts_eq_map (entries : List (Value × Value)) :
    entryTexts entries = entries.map fun entry => keyText entry.1 ++ [' '] ++ text entry.2 := by
  induction entries with
  | nil => rfl
  | cons entry rest ih =>
    obtain ⟨key, field⟩ := entry
    cases key <;> simp [entryTexts, keyText, ih]

theorem pairUp_flatMap (entries : List (Value × Value)) :
    pairUp (entries.flatMap fun entry => [entry.1, entry.2]) = some entries := by
  induction entries with
  | nil => rfl
  | cons entry rest ih =>
    show (pairUp (rest.flatMap fun entry => [entry.1, entry.2])).map _ = _
    rw [ih]
    rfl

/-- The texts of the entries of an object spell keys and fields that equal those. -/
theorem spellsAll_entries {entries : List (Value × Value)}
    (each : ∀ entry ∈ entries, Denotes (text entry.1) entry.1 ∧ Denotes (text entry.2) entry.2) :
    ∃ ws : List (Value × Value),
      SpellsAll (separated [',', ' '] (entryTexts entries))
        (ws.flatMap fun entry => [entry.1, entry.2]) ∧
      List.Forall₂ (fun w entry => compare w.1 entry.1 = .eq ∧ compare w.2 entry.2 = .eq)
        ws entries ∧
      ((∀ entry ∈ entries, entry.1.HoldsIntegers ∧ entry.2.HoldsIntegers) → ws = entries) := by
  have pairs : ∃ ws : List (Value × Value),
      List.Forall₂ SpellsAll (entries.map fun entry => keyText entry.1 ++ [' '] ++ text entry.2)
        (ws.map fun w => [w.1, w.2]) ∧
      List.Forall₂ (fun w entry => compare w.1 entry.1 = .eq ∧ compare w.2 entry.2 = .eq)
        ws entries ∧
      ((∀ entry ∈ entries, entry.1.HoldsIntegers ∧ entry.2.HoldsIntegers) → ws = entries) := by
    induction entries with
    | nil => exact ⟨[], .nil, .nil, fun _ => rfl⟩
    | cons entry rest ih =>
      obtain ⟨⟨ofKey, ofField⟩, later⟩ := List.forall_mem_cons.mp each
      obtain ⟨key, spellsKey, sameKey, keptKey⟩ := denotes_keyText ofKey
      obtain ⟨field, spellsField, sameField, keptField⟩ := ofField
      obtain ⟨ws, others, alike, keptAll⟩ := ih later
      refine ⟨(key, field) :: ws,
        .cons (spellsKey.spellsAll.append spellsField.spellsAll isSeparator_blank) others,
        .cons ⟨sameKey, sameField⟩ alike, fun held => ?_⟩
      obtain ⟨here, there⟩ := List.forall_mem_cons.mp held
      rw [keptKey here.1, keptField here.2, keptAll there]
  obtain ⟨ws, spelled, rest⟩ := pairs
  have all := spellsAll_separated isSeparator_comma spelled
  rw [← entryTexts_eq_map, ← List.flatMap_def] at all
  exact ⟨ws, all, rest⟩

/-- Every ordered value of integers is denoted by its text. -/
theorem denotes_text {v : Value} (ordered : v.IsOrdered)
    (integral : ∀ n ∈ v.numbers, n.isInteger = true) : Denotes (text v) v := by
  induction v with
  | null => exact spells_null.denotes
  | bool b => exact (spells_bool b).denotes
  | number n =>
    have own : n ∈ (Value.number n).numbers := List.mem_singleton_self n
    obtain ⟨word, integer⟩ := Option.isSome_iff_exists.mp (integral n own)
    refine ⟨.number (.int word), spells_word integer, Number.compare_int_of_toInt64? integer,
      fun held => ?_⟩
    obtain ⟨held, rfl⟩ := held n own
    rw [Option.some.inj integer]
  | string s => exact (spells_string s).denotes
  | array items ih =>
    rw [Value.isOrdered_array] at ordered
    rw [Value.forall_numbers_array] at integral
    exact denotes_bracketed (denotes_itemTexts fun v member =>
      ih v member (ordered v member) (integral v member))
  | set members ih =>
    rw [Value.isOrdered_set] at ordered
    rw [Value.forall_numbers_set] at integral
    obtain ⟨ascending, ordered⟩ := ordered
    obtain ⟨ws, spells, same, kept⟩ := spellsAll_of_denotes (denotes_itemTexts fun v member =>
      ih v member (ordered v member) (integral v member))
    have inOrder := Ascending.ofMembers_of_ascending (Ascending.isAscending_congr same ascending)
    have closed (opener : Token) : Frame.close ⟨opener, .set, ws.reverse⟩ = .ok (.set ws) := by
      rw [Frame.close, List.reverse_reverse, Value.ofMembers, inOrder]
    refine ⟨.set ws, spells.bracket closed, Value.compareItems_eq_eq_iff.mpr same, fun held => ?_⟩
    rw [kept (Value.forall_numbers_set.mp held)]
  | object entries ih =>
    rw [Value.isOrdered_object] at ordered
    rw [Value.forall_numbers_object] at integral
    obtain ⟨ascending, ordered⟩ := ordered
    obtain ⟨ws, spells, same, kept⟩ := spellsAll_entries fun entry member =>
      ⟨(ih entry member).1 (ordered entry member).1 (integral entry member).1,
        (ih entry member).2 (ordered entry member).2 (integral entry member).2⟩
    have keys : List.Forall₂ (fun x y => compare x y = .eq) (Ascending.keys ws)
        (Ascending.keys entries) := by
      rw [Ascending.keys, Ascending.keys, List.forall₂_map_left_iff, List.forall₂_map_right_iff]
      exact same.imp fun _ _ both => both.1
    have inOrder := Ascending.ofEntries_of_ascending (Ascending.isAscending_congr keys ascending)
    have closed (opener : Token) :
        Frame.close ⟨opener, .map, (ws.flatMap fun w => [w.1, w.2]).reverse⟩ = .ok (.object ws) := by
      rw [Frame.close, List.reverse_reverse, pairUp_flatMap]
      exact congrArg (fun entries => Except.ok (Value.object entries)) inOrder
    refine ⟨.object ws, spells.bracket closed, Value.compareEntries_eq_eq_iff.mpr same,
      fun held => ?_⟩
    rw [kept (Value.forall_numbers_object.mp held)]

/-- The text of `v` spells a value that equals it. -/
def SpellsSame (v w : Value) : Prop :=
  Spells (text v) w ∧ compare w v = .eq

/-- Every ordered value of integers is spelled by its text, up to equality. -/
theorem exists_spellsSame {v : Value} (ordered : v.IsOrdered)
    (integral : ∀ n ∈ v.numbers, n.isInteger = true) : ∃ w, SpellsSame v w := by
  obtain ⟨w, spells, same, -⟩ := denotes_text ordered integral
  exact ⟨w, spells, same⟩

/-- A text that spells a value is read as that value. -/
theorem read?_of_spells {cs : List Char} {v : Value} (spells : Spells cs v) : read? cs = .ok v := by
  have nothing (here : Position) : lexFrom here [] = ⟨[], .ok here.eof⟩ := lexFrom_eq here []
  have ends : Follows [] := ⟨delimited_nil, fun here => by rw [faultAhead, nothing]; rfl⟩
  obtain ⟨there, read⟩ := spells.reads .start [] [] ends
  rw [List.append_nil, resumeText, nothing] at read
  exact read

/-- A text is read as what it denotes, unless it is too large. -/
theorem Denotes.exists_read {cs : List Char} {v : Value} (denotes : Denotes cs v)
    (size : (String.ofList cs).utf8ByteSize < sizeLimit) (name : String) :
    ∃ w, Source.read ⟨name, String.ofList cs⟩ = .ok w ∧ (w == v) = true ∧
      (v.HoldsIntegers → w = v) := by
  obtain ⟨w, spells, same, kept⟩ := denotes
  have equal : (compare w v == .eq) = true := beq_iff_eq.mpr same
  refine ⟨w, ?_, equal, kept⟩
  rw [Source.read, if_neg (Nat.not_le.mpr size), String.toList_ofList, read?_of_spells spells]
  rfl

/-- A printed value is read back as an equal value. -/
theorem exists_read_text {v : Value} (ordered : v.IsOrdered)
    (integral : ∀ n ∈ v.numbers, n.isInteger = true)
    (size : (String.ofList (text v)).utf8ByteSize < sizeLimit) (name : String) :
    ∃ w, Source.read ⟨name, String.ofList (text v)⟩ = .ok w ∧ (w == v) = true := by
  obtain ⟨w, spells, same⟩ := exists_spellsSame ordered integral
  have equal : (compare w v == .eq) = true := beq_iff_eq.mpr same
  refine ⟨w, ?_, equal⟩
  rw [Source.read, if_neg (Nat.not_le.mpr size), String.toList_ofList, read?_of_spells spells]
  rfl

/-- Keys of four kinds, among them a word of the notation and a text with escapes. -/
theorem exists_read_text_of_object :
    let v : Value := .object
      [(.null, .set [.bool false, .number (.int (-7)), .string ":a"]),
        (.number (.ofNat 0), .array [.string "true", .object []]),
        (.string "\n\"é\" \x7d", .string ""),
        (.string "true", .bool true)]
    v.IsOrdered ∧ (∀ n ∈ v.numbers, n.isInteger = true) ∧
      (String.ofList (text v)).utf8ByteSize < sizeLimit ∧
      ∃ w, Source.read ⟨"policy", String.ofList (text v)⟩ = .ok w ∧ (w == v) = true := by
  intro v
  have ordered : v.IsOrdered := by decide +kernel
  have integral : ∀ n ∈ v.numbers, n.isInteger = true := by decide +kernel
  have size : (String.ofList (text v)).utf8ByteSize < sizeLimit := by decide +kernel
  exact ⟨ordered, integral, size, exists_read_text ordered integral size "policy"⟩

end ResidualPolicy.Notation
