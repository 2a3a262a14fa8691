import ResidualPolicy.Proofs.Json.Quoted
import ResidualPolicy.Proofs.Notation.Lexing

/-!
# The grammar of policy notation

Tokens are forms one after another: atoms, and forms between brackets (`Forms`). Reading accepts one
form and nothing else, and gives the value that it denotes (`readFrom_eq_ok_iff`). Reading keeps a stack
of open brackets, so the proof says what a stack still demands of the tokens behind a value (`DemandsBehind`):
each bracket some forms and its closing symbol, the outermost one nothing more.
-/

namespace ResidualPolicy.Notation

/-! ## Forms -/

/-- A token is a symbol of that text. -/
structure Token.IsSymbol (token : Token) (text : List Char) : Prop where
  kind : token.kind = .symbol
  text : token.text = text

/-- A token stands for a value of its own. -/
inductive IsAtom (token : Token) : Value → Prop
  | string {content : List Char} : token.kind = .string → Json.IsContent token.text content →
      IsAtom token (.string (.ofList content))
  | number {n : Number} : token.kind = .number → Number.ofText? token.text = some n →
      IsAtom token (.number n)
  | keyword : token.kind = .keyword → IsAtom token (.string (.ofList token.text))
  | true : token.kind = .word → token.text = "true".toList → IsAtom token (.bool true)
  | false : token.kind = .word → token.text = "false".toList → IsAtom token (.bool false)
  | null : token.kind = .word → token.text = "nil".toList → IsAtom token .null
  | word : token.kind = .word → token.text ∉ ["true".toList, "false".toList, "nil".toList] →
      IsAtom token (.string (.ofList token.text))

/-- What a bracket with these values inside denotes. -/
inductive Bracket.Makes : Bracket → List Value → Value → Prop
  | vector (vs : List Value) : Makes .vector vs (.array vs)
  | list (vs : List Value) : Makes .list vs (.array vs)
  | set (vs : List Value) : Makes .set vs (.ofMembers vs)
  | map (entries : List (Value × Value)) :
      Makes .map (entries.flatMap fun entry => [entry.1, entry.2]) (.ofEntries entries)

/-- The tokens are forms one after another, which denote the values. -/
inductive Forms : List Token → List Value → Prop
  | nil : Forms [] []
  | atom {token : Token} {v : Value} {ts : List Token} {vs : List Value} : IsAtom token v →
      Forms ts vs → Forms (token :: ts) (v :: vs)
  | bracket {opener closer : Token} {bracket : Bracket} {inside ts : List Token}
      {members vs : List Value} {v : Value} : opener.IsSymbol bracket.opening →
      Forms inside members → closer.IsSymbol bracket.closing → bracket.Makes members v →
      Forms ts vs → Forms (opener :: (inside ++ closer :: ts)) (v :: vs)

/-- The tokens are one form, which denotes the value. -/
def IsForm (ts : List Token) (v : Value) : Prop :=
  Forms ts [v]

/-! ## Atoms and brackets -/

theorem isAtom_wordValue {token : Token} (kind : token.kind = .word) :
    IsAtom token (wordValue token.text) := by
  unfold wordValue
  split
  · next text => exact .true kind text
  split
  · next text => exact .false kind text
  split
  · next text => exact .null kind text
  next notTrue notFalse notNull =>
  refine .word kind ?_
  simp only [List.mem_cons, List.not_mem_nil, or_false, not_or]
  exact ⟨notTrue, notFalse, notNull⟩

theorem atom_eq_ok_iff {token : Token} {v : Value} : token.atom = .ok v ↔ IsAtom token v := by
  constructor
  · intro h
    unfold Token.atom at h
    split at h
    · exact nomatch h
    · next kind =>
      split at h
      · next content read =>
        cases h
        exact .string kind (Json.unquote_eq_some_iff.mp read)
      · exact nomatch h
    · next kind =>
      split at h
      · next n known =>
        cases h
        exact .number kind known
      · exact nomatch h
    · next kind =>
      cases h
      exact .keyword kind
    · next kind =>
      cases h
      exact isAtom_wordValue kind
    · exact nomatch h
  · intro h
    unfold Token.atom
    cases h with
    | string kind content => rw [kind, Json.unquote_eq_some_iff.mpr content]
    | number kind known => rw [kind, known]
    | keyword kind => rw [kind]
    | true kind text | false kind text | null kind text => rw [kind, text]; rfl
    | word kind other =>
      simp only [List.mem_cons, List.not_mem_nil, or_false, not_or] at other
      rw [kind, wordValue, if_neg other.1, if_neg other.2.1, if_neg other.2.2]

theorem IsAtom.kind_ne_symbol {token : Token} {v : Value} (h : IsAtom token v) :
    token.kind ≠ .symbol := by
  intro symbol
  cases h with
  | string kind | number kind | keyword kind | true kind | false kind | null kind | word kind =>
    rw [symbol] at kind
    exact nomatch kind

theorem ofOpening?_eq_some_iff {text : List Char} {bracket : Bracket} :
    Bracket.ofOpening? text = some bracket ↔ text = bracket.opening := by
  constructor
  · intro h
    unfold Bracket.ofOpening? at h
    repeat' split at h
    all_goals first
      | (cases h; assumption)
      | exact nomatch h
  · rintro rfl
    cases bracket <;> rfl

theorem flatMap_of_pairUp {vs : List Value} {entries : List (Value × Value)}
    (h : pairUp vs = some entries) : vs = entries.flatMap fun entry => [entry.1, entry.2] := by
  fun_induction pairUp vs generalizing entries with
  | case1 => cases h; rfl
  | case2 => exact nomatch h
  | case3 k v rest ih =>
    obtain ⟨later, paired, rfl⟩ := Option.map_eq_some_iff.mp h
    rw [List.flatMap_cons, ← ih paired]
    rfl

theorem close_eq_ok_iff {frame : Frame} {v : Value} :
    frame.close = .ok v ↔ frame.bracket.Makes frame.items.reverse v := by
  obtain ⟨opener, bracket, items⟩ := frame
  unfold Frame.close
  dsimp only
  cases bracket with
  | vector =>
    exact ⟨fun h => Except.ok.inj h ▸ .vector _, fun h => by cases h; rfl⟩
  | list => exact ⟨fun h => Except.ok.inj h ▸ .list _, fun h => by cases h; rfl⟩
  | set => exact ⟨fun h => Except.ok.inj h ▸ .set _, fun h => by cases h; rfl⟩
  | map =>
    dsimp only
    constructor
    · intro h
      split at h
      · next entries paired =>
        cases h
        rw [flatMap_of_pairUp paired]
        exact .map entries
      · exact nomatch h
    · intro h
      generalize items.reverse = vs at h
      cases h with
      | map entries => rw [pairUp_flatMap]

/-! ## What one token does -/

/-- What a token may do inside the given brackets. -/
inductive Moves (token : Token) : List Frame → Move → Prop
  | closes {frame : Frame} {outer : List Frame} {v : Value} :
      token.IsSymbol frame.bracket.closing → frame.bracket.Makes frame.items.reverse v →
      Moves token (frame :: outer) (.completed v outer)
  | opens {frames : List Frame} {bracket : Bracket} : token.IsSymbol bracket.opening →
      Moves token frames (.opened ⟨token, bracket, []⟩)
  | atom {frames : List Frame} {v : Value} : IsAtom token v →
      Moves token frames (.completed v frames)

theorem moves_of_move {lookahead : Except Failure Unit} {frames : List Frame} {token : Token}
    {m : Move} (h : move lookahead frames token = .ok m) : Moves token frames m := by
  have other (h : move.openOrAtom frames token = .ok m) : Moves token frames m := by
    unfold move.openOrAtom at h
    split at h
    · next bracket kind opening =>
      cases h
      exact .opens ⟨kind, ofOpening?_eq_some_iff.mp opening⟩
    · cases found : token.atom with
      | error failure => rw [found] at h; cases h
      | ok v =>
        rw [found] at h
        cases h
        exact .atom (atom_eq_ok_iff.mp found)
  cases frames with
  | nil => exact other h
  | cons frame outer =>
    rw [move] at h
    split at h
    · next matched =>
      rw [closes, Bool.and_eq_true, beq_iff_eq, beq_iff_eq] at matched
      cases lookahead with
      | error failure => cases h
      | ok _ =>
        cases closed : frame.close with
        | error failure => rw [closed] at h; cases h
        | ok v =>
          rw [closed] at h
          cases h
          exact .closes ⟨matched.1, matched.2⟩ (close_eq_ok_iff.mp closed)
    · exact other h

/-! ## Forms are read -/

section
variable {ending : Except Failure Token}

theorem readFrom_atom {token : Token} {v : Value} (isAtom : IsAtom token v) (frame : Frame)
    (outer : List Frame) (rest : List Token) :
    readFrom ending (frame :: outer) (token :: rest) =
      readFrom ending ({ frame with items := v :: frame.items } :: outer) rest := by
  have moved := move_atom isAtom.kind_ne_symbol (atom_eq_ok_iff.mpr isAtom)
    (faultBehind ending rest) (frame :: outer)
  rw [readFrom, moved]

theorem readFrom_opening {opener : Token} {bracket : Bracket}
    (opens : opener.IsSymbol bracket.opening) (frames : List Frame) (rest : List Token) :
    readFrom ending frames (opener :: rest) =
      readFrom ending (⟨opener, bracket, []⟩ :: frames) rest := by
  have moved := move_opening bracket opens.kind opens.text (faultBehind ending rest) frames
  rw [readFrom, moved]

theorem move_closer {closer : Token} {frame : Frame} {v : Value} {rest : List Token}
    (closes : closer.IsSymbol frame.bracket.closing)
    (makes : frame.bracket.Makes frame.items.reverse v)
    (faultless : faultBehind ending rest = .ok ()) (outer : List Frame) :
    move (faultBehind ending rest) (frame :: outer) closer = .ok (.completed v outer) := by
  rw [faultless]
  exact move_closing closes.kind closes.text (close_eq_ok_iff.mpr makes) outer

/-- Inside a bracket, forms add their values to it. -/
theorem readFrom_forms {ts : List Token} {vs : List Value} (forms : Forms ts vs) (frame : Frame)
    (outer : List Frame) {rest : List Token} (faultless : faultBehind ending rest = .ok ()) :
    readFrom ending (frame :: outer) (ts ++ rest) =
      readFrom ending ({ frame with items := vs.reverse ++ frame.items } :: outer) rest := by
  induction forms generalizing frame outer rest with
  | nil => rfl
  | atom isAtom _ ih =>
    rw [List.cons_append, readFrom_atom isAtom, ih _ outer faultless, List.reverse_cons,
      List.append_assoc, List.singleton_append]
  | @bracket opener closer bracket inside ts members vs v opens _ closes makes _ ihInside ih =>
    have ahead : faultBehind ending (ts ++ rest) = .ok () := by
      cases ts with
      | nil => exact faultless
      | cons => rfl
    have inner : (⟨opener, bracket, members.reverse ++ []⟩ : Frame).bracket.Makes
        (members.reverse ++ []).reverse v := by
      rw [List.append_nil, List.reverse_reverse]
      exact makes
    rw [List.cons_append, readFrom_opening opens, List.append_assoc, ihInside _ (frame :: outer) rfl,
      List.cons_append, readFrom, move_closer closes inner ahead]
    dsimp only
    rw [ih _ outer faultless, List.reverse_cons, List.append_assoc, List.singleton_append]

/-- What becomes of a complete form that stands in no bracket. -/
def finish (ending : Except Failure Token) (v : Value) : List Token → Except Failure Value
  | [] => ending.map fun _ => v
  | extra :: _ => .error (extra.fail .trailingInput)

theorem readFrom_of_completed {token : Token} {frames : List Frame} {v : Value} {rest : List Token}
    (moved : move (faultBehind ending rest) frames token = .ok (.completed v [])) :
    readFrom ending frames (token :: rest) = finish ending v rest := by
  rw [readFrom, moved]
  cases rest with
  | nil => cases ending <;> rfl
  | cons => rfl

theorem readFrom_closer {closer : Token} {frame : Frame} {v : Value}
    (closes : closer.IsSymbol frame.bracket.closing)
    (makes : frame.bracket.Makes frame.items.reverse v) (rest : List Token) :
    readFrom ending [frame] (closer :: rest) = finish ending v rest := by
  cases rest with
  | cons => exact readFrom_of_completed (move_closer closes makes rfl [])
  | nil =>
    cases ending with
    | ok => exact readFrom_of_completed (move_closer closes makes rfl [])
    | error failure =>
      -- Closing a bracket looks ahead, so the fault behind it comes first.
      have matched : Notation.closes closer [frame] = true := by
        rw [Notation.closes, closes.kind, closes.text, BEq.rfl, BEq.rfl]
        rfl
      rw [readFrom, move, matched]
      rfl

/-- One form is read, and whatever is behind it is one too many. -/
theorem readFrom_form {ts : List Token} {v : Value} (form : IsForm ts v) (rest : List Token) :
    readFrom ending [] (ts ++ rest) = finish ending v rest := by
  cases form with
  | atom isAtom none =>
    cases none
    exact readFrom_of_completed
      (move_atom isAtom.kind_ne_symbol (atom_eq_ok_iff.mpr isAtom) _ [])
  | @bracket opener closer bracket inside ts members vs v opens forms closes makes none =>
    cases none
    rw [List.cons_append, readFrom_opening opens, List.append_assoc, List.singleton_append,
      readFrom_forms forms _ [] rfl]
    refine readFrom_closer closes ?_ rest
    rw [List.append_nil, List.reverse_reverse]
    exact makes

end

/-! ## What is read is a form -/

/-- What the open brackets demand of the tokens behind a value, if it is to end up in `w`. -/
def DemandsBehind : List Frame → Value → List Token → Value → Prop
  | [], v, rest, w => rest = [] ∧ v = w
  | frame :: outer, v, rest, w => ∃ inside vs closer later u, rest = inside ++ closer :: later ∧
      Forms inside vs ∧ closer.IsSymbol frame.bracket.closing ∧
      frame.bracket.Makes (frame.items.reverse ++ v :: vs) u ∧ DemandsBehind outer u later w

/-- What the open brackets demand of the tokens from here on, if they are to end up in `w`. -/
def Demands : List Frame → List Token → Value → Prop
  | [], ts, w => IsForm ts w
  | frame :: outer, ts, w => ∃ inside vs closer later u, ts = inside ++ closer :: later ∧
      Forms inside vs ∧ closer.IsSymbol frame.bracket.closing ∧
      frame.bracket.Makes (frame.items.reverse ++ vs) u ∧ DemandsBehind outer u later w

theorem demandsBehind_iff {frame : Frame} {outer : List Frame} {v w : Value} {rest : List Token} :
    DemandsBehind (frame :: outer) v rest w ↔
      Demands ({ frame with items := v :: frame.items } :: outer) rest w := by
  rw [DemandsBehind, Demands, List.reverse_cons]
  simp only [List.append_assoc, List.singleton_append]

/-- A bracket that is opened is itself a form in the bracket around it. -/
theorem demands_of_opening {opener : Token} {bracket : Bracket}
    (opens : opener.IsSymbol bracket.opening) {frames : List Frame} {rest : List Token} {w : Value}
    (h : Demands (⟨opener, bracket, []⟩ :: frames) rest w) : Demands frames (opener :: rest) w := by
  obtain ⟨inside, members, closer, later, u, rfl, forms, closes, makes, outside⟩ := h
  cases frames with
  | nil =>
    obtain ⟨rfl, rfl⟩ := outside
    exact .bracket opens forms closes makes .nil
  | cons frame outer =>
    obtain ⟨more, vs, outerCloser, last, t, rfl, others, closesOuter, makesOuter, behind⟩ := outside
    exact ⟨opener :: (inside ++ closer :: more), u :: vs, outerCloser, last, t, by simp,
      .bracket opens forms closes makes others, closesOuter, makesOuter, behind⟩

theorem demands_of_atom {token : Token} {v : Value} (isAtom : IsAtom token v) {frames : List Frame}
    {rest : List Token} {w : Value} (h : DemandsBehind frames v rest w) :
    Demands frames (token :: rest) w := by
  cases frames with
  | nil =>
    obtain ⟨rfl, rfl⟩ := h
    exact .atom isAtom .nil
  | cons frame outer =>
    obtain ⟨inside, vs, closer, later, u, rfl, forms, closes, makes, outside⟩ := h
    exact ⟨token :: inside, v :: vs, closer, later, u, rfl, .atom isAtom forms, closes, makes,
      outside⟩

theorem demands_of_closer {closer : Token} {frame : Frame} {v : Value}
    (closes : closer.IsSymbol frame.bracket.closing)
    (makes : frame.bracket.Makes frame.items.reverse v) {outer : List Frame} {rest : List Token}
    {w : Value} (h : DemandsBehind outer v rest w) : Demands (frame :: outer) (closer :: rest) w :=
  ⟨[], [], closer, rest, v, rfl, .nil, closes, (List.append_nil _).symm ▸ makes, h⟩

/-- Tokens that are read meet the demands of the open brackets, and they are all of the text. -/
theorem demands_of_readFrom {ending : Except Failure Token} {frames : List Frame} {ts : List Token}
    {w : Value} (h : readFrom ending frames ts = .ok w) :
    (∃ eof, ending = .ok eof) ∧ Demands frames ts w := by
  induction ts generalizing frames with
  | nil => cases ending <;> cases frames <;> cases h
  | cons token rest ih =>
    rw [readFrom] at h
    cases moved : move (faultBehind ending rest) frames token with
    | error failure => rw [moved] at h; cases h
    | ok m =>
      rw [moved] at h
      have moves := moves_of_move moved
      cases m with
      | opened frame =>
        obtain ⟨whole, demands⟩ := ih h
        cases moves with
        | opens opens => exact ⟨whole, demands_of_opening opens demands⟩
      | completed v outer =>
        have closed : (∃ eof, ending = .ok eof) ∧ DemandsBehind outer v rest w := by
          cases outer with
          | cons frame outer =>
            obtain ⟨whole, demands⟩ := ih h
            exact ⟨whole, demandsBehind_iff.mpr demands⟩
          | nil =>
            cases rest with
            | cons extra rest => cases h
            | nil =>
              cases ending with
              | error failure => cases h
              | ok eof => exact ⟨⟨eof, rfl⟩, rfl, Except.ok.inj h⟩
        obtain ⟨whole, closed⟩ := closed
        cases moves with
        | closes closes makes => exact ⟨whole, demands_of_closer closes makes closed⟩
        | atom isAtom => exact ⟨whole, demands_of_atom isAtom closed⟩

theorem readFrom_eq_ok_iff {ending : Except Failure Token} {ts : List Token} {v : Value} :
    readFrom ending [] ts = .ok v ↔ (∃ eof, ending = .ok eof) ∧ IsForm ts v := by
  constructor
  · exact demands_of_readFrom
  · rintro ⟨⟨eof, rfl⟩, form⟩
    have read : readFrom (.ok eof) [] (ts ++ []) = .ok v := readFrom_form form []
    rwa [List.append_nil] at read

/-! ## Brackets -/

/-- The brackets that are open behind a token, the latest first. A closing symbol must close the
bracket that was opened last. -/
def openAfter? (opened : List Bracket) (token : Token) : Option (List Bracket) :=
  if token.kind = .symbol then
    match Bracket.ofOpening? token.text with
    | some bracket => some (bracket :: opened)
    | none =>
      match opened with
      | bracket :: outer => if token.text = bracket.closing then some outer else none
      | [] => none
  else some opened

/-- The brackets that are left open behind some tokens, unless a closing symbol is out of place. -/
def leftOpen? (ts : List Token) : Option (List Bracket) :=
  ts.foldlM openAfter? []

theorem openAfter?_opening {token : Token} {bracket : Bracket}
    (opens : token.IsSymbol bracket.opening) (opened : List Bracket) :
    openAfter? opened token = some (bracket :: opened) := by
  unfold openAfter?
  rw [if_pos opens.kind, ofOpening?_eq_some_iff.mpr opens.text]

theorem openAfter?_closing {token : Token} {bracket : Bracket}
    (closes : token.IsSymbol bracket.closing) (outer : List Bracket) :
    openAfter? (bracket :: outer) token = some outer := by
  have apart : Bracket.ofOpening? bracket.closing = none := by
    cases bracket <;> rfl
  unfold openAfter?
  rw [if_pos closes.kind, closes.text, apart]
  exact if_pos rfl

/-- Forms leave open what was open before. -/
theorem foldlM_openAfter? {ts : List Token} {vs : List Value} (forms : Forms ts vs)
    (opened : List Bracket) : ts.foldlM openAfter? opened = some opened := by
  induction forms generalizing opened with
  | nil => rfl
  | @atom token v _ _ isAtom _ ih =>
    have kept : openAfter? opened token = some opened := if_neg isAtom.kind_ne_symbol
    rw [List.foldlM_cons, kept]
    exact ih opened
  | @bracket opener closer bracket inside ts _ _ _ opens _ closes _ _ ihInside ih =>
    have inner : (inside ++ closer :: ts).foldlM openAfter? (bracket :: opened) = some opened := by
      rw [List.foldlM_append, ihInside, Option.bind_eq_bind, Option.bind_some, List.foldlM_cons,
        openAfter?_closing closes]
      exact ih opened
    rw [List.foldlM_cons, openAfter?_opening opens]
    exact inner

/-! ## Reading a text -/

theorem read?_eq_ok_iff {cs : List Char} {v : Value} :
    read? cs = .ok v ↔ (∃ eof, (lex cs).ending = .ok eof) ∧ IsForm (lex cs).tokens v :=
  readFrom_eq_ok_iff

theorem Source.read_eq_ok_iff {source : Source} {v : Value} :
    source.read = .ok v ↔ source.text.utf8ByteSize < sizeLimit ∧ read? source.text.toList = .ok v := by
  rw [Source.read]
  split
  · next large => exact ⟨(by cases ·), fun h => absurd h.1 (Nat.not_lt.mpr large)⟩
  · next small =>
    have fits := Nat.lt_of_not_le small
    cases read? source.text.toList with
    | ok w => exact ⟨fun h => ⟨fits, congrArg Except.ok (Except.ok.inj h)⟩, fun h => h.2 ▸ rfl⟩
    | error failure => exact ⟨(by cases ·), fun h => (by cases h.2)⟩

theorem Source.exists_error {source : Source} (h : ∀ v, source.read ≠ .ok v) :
    ∃ message, source.read = .error message := by
  cases read : source.read with
  | ok v => exact absurd read (h v)
  | error message => exact ⟨message, rfl⟩

/-- Every token takes at least one character of the text, up to its end or to the first fault. A text
is read as a value exactly if it is split up to its end and its tokens are one form, which denotes the
value; of entries under one key the last one counts. A closing symbol out of place, a bracket left open
and a token behind the form are errors. -/
theorem Source.read_eq_ok_iff_isForm (source : Source) :
    let cs := source.text.toList
    (∀ cursor : Cursor, cursor.Advances cursor.next) ∧
      (Cursor.start cs).Lexes (lex cs) ∧
      (lex cs).tokens.length ≤ cs.length ∧
      (∀ v, source.read = .ok v ↔ source.text.utf8ByteSize < sizeLimit ∧
        (∃ eof, (lex cs).ending = .ok eof) ∧ IsForm (lex cs).tokens v) ∧
      (∀ entries key, (Value.ofEntries entries).get? key =
        (entries.reverse.find? fun entry => Ascending.sameKey key entry.1).map Prod.snd) ∧
      (leftOpen? (lex cs).tokens ≠ some [] → ∃ message, source.read = .error message) ∧
      ∀ form extra v, (lex cs).tokens = form ++ extra → extra ≠ [] → IsForm form v →
        ∃ message, source.read = .error message := by
  intro cs
  have lexes : (Cursor.start cs).Lexes (lex cs) := Cursor.lexes_lexFrom (.start cs)
  have reads (v : Value) : source.read = .ok v ↔ source.text.utf8ByteSize < sizeLimit ∧
      (∃ eof, (lex cs).ending = .ok eof) ∧ IsForm (lex cs).tokens v := by
    rw [read_eq_ok_iff, read?_eq_ok_iff]
  refine ⟨Cursor.advances_next, lexes, lexes.length_tokens_le, reads,
    fun entries key => Ascending.get?_ofEntries key entries, fun unbalanced => ?_,
    fun form extra v tokens behind isForm => ?_⟩
  · exact exists_error fun v read =>
      unbalanced (foldlM_openAfter? ((reads v).mp read).2.2 [])
  · refine exists_error fun w read => ?_
    have trailing : ∃ failure, read? cs = .error failure := by
      obtain ⟨token, rest, rfl⟩ := List.exists_cons_of_ne_nil behind
      rw [read?, tokens, readFrom_form isForm]
      exact ⟨_, rfl⟩
    obtain ⟨failure, failed⟩ := trailing
    exact nomatch failed.symm.trans (read_eq_ok_iff.mp read).2

/-- A bracket inside a brace, closed in the wrong order. -/
theorem Source.read_eq_ok_iff_isForm_of_crossing :
    let source : Source := ⟨"policy", "\x7b:a [1, ; two\n2\x7d]"⟩
    leftOpen? (lex source.text.toList).tokens ≠ some [] ∧ ∃ message, source.read = .error message := by
  intro source
  have crossing : leftOpen? (lex source.text.toList).tokens ≠ some [] := by decide +kernel
  exact ⟨crossing, (read_eq_ok_iff_isForm source).2.2.2.2.2.1 crossing⟩

end ResidualPolicy.Notation
