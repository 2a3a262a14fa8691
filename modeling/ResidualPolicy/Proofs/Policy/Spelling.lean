import ResidualPolicy.Proofs.Policy.Grammar

/-!
# Spellings of policy expressions

Tags, markers, comparators and the names in paths may be written with a colon in front. A relation
between names, such as that of a name and what it is without its colon, extends to expressions in
which these names stand, with everything else unchanged (`Policy.Respelled`): operands, indexes, and
the order and the number of the arguments of every form.

A policy that was read is written as the expression that it was read from, every such name without
its colon, and adding colons to that expression changes nothing (`Policy.respelled_iff_of_ofExpr`).
-/

namespace ResidualPolicy.Policy

/-! ## Expressions with other names -/

/-- Keys of paths: names are changed, indexes are not. -/
inductive RespelledKey (change : String → String → Prop) : Value → Value → Prop where
  | name {s t : String} (changed : change s t) : RespelledKey change (.string s) (.string t)
  | index (n : Number) : RespelledKey change (.number n) (.number n)

/-- Paths in which the names are changed. -/
inductive RespelledPath (change : String → String → Prop) : Value → Value → Prop where
  | keys {keys keys' : List Value} (each : List.Forall₂ (RespelledKey change) keys keys') :
      RespelledPath change (.array keys) (.array keys')

/-- Arguments of a form in which the names are changed, `inner` relating the expressions among them.
-/
inductive RespelledArgs (change : String → String → Prop) (inner : Value → Value → Prop) :
    Form → List Value → List Value → Prop where
  | constraint (operator : String) {path path' : Value} (paths : RespelledPath change path path')
      (operand : Value) :
      RespelledArgs change inner (.constraint operator) [path, operand] [path', operand]
  | connected (connective : Connective) {es es' : List Value} (each : List.Forall₂ inner es es') :
      RespelledArgs change inner (.connected connective) es es'
  | negation {e e' : Value} (expression : inner e e') :
      RespelledArgs change inner .negation [e] [e']
  | quantified (quantifier : Quantifier) {path path' body body' : Value}
      (paths : RespelledPath change path path') (bodies : inner body body') :
      RespelledArgs change inner (.quantified quantifier) [path, body] [path', body']
  | filtered (quantifier : Quantifier) {path path' filter filter' body body' : Value}
      {marker marker' : String} (paths : RespelledPath change path path')
      (markers : change marker marker') (filters : inner filter filter')
      (bodies : inner body body') :
      RespelledArgs change inner (.quantified quantifier) [path, .string marker, filter, body]
        [path', .string marker', filter', body']
  | counted {path path' : Value} {comparator comparator' : String}
      (paths : RespelledPath change path path') (comparators : change comparator comparator')
      (operand : Value) :
      RespelledArgs change inner .counted [path, .string comparator, operand]
        [path', .string comparator', operand]
  | countedWhere {path path' filter filter' : Value}
      {marker marker' comparator comparator' : String}
      (paths : RespelledPath change path path') (markers : change marker marker')
      (filters : inner filter filter') (comparators : change comparator comparator')
      (operand : Value) :
      RespelledArgs change inner .counted
        [path, .string marker, filter, .string comparator, operand]
        [path', .string marker', filter', .string comparator', operand]

/-- Expressions in which the tags, the markers, the comparators and the names in paths are changed,
and nothing else is. -/
inductive Respelled (change : String → String → Prop) : Value → Value → Prop where
  | expression {tag tag' : String} {form : Form} {args args' : List Value}
      (named : DropsColon tag form.tag) (proper : form.IsProper) (tags : change tag tag')
      (arguments : RespelledArgs change (Respelled change) form args args') :
      Respelled change (.array (.string tag :: args)) (.array (.string tag' :: args'))

/-- A name with a colon in front, where none stands yet, or the name as it is. -/
def AddsColon (written rewritten : String) : Prop :=
  rewritten = written ∨ ¬LedByColon written ∧ rewritten = ":" ++ written

variable {change : String → String → Prop}

/-! ## One expression for each change -/

theorem RespelledKey.unique (functional : ∀ s t u, change s t → change s u → t = u)
    {key v w : Value} (h : RespelledKey change key v) (h' : RespelledKey change key w) : v = w := by
  cases h with
  | name changed =>
    cases h' with
    | name changed' => rw [functional _ _ _ changed changed']
  | index n =>
    cases h' with
    | index => rfl

/-- What two lists have in common with a third, they have in common with each other. -/
theorem forall₂_across {α β γ : Type} {related : α → β → Prop} {other : α → γ → Prop}
    {both : β → γ → Prop} {xs : List α} {ys : List β} {zs : List γ}
    (h : List.Forall₂ related xs ys) (h' : List.Forall₂ other xs zs)
    (each : ∀ x ∈ xs, ∀ y z, related x y → other x z → both y z) : List.Forall₂ both ys zs := by
  induction h generalizing zs with
  | nil =>
    cases h' with
    | nil => exact .nil
  | cons first _ ih =>
    cases h' with
    | cons first' later' =>
      obtain ⟨here, there⟩ := List.forall_mem_cons.mp each
      exact .cons (here _ _ first first') (ih later' there)

theorem eq_of_forall₂ {α : Type} {related : α → α → Prop} {xs ys zs : List α}
    (h : List.Forall₂ related xs ys) (h' : List.Forall₂ related xs zs)
    (unique : ∀ x ∈ xs, ∀ y z, related x y → related x z → y = z) : ys = zs := by
  have same := forall₂_across h h' unique
  rwa [List.forall₂_eq_eq_eq] at same

theorem RespelledPath.unique (functional : ∀ s t u, change s t → change s u → t = u)
    {path v w : Value} (h : RespelledPath change path v) (h' : RespelledPath change path w) :
    v = w := by
  cases h with
  | keys each =>
    cases h' with
    | keys each' =>
      have same := eq_of_forall₂ each each' fun _ _ _ _ h h' => h.unique functional h'
      rw [same]

theorem RespelledArgs.unique (functional : ∀ s t u, change s t → change s u → t = u)
    {inner : Value → Value → Prop} {form : Form} {args vs ws : List Value}
    (unique : ∀ e ∈ args, ∀ v w, inner e v → inner e w → v = w)
    (h : RespelledArgs change inner form args vs) (h' : RespelledArgs change inner form args ws) :
    vs = ws := by
  have paths {path v w : Value} (h : RespelledPath change path v)
      (h' : RespelledPath change path w) : v = w := h.unique functional h'
  cases h with
  | constraint =>
    cases h' with
    | constraint => grind
  | connected connective each =>
    cases h' with
    | connected _ each' => exact eq_of_forall₂ each each' unique
  | negation expression =>
    cases h' with
    | negation expression' => grind
  | quantified quantifier places bodies =>
    cases h' with
    | quantified _ places' bodies' => grind
  | filtered quantifier places markers filters bodies =>
    cases h' with
    | filtered _ places' markers' filters' bodies' => grind
  | counted places comparators operand =>
    cases h' with
    | counted places' comparators' => grind
  | countedWhere places markers filters comparators operand =>
    cases h' with
    | countedWhere places' markers' filters' comparators' => grind

/-- A change that leaves no choice gives one expression. -/
theorem Respelled.unique (functional : ∀ s t u, change s t → change s u → t = u) {e v w : Value}
    (h : Respelled change e v) (h' : Respelled change e w) : v = w := by
  induction e generalizing v w with
  | array es ih =>
    cases h with
    | expression named proper tags arguments =>
      cases h' with
      | expression named' proper' tags' arguments' =>
        -- The tag tells the form, so both are arguments of one form.
        have form := ofTag_keyword_eq_iff.mpr ⟨named, proper⟩
        obtain rfl := form.symm.trans (ofTag_keyword_eq_iff.mpr ⟨named', proper'⟩)
        have same := arguments.unique functional (fun e member v w => ih e (.tail _ member))
          arguments'
        rw [functional _ _ _ tags tags', same]
  | _ => cases h

/-! ## Writing what was read -/

theorem DropsColon.unique {written s t : String} (h : DropsColon written s)
    (h' : DropsColon written t) : s = t :=
  (keyword_eq_iff.mpr h).symm.trans (keyword_eq_iff.mpr h')

theorem respelledKey_of_readKey {key read : Value} (h : readKey key = .ok read) :
    RespelledKey DropsColon key read := by
  obtain ⟨s, rfl, rfl⟩ | ⟨n, rfl, rfl, -⟩ := readKey_eq_ok h
  · exact .name (keyword_eq_iff.mp rfl)
  · exact .index n

theorem respelledKeys_of_mapM {keys read : List Value} (h : keys.mapM readKey = .ok read) :
    List.Forall₂ (RespelledKey DropsColon) keys read := by
  induction keys generalizing read with
  | nil =>
    rw [← Except.ok.inj h]
    exact .nil
  | cons key keys ih =>
    rw [List.mapM_cons] at h
    obtain ⟨first, here, h⟩ := bind_eq_ok h
    obtain ⟨others, there, h⟩ := bind_eq_ok h
    rw [← Except.ok.inj h]
    exact .cons (respelledKey_of_readKey here) (ih there)

theorem respelledPath_of_readPath {e : Value} {path : Path} (h : readPath e = .ok path) :
    RespelledPath DropsColon e path.toValue := by
  obtain ⟨keys, rfl, each, -⟩ := readPath_eq_ok h
  exact .keys (respelledKeys_of_mapM each)

/-- A policy is written as what it was read from, without colons. -/
theorem respelled_expr [PatternEngine] {e : Value} {p : Policy} (h : ofExpr e = .ok p) :
    Respelled DropsColon e p.expr := by
  have expression {tag : String} {form : Form} {args args' : List Value}
      (told : Form.ofTag (keyword tag) = form)
      (arguments : RespelledArgs DropsColon (Respelled DropsColon) form args args') :
      Respelled DropsColon (.array (.string tag :: args)) (.array (.string form.tag :: args')) := by
    obtain ⟨named, proper⟩ := ofTag_keyword_eq_iff.mp told
    exact .expression named proper named arguments
  refine ofExpr_induction (motive := fun e p => Respelled DropsColon e p.expr)
    (fun reads ih => ?_) h
  cases reads with
  | leaf form places takes =>
    exact expression form (.constraint _ (respelledPath_of_readPath places) _)
  | @connected tag connective es parts form each =>
    rw [expr, exprs_eq_map]
    refine expression form (.connected _ ?_)
    rw [List.forall₂_map_right_iff]
    exact forall₂_imp_of_mem each fun e member p _ read => ih e (.tail _ member) read
  | negation form inner => exact expression form (.negation (ih _ (by simp) inner))
  | quantified form places inner =>
    exact expression form
      (.quantified _ (respelledPath_of_readPath places) (ih _ (by simp) inner))
  | filtered form marked places selects inner =>
    obtain ⟨marker, rfl, keyword⟩ := isWhere_iff.mp marked
    exact expression form (.filtered _ (respelledPath_of_readPath places) keyword
      (ih _ (by simp) selects) (ih _ (by simp) inner))
  | counted form compared occupied takes places =>
    exact expression form
      (.counted (respelledPath_of_readPath places) (keyword_eq_iff.mp compared) _)
  | countedWhere form marked compared occupied takes places selects =>
    obtain ⟨marker, rfl, keyword⟩ := isWhere_iff.mp marked
    exact expression form (.countedWhere (respelledPath_of_readPath places) keyword
      (ih _ (by simp) selects) (keyword_eq_iff.mp compared) _)

/-! ## Reading another spelling -/

/-- A change that shows only in the colon in front of a name. -/
def IsSpelling (change : String → String → Prop) : Prop :=
  ∀ s t, change s t → keyword t = keyword s

theorem isSpelling_addsColon : IsSpelling AddsColon := by
  rintro s t (rfl | ⟨unled, rfl⟩)
  · rfl
  · rw [keyword_colon, keyword_eq_self.mpr unled]

theorem RespelledKey.readKey_eq (spelling : IsSpelling change) {key key' read : Value}
    (h : RespelledKey change key key') (here : readKey key = .ok read) :
    readKey key' = .ok read := by
  cases h with
  | name changed => rwa [readKey, spelling _ _ changed]
  | index n => exact here

theorem mapM_readKey_eq (spelling : IsSpelling change) {keys keys' read : List Value}
    (each : List.Forall₂ (RespelledKey change) keys keys') (h : keys.mapM readKey = .ok read) :
    keys'.mapM readKey = .ok read := by
  induction each generalizing read with
  | nil => exact h
  | cons first _ ih =>
    rw [List.mapM_cons] at h ⊢
    obtain ⟨key, here, h⟩ := bind_eq_ok h
    obtain ⟨others, there, h⟩ := bind_eq_ok h
    rw [first.readKey_eq spelling here, ok_bind, ih there]
    exact h

theorem RespelledPath.readPath_eq (spelling : IsSpelling change) {e e' : Value} {path : Path}
    (h : RespelledPath change e e') (places : readPath e = .ok path) : readPath e' = .ok path := by
  cases h with
  | keys each =>
    obtain ⟨keys, same, read, -⟩ := readPath_eq_ok places
    obtain rfl := Value.array.inj same
    have again := mapM_readKey_eq spelling each read
    cases each with
    | nil => exact nomatch places
    | cons => exact congrArg (Except.map Path.mk) again

/-- Another spelling of an expression is read as the same policy. -/
theorem Respelled.ofExpr_eq [PatternEngine] (spelling : IsSpelling change) {e e' : Value} {p : Policy}
    (h : Respelled change e e') (read : ofExpr e = .ok p) : ofExpr e' = .ok p := by
  have path {e e' : Value} {path : Path} (h : RespelledPath change e e')
      (places : readPath e = .ok path) : readPath e' = .ok path := h.readPath_eq spelling places
  have marks {marker marker' : String} (h : change marker marker')
      (marked : isWhere (.string marker) = true) : isWhere (.string marker') = true := by
    rwa [isWhere, spelling _ _ h]
  induction e generalizing e' p with
  | array es ih =>
    cases h with
    | @expression tag tag' form args args' named proper tags arguments =>
      have told : Form.ofTag (keyword tag) = form := ofTag_keyword_eq_iff.mpr ⟨named, proper⟩
      have told' : Form.ofTag (keyword tag') = form := by rw [spelling _ _ tags, told]
      cases reads_of_ofExpr read with
      | leaf form places takes =>
        obtain rfl := told.symm.trans form
        cases arguments with
        | constraint _ paths => exact ofExpr_of_reads (.leaf told' (path paths places) takes)
      | connected form each =>
        obtain rfl := told.symm.trans form
        cases arguments with
        | connected _ others =>
          exact ofExpr_of_reads (.connected told' (forall₂_across others each
            fun e member e' p respelled read => ih e (.tail _ member) respelled read))
      | negation form inner =>
        obtain rfl := told.symm.trans form
        cases arguments with
        | negation expression =>
          exact ofExpr_of_reads (.negation told' (ih _ (by simp) expression inner))
      | quantified form places inner =>
        obtain rfl := told.symm.trans form
        cases arguments with
        | quantified _ paths bodies =>
          exact ofExpr_of_reads
            (.quantified told' (path paths places) (ih _ (by simp) bodies inner))
      | filtered form marked places selects inner =>
        obtain rfl := told.symm.trans form
        cases arguments with
        | filtered _ paths markers filters bodies =>
          exact ofExpr_of_reads (.filtered told' (marks markers marked) (path paths places)
            (ih _ (by simp) filters selects) (ih _ (by simp) bodies inner))
      | counted form compared occupied takes places =>
        obtain rfl := told.symm.trans form
        cases arguments with
        | counted paths comparators =>
          rw [← spelling _ _ comparators] at compared
          exact ofExpr_of_reads (.counted told' compared occupied takes (path paths places))
      | countedWhere form marked compared occupied takes places selects =>
        obtain rfl := told.symm.trans form
        cases arguments with
        | countedWhere paths markers filters comparators =>
          rw [← spelling _ _ comparators] at compared
          exact ofExpr_of_reads (.countedWhere told' (marks markers marked) compared occupied takes
            (path paths places) (ih _ (by simp) filters selects))
  | _ => cases h

/-- A policy that was read is written as the expression it was read from, with one colon dropped
from every tag, marker, comparator and name in a path that has one, and nothing else changed. Adding
colons to those that have none gives the same policy. -/
theorem respelled_iff_of_ofExpr [PatternEngine] {e : Value} {p : Policy} (read : ofExpr e = .ok p) :
    (∀ w, Respelled DropsColon e w ↔ w = p.expr) ∧
      ∀ e', Respelled AddsColon e e' → ofExpr e' = .ok p := by
  have written := respelled_expr read
  have functional : ∀ s t u, DropsColon s t → DropsColon s u → t = u :=
    fun _ _ _ => DropsColon.unique
  refine ⟨fun w => ⟨fun h => h.unique functional written, ?_⟩, fun e' h => ?_⟩
  · rintro rfl
    exact written
  · exact h.ofExpr_eq isSpelling_addsColon read

/-- A count with a colon in some places and two in others; the operands keep theirs. -/
theorem respelled_iff_of_ofExpr_of_counted :
    let filter : Value := .array [.string "in", .array [.string "::a", .number (.int 0)],
      .array [.string ":b"]]
    let e : Value := .array [.string ":count", .array [.string "users"], .string "where", filter,
      .string ":>", .number (.int 2)]
    let e' : Value := .array [.string ":count", .array [.string ":users"], .string ":where", filter,
      .string ":>", .number (.int 2)]
    let dropped : Value := .array [.string "in", .array [.string ":a", .number (.int 0)],
      .array [.string ":b"]]
    let w : Value := .array [.string "count", .array [.string "users"], .string "where", dropped,
      .string ">", .number (.int 2)]
    let leaf : Constraint :=
      { path := ⟨[.string ":a", .number (.int 0)]⟩, operator := "in",
        operand := .array [.string ":b"] }
    let p : Policy := .counted ⟨[.string "users"]⟩ (some (.leaf leaf)) ">" (.number (.int 2))
    ofExpr e = .ok p ∧ Respelled DropsColon e w ∧ ofExpr e' = .ok p := by
  intro filter e e' dropped w leaf p
  have read : ofExpr e = .ok p := rfl
  obtain ⟨written, respelled⟩ := respelled_iff_of_ofExpr read
  refine ⟨read, (written w).mpr rfl, respelled e' ?_⟩
  have free : (Form.constraint "in").IsProper := by
    show "in" ∉ reservedNames
    decide
  have filters : Respelled AddsColon filter filter :=
    .expression (.inr ⟨rfl, by decide⟩) free (.inl rfl)
      (.constraint "in" (.keys (.cons (.name (.inl rfl)) (.cons (.index _) .nil))) _)
  have proper : Form.counted.IsProper := trivial
  have paths : RespelledPath AddsColon (.array [.string "users"]) (.array [.string ":users"]) :=
    .keys (.cons (.name (.inr ⟨by decide, rfl⟩)) .nil)
  exact .expression (.inl rfl) proper (.inl rfl)
    (.countedWhere paths (.inr ⟨by decide, rfl⟩) filters (.inl rfl) _)

end ResidualPolicy.Policy
