import ResidualPolicy.Proofs.Policy.Expression
import ResidualPolicy.Proofs.Value.Parts

/-!
# The grammar of policy expressions

Which values are policy expressions is said here without reading them (`Policy.IsExpression`): a tag
says what form the expression has, and each form has its own arguments. Exactly these values are
read as policies, and of any other value the error names a part (`Policy.ofExpr_accepts`).

Acceptance comes from the cases of `Policy.Reads`, one for each way to write a form. Where an error
comes from is followed through the reading itself: a step that fails hands on the part that it was
given, or it is the reading of a smaller expression.
-/

namespace ResidualPolicy

/-! ## Operands -/

/-- What the operands of a kind look like. -/
inductive OperandKind.Fits [PatternEngine] : OperandKind → Value → Prop where
  | any (v : Value) : Fits .any v
  | number (n : Number) : Fits .orderable (.number n)
  | text (s : String) : Fits .orderable (.string s)
  | items (items : List Value) : Fits .collection (.array items)
  | members (members : List Value) : Fits .collection (.set members)
  | pattern {s : String} {p : PatternEngine.Compiled} (valid : PatternEngine.read s = .ok p) :
    Fits .pattern (.string s)
  | string (s : String) : Fits .string (.string s)

/-- An operand passes the check of a kind exactly when it looks like that. -/
theorem OperandKind.check_eq_ok_iff [PatternEngine] {kind : OperandKind} {operand : Value} :
    kind.check operand = .ok () ↔ kind.Fits operand := by
  constructor
  · intro passes
    cases kind with
    | any => exact .any operand
    | orderable =>
      cases operand with
      | number n => exact .number n
      | string s => exact .text s
      | _ => exact nomatch passes
    | collection =>
      cases operand with
      | array items => exact .items items
      | set members => exact .members members
      | _ => exact nomatch passes
    | pattern =>
      cases operand with
      | string s =>
        cases read : PatternEngine.read s with
        | ok p => exact .pattern read
        | error fault =>
          rw [check, read] at passes
          exact nomatch passes
      | _ => exact nomatch passes
    | string =>
      cases operand with
      | string s => exact .string s
      | _ => exact nomatch passes
  · intro fits
    cases fits with
    | pattern valid => rw [check, valid]
    | _ => rfl

namespace Policy

/-- An operand looks as a built-in operator wants it; other operators take any. -/
def Suits [PatternEngine] (operator : String) (operand : Value) : Prop :=
  ∀ builtin, Builtin.ofId? operator = some builtin → builtin.operandKind.Fits operand

theorem takes_iff [PatternEngine] {operator : String} {operand : Value} :
    Takes operator operand ↔ Suits operator operand :=
  forall₂_congr fun _ _ => OperandKind.check_eq_ok_iff

/-! ## Names and paths -/

/-- A name as it is written: without the one colon that may stand in front of it. -/
def DropsColon (written name : String) : Prop :=
  written = ":" ++ name ∨ written = name ∧ ¬LedByColon written

theorem keyword_colon (name : String) : keyword (":" ++ name) = name := by
  have listed : (":" ++ name).toList = ':' :: name.toList := String.toList_append
  rw [keyword, listed]
  exact String.ofList_toList

theorem ledByColon_iff {written : String} : LedByColon written ↔ ∃ name, written = ":" ++ name := by
  constructor
  · intro led
    obtain ⟨rest, listed⟩ := List.head?_eq_some_iff.mp led
    refine ⟨String.ofList rest, ?_⟩
    have whole : (":" ++ String.ofList rest).toList = ':' :: rest := by simp
    exact String.toList_inj.mp (listed.trans whole.symm)
  · rintro ⟨name, rfl⟩
    rw [LedByColon, String.toList_append]
    rfl

theorem keyword_eq_iff {written name : String} :
    keyword written = name ↔ DropsColon written name := by
  by_cases led : LedByColon written
  · obtain ⟨rest, rfl⟩ := ledByColon_iff.mp led
    rw [keyword_colon]
    constructor
    · rintro rfl
      exact .inl rfl
    · rintro (colon | ⟨-, unled⟩)
      · rw [← keyword_colon rest, colon, keyword_colon]
      · exact absurd led unled
  · rw [keyword_eq_self.mpr led]
    constructor
    · exact fun same => .inr ⟨same, led⟩
    · rintro (colon | ⟨same, -⟩)
      · exact absurd (ledByColon_iff.mpr ⟨name, colon⟩) led
      · exact same

/-- A path as it is written: an array of names and indexes that is not empty. -/
def IsPath (e : Value) : Prop :=
  ∃ keys, e = .array keys ∧ keys ≠ [] ∧ ∀ key ∈ keys, key.IsKey

theorem readKey_isOk_iff {key : Value} : (∃ read, readKey key = .ok read) ↔ key.IsKey := by
  constructor
  · rintro ⟨read, h⟩
    obtain ⟨s, rfl, -⟩ | ⟨n, rfl, -, natural⟩ := readKey_eq_ok h
    · exact .name s
    · exact .index natural
  · intro isKey
    cases isKey with
    | name s => exact ⟨_, rfl⟩
    | index natural => exact ⟨_, if_pos natural⟩

theorem mapM_readKey_isOk_iff {keys : List Value} :
    (∃ read, keys.mapM readKey = .ok read) ↔ ∀ key ∈ keys, key.IsKey := by
  induction keys with
  | nil => exact ⟨fun _ => nofun, fun _ => ⟨[], rfl⟩⟩
  | cons key keys ih =>
    rw [List.forall_mem_cons, ← readKey_isOk_iff, ← ih, List.mapM_cons]
    constructor
    · rintro ⟨read, h⟩
      obtain ⟨first, here, h⟩ := bind_eq_ok h
      obtain ⟨others, there, -⟩ := bind_eq_ok h
      exact ⟨⟨first, here⟩, others, there⟩
    · rintro ⟨⟨first, here⟩, others, there⟩
      rw [here, ok_bind, there]
      exact ⟨first :: others, rfl⟩

theorem readPath_isOk_iff {e : Value} : (∃ path, readPath e = .ok path) ↔ IsPath e := by
  constructor
  · rintro ⟨path, h⟩
    obtain ⟨keys, rfl, each, -⟩ := readPath_eq_ok h
    refine ⟨keys, rfl, ?_, mapM_readKey_isOk_iff.mp ⟨_, each⟩⟩
    rintro rfl
    exact nomatch h
  · rintro ⟨keys, rfl, occupied, isKey⟩
    obtain ⟨read, each⟩ := mapM_readKey_isOk_iff.mpr isKey
    cases keys with
    | nil => exact absurd rfl occupied
    | cons key keys => exact ⟨⟨read⟩, congrArg (Except.map Path.mk) each⟩

/-! ## Forms -/

/-- Names that are no operators of constraints: the tags of the other forms, the marker of a filter,
and the empty name, which is no tag at all. -/
def reservedNames : List String :=
  ["", "and", "or", "not", "forall", "exists", "count", "where"]

/-- Tag of the expressions of a form. -/
def Form.tag : Form → String
  | .empty => ""
  | .connected connective => connective.tag
  | .negation => "not"
  | .quantified quantifier => quantifier.tag
  | .counted => "count"
  | .filter => "where"
  | .constraint operator => operator

/-- A form is that of its own tag. -/
def Form.IsProper : Form → Prop
  | .constraint operator => operator ∉ reservedNames
  | _ => True

theorem ofTag_eq_constraint_iff {name : String} :
    Form.ofTag name = .constraint name ↔ name ∉ reservedNames := by
  constructor
  · intro form reserved
    simp only [reservedNames, List.mem_cons, List.not_mem_nil, or_false] at reserved
    rcases reserved with rfl | rfl | rfl | rfl | rfl | rfl | rfl | rfl <;> exact nomatch form
  · intro free
    unfold Form.ofTag
    split
    case h_9 => rfl
    all_goals exact absurd (by decide) free

theorem ofTag_eq_iff {name : String} {form : Form} :
    Form.ofTag name = form ↔ name = form.tag ∧ form.IsProper := by
  constructor
  · rintro rfl
    constructor
    · unfold Form.ofTag
      split <;> rfl
    · cases form : Form.ofTag name with
      | constraint operator =>
        have same : operator = name := ofTag_eq_constraint form
        rw [same] at form ⊢
        exact ofTag_eq_constraint_iff.mp form
      | _ => trivial
  · rintro ⟨rfl, proper⟩
    cases form with
    | connected connective => cases connective <;> rfl
    | quantified quantifier => cases quantifier <;> rfl
    | constraint operator => exact ofTag_eq_constraint_iff.mpr proper
    | _ => rfl

/-- What form an expression has, by its tag as it is written. -/
theorem ofTag_keyword_eq_iff {tag : String} {form : Form} :
    Form.ofTag (keyword tag) = form ↔ DropsColon tag form.tag ∧ form.IsProper := by
  rw [ofTag_eq_iff, keyword_eq_iff]

/-! ## Expressions -/

/-- The values that are policy expressions, with one case for each way to write a form. -/
inductive IsExpression [PatternEngine] : Value → Prop where
  | constraint {tag operator : String} {path operand : Value} (named : DropsColon tag operator)
      (free : operator ∉ reservedNames) (places : IsPath path) (suits : Suits operator operand) :
      IsExpression (.array [.string tag, path, operand])
  | connected {tag : String} {connective : Connective} {es : List Value}
      (named : DropsColon tag connective.tag) (each : ∀ e ∈ es, IsExpression e) :
      IsExpression (.array (.string tag :: es))
  | negation {tag : String} {e : Value} (named : DropsColon tag "not") (inner : IsExpression e) :
      IsExpression (.array [.string tag, e])
  | quantified {tag : String} {quantifier : Quantifier} {path body : Value}
      (named : DropsColon tag quantifier.tag) (places : IsPath path) (inner : IsExpression body) :
      IsExpression (.array [.string tag, path, body])
  | filtered {tag marker : String} {quantifier : Quantifier} {path filter body : Value}
      (named : DropsColon tag quantifier.tag) (places : IsPath path)
      (marked : DropsColon marker "where") (selects : IsExpression filter)
      (inner : IsExpression body) :
      IsExpression (.array [.string tag, path, .string marker, filter, body])
  | counted {tag written comparator : String} {path operand : Value}
      (named : DropsColon tag "count") (places : IsPath path)
      (compared : DropsColon written comparator) (occupied : comparator ≠ "")
      (suits : Suits comparator operand) :
      IsExpression (.array [.string tag, path, .string written, operand])
  | countedWhere {tag marker written comparator : String} {path filter operand : Value}
      (named : DropsColon tag "count") (places : IsPath path)
      (marked : DropsColon marker "where") (selects : IsExpression filter)
      (compared : DropsColon written comparator) (occupied : comparator ≠ "")
      (suits : Suits comparator operand) :
      IsExpression (.array [.string tag, path, .string marker, filter, .string written, operand])

theorem isWhere_iff {marker : Value} :
    isWhere marker = true ↔ ∃ s, marker = .string s ∧ DropsColon s "where" := by
  cases marker with
  | string s =>
    rw [isWhere, beq_iff_eq, keyword_eq_iff]
    exact ⟨fun marked => ⟨s, rfl, marked⟩, fun ⟨_, same, marked⟩ => Value.string.inj same ▸ marked⟩
  | _ => exact ⟨nofun, nofun⟩

theorem isExpression_of_ofExpr [PatternEngine] {e : Value} {p : Policy} (h : ofExpr e = .ok p) :
    IsExpression e := by
  have isPath {e : Value} {path : Path} (places : readPath e = .ok path) : IsPath e :=
    readPath_isOk_iff.mp ⟨path, places⟩
  have named {tag : String} {form : Form} (told : Form.ofTag (keyword tag) = form) :
      DropsColon tag form.tag := (ofTag_keyword_eq_iff.mp told).1
  refine ofExpr_induction (motive := fun e _ => IsExpression e) (fun reads ih => ?_) h
  cases reads with
  | leaf form places takes =>
    exact .constraint (named form) (ofTag_keyword_eq_iff.mp form).2 (isPath places)
      (takes_iff.mp takes)
  | connected form each =>
    refine .connected (named form) fun e member => ?_
    obtain ⟨p, -, read⟩ := exists_mem_of_forall₂ each.flip e member
    exact ih e (.tail _ member) read
  | negation form inner => exact .negation (named form) (ih _ (by simp) inner)
  | quantified form places inner =>
    exact .quantified (named form) (isPath places) (ih _ (by simp) inner)
  | filtered form marked places selects inner =>
    obtain ⟨marker, rfl, keyword⟩ := isWhere_iff.mp marked
    exact .filtered (named form) (isPath places) keyword (ih _ (by simp) selects)
      (ih _ (by simp) inner)
  | counted form compared occupied takes places =>
    exact .counted (named form) (isPath places) (keyword_eq_iff.mp compared) occupied
      (takes_iff.mp takes)
  | countedWhere form marked compared occupied takes places selects =>
    obtain ⟨marker, rfl, keyword⟩ := isWhere_iff.mp marked
    exact .countedWhere (named form) (isPath places) keyword (ih _ (by simp) selects)
      (keyword_eq_iff.mp compared) occupied (takes_iff.mp takes)

theorem exists_forall₂ {α β : Type} {related : α → β → Prop} {xs : List α}
    (each : ∀ x ∈ xs, ∃ y, related x y) : ∃ ys, List.Forall₂ related xs ys := by
  induction xs with
  | nil => exact ⟨[], .nil⟩
  | cons x xs ih =>
    obtain ⟨⟨y, first⟩, others⟩ := List.forall_mem_cons.mp each
    obtain ⟨ys, later⟩ := ih others
    exact ⟨y :: ys, .cons first later⟩

theorem exists_ofExpr [PatternEngine] {e : Value} (h : IsExpression e) : ∃ p, ofExpr e = .ok p := by
  have told {tag : String} (form : Form) (named : DropsColon tag form.tag)
      (proper : form.IsProper) : Form.ofTag (keyword tag) = form :=
    ofTag_keyword_eq_iff.mpr ⟨named, proper⟩
  have marks {marker : String} (marked : DropsColon marker "where") :
      isWhere (.string marker) = true := isWhere_iff.mpr ⟨marker, rfl, marked⟩
  induction h with
  | @constraint tag operator path operand named free places suits =>
    obtain ⟨path, places⟩ := readPath_isOk_iff.mpr places
    have form := told (.constraint operator) named free
    exact ⟨_, ofExpr_of_reads (.leaf form places (takes_iff.mpr suits))⟩
  | @connected tag connective es named _ ih =>
    obtain ⟨parts, each⟩ := exists_forall₂ ih
    have form := told (.connected connective) named trivial
    exact ⟨_, ofExpr_of_reads (.connected form each)⟩
  | negation named _ ih =>
    obtain ⟨p, inner⟩ := ih
    have form := told .negation named trivial
    exact ⟨_, ofExpr_of_reads (.negation form inner)⟩
  | @quantified tag quantifier path body named places _ ih =>
    obtain ⟨path, places⟩ := readPath_isOk_iff.mpr places
    obtain ⟨p, inner⟩ := ih
    have form := told (.quantified quantifier) named trivial
    exact ⟨_, ofExpr_of_reads (.quantified form places inner)⟩
  | @filtered tag marker quantifier path filter body named places marked _ _ ihFilter ihBody =>
    obtain ⟨path, places⟩ := readPath_isOk_iff.mpr places
    obtain ⟨f, selects⟩ := ihFilter
    obtain ⟨p, inner⟩ := ihBody
    have form := told (.quantified quantifier) named trivial
    exact ⟨_, ofExpr_of_reads (.filtered form (marks marked) places selects inner)⟩
  | counted named places compared occupied suits =>
    obtain ⟨path, places⟩ := readPath_isOk_iff.mpr places
    have form := told .counted named trivial
    exact ⟨_, ofExpr_of_reads
      (.counted form (keyword_eq_iff.mpr compared) occupied (takes_iff.mpr suits) places)⟩
  | countedWhere named places marked _ compared occupied suits ih =>
    obtain ⟨path, places⟩ := readPath_isOk_iff.mpr places
    obtain ⟨f, selects⟩ := ih
    have form := told .counted named trivial
    exact ⟨_, ofExpr_of_reads (.countedWhere form (marks marked) (keyword_eq_iff.mpr compared)
      occupied (takes_iff.mpr suits) places selects)⟩

/-! ## Errors -/

/-- If a step of reading fails, the error names a part of the whole. -/
def Blames (whole : Value) {α : Type} (step : Except ParseError α) : Prop :=
  ∀ failure, step = .error failure → failure.offending ∈ whole.parts

namespace Blames

variable {whole : Value} {α β : Type}

theorem ok (a : α) : Blames whole (.ok a) := nofun

theorem here (fault : Fault) : Blames whole (.error ⟨fault, whole⟩ : Except ParseError α) :=
  fun _ h => Except.error.inj h ▸ whole.self_mem_parts

theorem bind {step : Except ParseError α} {next : α → Except ParseError β}
    (first : Blames whole step) (later : ∀ a, Blames whole (next a)) :
    Blames whole (step >>= next) := by
  intro failure h
  rcases bind_eq_error h with failed | ⟨a, -, failed⟩
  · exact first failure failed
  · exact later a failure failed

/-- A part of an item is a part of the array. -/
theorem within {e : Value} {items : List Value} {step : Except ParseError α} (member : e ∈ items)
    (h : Blames e step) : Blames (.array items) step :=
  fun failure failed => Value.mem_parts_array member (h failure failed)

end Blames

theorem blames_readKey (key : Value) : Blames key (readKey key) := by
  cases key with
  | string s => exact .ok _
  | number n =>
    rw [readKey]
    split
    · exact .ok _
    · exact .here _
  | _ => exact .here _

theorem blames_mapM {whole : Value} {α : Type} {read : Value → Except ParseError α}
    {keys : List Value} (each : ∀ key ∈ keys, Blames whole (read key)) :
    Blames whole (keys.mapM read) := by
  induction keys with
  | nil => exact .ok _
  | cons key keys ih =>
    obtain ⟨first, others⟩ := List.forall_mem_cons.mp each
    rw [List.mapM_cons]
    exact .bind first fun _ => .bind (ih others) fun _ => .ok _

theorem blames_readPath (e : Value) : Blames e (readPath e) := by
  unfold readPath
  split
  · exact .here _
  · exact .bind (blames_mapM fun key member => .within member (blames_readKey key)) fun _ => .ok _
  · exact .here _

theorem blames_checkOperand [PatternEngine] (operator : String) (operand whole : Value) :
    Blames whole (checkOperand operator operand whole) := by
  unfold checkOperand
  split
  · exact .ok _
  · next builtin _ =>
    cases builtin.operandKind.check operand with
    | ok _ => exact .ok _
    | error mismatch => exact .here _

theorem blames_readComparator (e : Value) : Blames e (readComparator e) := by
  cases e with
  | string s =>
    rw [readComparator]
    split
    · exact .here _
    · exact .ok _
  | _ => exact .here _

section

variable [PatternEngine]

theorem blames_ofExprs {whole : Value} {es : List Value}
    (each : ∀ e ∈ es, Blames whole (ofExpr e)) : Blames whole (ofExprs es) := by
  induction es with
  | nil => exact .ok _
  | cons e es ih =>
    obtain ⟨first, others⟩ := List.forall_mem_cons.mp each
    rw [ofExprs]
    exact .bind first fun _ => .bind (ih others) fun _ => .ok _

theorem blames_ofExpr (e : Value) : Blames e (ofExpr e) := by
  induction e with
  | array es ih =>
    have expression {e : Value} (member : e ∈ es) : Blames (.array es) (ofExpr e) :=
      .within member (ih e member)
    have path {e : Value} (member : e ∈ es) : Blames (.array es) (readPath e) :=
      .within member (blames_readPath e)
    have comparator {e : Value} (member : e ∈ es) : Blames (.array es) (readComparator e) :=
      .within member (blames_readComparator e)
    have operand (operator : String) (o : Value) :
        Blames (.array es) (checkOperand operator o (.array es)) := blames_checkOperand operator o _
    unfold ofExpr
    split
    case h_2 same =>
      obtain rfl := Value.array.inj same
      exact .here _
    case h_3 same =>
      obtain rfl := Value.array.inj same
      exact .here _
    case h_4 => exact .here _
    next tag args same =>
    obtain rfl := Value.array.inj same
    dsimp only
    split
    case h_1 => exact .here _
    case h_6 => exact .here _
    · exact .bind (blames_ofExprs fun e member => expression (.tail _ member)) fun _ => .ok _
    · split
      · exact .bind (expression (by simp)) fun _ => .ok _
      · exact .here _
    · split
      · exact .bind (path (by simp)) fun _ => .bind (expression (by simp)) fun _ => .ok _
      · split
        · exact .bind (path (by simp)) fun _ => .bind (expression (by simp)) fun _ =>
            .bind (expression (by simp)) fun _ => .ok _
        · exact .here _
      · exact .here _
    · split
      · exact .bind (comparator (by simp)) fun c => .bind (operand c _) fun _ =>
          .bind (path (by simp)) fun _ => .ok _
      · split
        · exact .bind (comparator (by simp)) fun c => .bind (operand c _) fun _ =>
            .bind (path (by simp)) fun _ => .bind (expression (by simp)) fun _ => .ok _
        · exact .here _
      · exact .here _
    · next operator _ =>
      split
      · exact .bind (path (by simp)) fun _ => .bind (operand operator _) fun _ => .ok _
      · exact .here _
  | _ => exact .here _

/-- Exactly the policy expressions are read, and of any other value the error names a part. -/
theorem ofExpr_accepts (e : Value) :
    ((∃ p, ofExpr e = .ok p) ↔ IsExpression e) ∧
      ∀ failure, ofExpr e = .error failure → failure.offending ∈ e.parts :=
  ⟨⟨fun ⟨_, read⟩ => isExpression_of_ofExpr read, exists_ofExpr⟩, blames_ofExpr e⟩

end

/-- A negative index in the path of a filter: the expression is refused, and the index is named. -/
theorem ofExpr_accepts_of_index :
    let filter : Value :=
      .array [.string "=", .array [.string ":a", .number (.int (-1))], .string "b"]
    let e : Value := .array [.string ":not", .array [.string "count", .array [.string "users"],
      .string ":where", filter, .string ":>", .number (.int 2)]]
    let failure : ParseError := ⟨.pathKey, .number (.int (-1))⟩
    ofExpr e = .error failure ∧ ¬IsExpression e ∧ failure.offending ∈ e.parts := by
  intro filter e failure
  have refused : ofExpr e = .error failure := rfl
  obtain ⟨accepts, blames⟩ := ofExpr_accepts e
  refine ⟨refused, fun isExpression => ?_, blames failure refused⟩
  obtain ⟨p, read⟩ := accepts.mpr isExpression
  exact nomatch refused.symm.trans read

end Policy

end ResidualPolicy
