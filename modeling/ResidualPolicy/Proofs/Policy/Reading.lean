import ResidualPolicy.Policy.Reader
import ResidualPolicy.Proofs.Evaluation
import ResidualPolicy.Proofs.Value.Induction

/-!
# What reading a policy establishes

A policy that was read has paths of strings and indexes, none of them empty, operators that are no
tags, operands that fit their operators, and no negated leaf (`isRead_of_ofExpr`).
-/

namespace ResidualPolicy

/-- A key as a path is read with: a string, or a number that is an index. -/
inductive Value.IsKey : Value → Prop where
  | name (s : String) : IsKey (.string s)
  | index {n : Number} (natural : n.toNat?.isSome = true) : IsKey (.number n)

/-- A path as it is read: not empty, and made of names and indexes. -/
structure Path.IsRead (p : Path) : Prop where
  occupied : p.keys ≠ []
  keys : ∀ key ∈ p.keys, key.IsKey

namespace Policy

/-- An operator takes an operand; custom operators take any. -/
def Takes [PatternEngine] (operator : String) (operand : Value) : Prop :=
  ∀ builtin, Builtin.ofId? operator = some builtin → builtin.operandKind.check operand = .ok ()

/-- A policy as it is read. -/
inductive IsRead [PatternEngine] : Policy → Prop where
  | leaf {path : Path} {operator : String} {operand : Value} (places : path.IsRead)
      (form : Form.ofTag operator = .constraint operator) (takes : Takes operator operand) :
      IsRead (.leaf { path, operator, operand })
  | connected (connective : Connective) {parts : List Policy} (each : ∀ p ∈ parts, IsRead p) :
      IsRead (.connected connective parts)
  | negation {p : Policy} (inner : IsRead p) : IsRead (.negation p)
  | quantified (quantifier : Quantifier) {path : Path} {filter : Option Policy} {body : Policy}
      (places : path.IsRead) (filters : ∀ f ∈ filter, IsRead f) (inner : IsRead body) :
      IsRead (.quantified quantifier path filter body)
  | counted {path : Path} {filter : Option Policy} {comparator : String} {operand : Value}
      (places : path.IsRead) (filters : ∀ f ∈ filter, IsRead f) (named : comparator ≠ "")
      (takes : Takes comparator operand) : IsRead (.counted path filter comparator operand)

/-! ## Parts of expressions -/

/-- What a key is read from, and as what. -/
theorem readKey_eq_ok {key read : Value} (h : readKey key = .ok read) :
    (∃ s, key = .string s ∧ read = .string (keyword s)) ∨
      ∃ n, key = .number n ∧ read = .number n ∧ n.toNat?.isSome = true := by
  unfold readKey at h
  split at h
  · next s => exact .inl ⟨s, rfl, (Except.ok.inj h).symm⟩
  · next n =>
    split at h
    · next natural => exact .inr ⟨n, rfl, (Except.ok.inj h).symm, natural⟩
    · exact nomatch h
  · exact nomatch h

theorem mapM_readKey_isKey {keys read : List Value} (h : keys.mapM readKey = .ok read) :
    read.length = keys.length ∧ ∀ key ∈ read, key.IsKey := by
  induction keys generalizing read with
  | nil =>
    rw [← Except.ok.inj h]
    exact ⟨rfl, fun _ member => absurd member List.not_mem_nil⟩
  | cons key keys ih =>
    rw [List.mapM_cons] at h
    obtain ⟨first, here, h⟩ := bind_eq_ok h
    obtain ⟨others, there, h⟩ := bind_eq_ok h
    obtain ⟨length, later⟩ := ih there
    rw [← Except.ok.inj h]
    refine ⟨by rw [List.length_cons, List.length_cons, length],
      List.forall_mem_cons.mpr ⟨?_, later⟩⟩
    obtain ⟨s, -, rfl⟩ | ⟨n, -, rfl, natural⟩ := readKey_eq_ok here
    · exact .name _
    · exact .index natural

/-- What a path is read from, and what of. -/
theorem readPath_eq_ok {e : Value} {path : Path} (h : readPath e = .ok path) :
    ∃ keys, e = .array keys ∧ keys.mapM readKey = .ok path.keys ∧ path.IsRead := by
  unfold readPath at h
  split at h
  · exact nomatch h
  · next keys empty =>
    obtain ⟨read, each, rfl⟩ := map_eq_ok h
    obtain ⟨length, isKey⟩ := mapM_readKey_isKey each
    refine ⟨keys, rfl, each, ?_, isKey⟩
    intro none
    have none : read = [] := none
    rw [none] at length
    exact empty (List.length_eq_zero_iff.mp length.symm ▸ rfl)
  · exact nomatch h

theorem checkOperand_eq_ok [PatternEngine] {operator : String} {operand whole : Value} :
    checkOperand operator operand whole = .ok () ↔ Takes operator operand := by
  unfold checkOperand Takes
  cases Builtin.ofId? operator with
  | none => exact ⟨fun _ _ absent => (nomatch absent), fun _ => rfl⟩
  | some builtin =>
    dsimp only
    cases checked : builtin.operandKind.check operand with
    | error e =>
      refine ⟨fun failed => (nomatch failed), fun takes => ?_⟩
      rw [takes builtin rfl] at checked
      exact nomatch checked
    | ok done => exact ⟨fun _ other found => Option.some.inj found ▸ checked, fun _ => rfl⟩

theorem readComparator_eq_ok {e : Value} {comparator : String}
    (h : readComparator e = .ok comparator) :
    ∃ s, e = .string s ∧ keyword s = comparator ∧ comparator ≠ "" := by
  cases e with
  | string s =>
    rw [readComparator] at h
    split at h
    · exact nomatch h
    · next named =>
      have same := Except.ok.inj h
      refine ⟨s, rfl, same, fun empty => named ?_⟩
      rw [same, empty]
      rfl
  | _ => exact nomatch h

theorem readComparator_string {s comparator : String} (compared : keyword s = comparator)
    (named : comparator ≠ "") : readComparator (.string s) = .ok comparator := by
  rw [readComparator, compared, if_neg fun empty => named (beq_iff_eq.mp empty)]

theorem ofTag_eq_constraint {tag operator : String} (h : Form.ofTag tag = .constraint operator) :
    operator = tag := by
  unfold Form.ofTag at h
  split at h
  case h_9 => exact (Form.constraint.inj h).symm
  all_goals exact nomatch h

/-! ## Whole expressions -/

section

variable [PatternEngine]

theorem ofExprs_eq_ok {es : List Value} {ps : List Policy} (h : ofExprs es = .ok ps) :
    List.Forall₂ (fun e p => ofExpr e = .ok p) es ps := by
  induction es generalizing ps with
  | nil =>
    rw [ofExprs] at h
    rw [← Except.ok.inj h]
    exact .nil
  | cons e es ih =>
    rw [ofExprs] at h
    obtain ⟨p, first, h⟩ := bind_eq_ok h
    obtain ⟨rest, others, h⟩ := bind_eq_ok h
    rw [← Except.ok.inj h]
    exact .cons first (ih others)

theorem ofExprs_of_forall₂ {es : List Value} {ps : List Policy}
    (h : List.Forall₂ (fun e p => ofExpr e = .ok p) es ps) : ofExprs es = .ok ps := by
  induction h with
  | nil => rw [ofExprs]
  | cons first _ ih =>
    rw [ofExprs, first, ok_bind, ih]
    rfl

/-- How an expression is read, with one case for each way to write a form. -/
inductive Reads : Value → Policy → Prop where
  | leaf {tag operator : String} {e operand : Value} {path : Path}
      (form : Form.ofTag (keyword tag) = .constraint operator) (places : readPath e = .ok path)
      (takes : Takes operator operand) :
      Reads (.array [.string tag, e, operand]) (.leaf { path, operator, operand })
  | connected {tag : String} {connective : Connective} {es : List Value} {parts : List Policy}
      (form : Form.ofTag (keyword tag) = .connected connective)
      (each : List.Forall₂ (fun e p => ofExpr e = .ok p) es parts) :
      Reads (.array (.string tag :: es)) (.connected connective parts)
  | negation {tag : String} {e : Value} {p : Policy}
      (form : Form.ofTag (keyword tag) = .negation) (inner : ofExpr e = .ok p) :
      Reads (.array [.string tag, e]) (.negation p)
  | quantified {tag : String} {quantifier : Quantifier} {e e' : Value} {path : Path} {body : Policy}
      (form : Form.ofTag (keyword tag) = .quantified quantifier) (places : readPath e = .ok path)
      (inner : ofExpr e' = .ok body) :
      Reads (.array [.string tag, e, e']) (.quantified quantifier path none body)
  | filtered {tag : String} {quantifier : Quantifier} {e marker e' e'' : Value} {path : Path}
      {filter body : Policy} (form : Form.ofTag (keyword tag) = .quantified quantifier)
      (marked : isWhere marker = true) (places : readPath e = .ok path)
      (selects : ofExpr e' = .ok filter) (inner : ofExpr e'' = .ok body) :
      Reads (.array [.string tag, e, marker, e', e'']) (.quantified quantifier path (some filter) body)
  | counted {tag s comparator : String} {e operand : Value} {path : Path}
      (form : Form.ofTag (keyword tag) = .counted) (compared : keyword s = comparator)
      (named : comparator ≠ "") (takes : Takes comparator operand) (places : readPath e = .ok path) :
      Reads (.array [.string tag, e, .string s, operand]) (.counted path none comparator operand)
  | countedWhere {tag s comparator : String} {e marker e' operand : Value} {path : Path}
      {filter : Policy} (form : Form.ofTag (keyword tag) = .counted) (marked : isWhere marker = true)
      (compared : keyword s = comparator) (named : comparator ≠ "")
      (takes : Takes comparator operand) (places : readPath e = .ok path)
      (selects : ofExpr e' = .ok filter) :
      Reads (.array [.string tag, e, marker, e', .string s, operand])
        (.counted path (some filter) comparator operand)

theorem reads_of_ofExpr {e : Value} {p : Policy} (h : ofExpr e = .ok p) : Reads e p := by
  unfold ofExpr at h
  split at h
  case h_2 => exact nomatch h
  case h_3 => exact nomatch h
  case h_4 => exact nomatch h
  next tag args =>
  dsimp only at h
  split at h
  case h_1 => exact nomatch h
  case h_6 => exact nomatch h
  · next form =>
    obtain ⟨parts, each, h⟩ := bind_eq_ok h
    rw [← Except.ok.inj h]
    exact .connected form (ofExprs_eq_ok each)
  · next form =>
    split at h
    · obtain ⟨p, inner, h⟩ := bind_eq_ok h
      rw [← Except.ok.inj h]
      exact .negation form inner
    · exact nomatch h
  · next form =>
    split at h
    · obtain ⟨path, places, h⟩ := bind_eq_ok h
      obtain ⟨body, inner, h⟩ := bind_eq_ok h
      rw [← Except.ok.inj h]
      exact .quantified form places inner
    · split at h
      · next marked =>
        obtain ⟨path, places, h⟩ := bind_eq_ok h
        obtain ⟨filter, selects, h⟩ := bind_eq_ok h
        obtain ⟨body, inner, h⟩ := bind_eq_ok h
        rw [← Except.ok.inj h]
        exact .filtered form marked places selects inner
      · exact nomatch h
    · exact nomatch h
  · next form =>
    split at h
    · obtain ⟨comparator, compared, h⟩ := bind_eq_ok h
      obtain ⟨s, rfl, same, named⟩ := readComparator_eq_ok compared
      obtain ⟨_, checked, h⟩ := bind_eq_ok h
      obtain ⟨path, places, h⟩ := bind_eq_ok h
      rw [← Except.ok.inj h]
      exact .counted form same named (checkOperand_eq_ok.mp checked) places
    · split at h
      · next marked =>
        obtain ⟨comparator, compared, h⟩ := bind_eq_ok h
        obtain ⟨s, rfl, same, named⟩ := readComparator_eq_ok compared
        obtain ⟨_, checked, h⟩ := bind_eq_ok h
        obtain ⟨path, places, h⟩ := bind_eq_ok h
        obtain ⟨filter, selects, h⟩ := bind_eq_ok h
        rw [← Except.ok.inj h]
        exact .countedWhere form marked same named (checkOperand_eq_ok.mp checked) places selects
      · exact nomatch h
    · exact nomatch h
  · next operator form =>
    split at h
    · obtain ⟨path, places, h⟩ := bind_eq_ok h
      obtain ⟨_, checked, h⟩ := bind_eq_ok h
      rw [← Except.ok.inj h]
      exact .leaf form places (checkOperand_eq_ok.mp checked)
    · exact nomatch h

theorem ofExpr_of_reads {e : Value} {p : Policy} (h : Reads e p) : ofExpr e = .ok p := by
  unfold ofExpr
  cases h with
  | leaf form places takes =>
    dsimp only
    rw [form]
    dsimp only
    rw [places, ok_bind, checkOperand_eq_ok.mpr takes]
    rfl
  | connected form each =>
    dsimp only
    rw [form]
    dsimp only
    rw [ofExprs_of_forall₂ each]
    rfl
  | negation form inner =>
    dsimp only
    rw [form]
    dsimp only
    rw [inner]
    rfl
  | quantified form places inner =>
    dsimp only
    rw [form]
    dsimp only
    rw [places, ok_bind, inner]
    rfl
  | filtered form marked places selects inner =>
    dsimp only
    rw [form]
    dsimp only
    rw [if_pos marked, places, ok_bind, selects, ok_bind, inner]
    rfl
  | counted form compared named takes places =>
    dsimp only
    rw [form]
    dsimp only
    rw [readComparator_string compared named, ok_bind, checkOperand_eq_ok.mpr takes, ok_bind, places]
    rfl
  | countedWhere form marked compared named takes places selects =>
    dsimp only
    rw [form]
    dsimp only
    rw [if_pos marked, readComparator_string compared named, ok_bind,
      checkOperand_eq_ok.mpr takes, ok_bind, places, ok_bind, selects]
    rfl

/-- Induction on an expression that is read: what holds of its parts holds of the whole. -/
theorem ofExpr_induction {motive : Value → Policy → Prop}
    (step : ∀ {es : List Value} {p : Policy}, Reads (.array es) p →
      (∀ e ∈ es, ∀ {q : Policy}, ofExpr e = .ok q → motive e q) → motive (.array es) p)
    {e : Value} {p : Policy} (h : ofExpr e = .ok p) : motive e p := by
  induction e generalizing p with
  | array es ih => exact step (reads_of_ofExpr h) fun e member q read => ih e member read
  | _ => exact nomatch reads_of_ofExpr h

theorem isRead_of_ofExpr {e : Value} {p : Policy} (h : ofExpr e = .ok p) : p.IsRead := by
  have of_readPath {e : Value} {path : Path} (places : readPath e = .ok path) : path.IsRead := by
    obtain ⟨_, _, _, isRead⟩ := readPath_eq_ok places
    exact isRead
  refine ofExpr_induction (motive := fun _ p => p.IsRead) (fun reads ih => ?_) h
  cases reads with
  | leaf form places takes =>
    exact .leaf (of_readPath places) ((ofTag_eq_constraint form).symm ▸ form) takes
  | connected form each =>
    refine .connected _ fun p member => ?_
    obtain ⟨e, among, inner⟩ := exists_mem_of_forall₂ each p member
    exact ih e (.tail _ among) inner
  | negation form inner => exact .negation (ih _ (.tail _ (.head _)) inner)
  | quantified form places inner =>
    exact .quantified _ (of_readPath places) nofun (ih _ (by simp) inner)
  | filtered form marked places selects inner =>
    refine .quantified _ (of_readPath places) (fun f member => ?_) (ih _ (by simp) inner)
    exact Option.some.inj member ▸ ih _ (by simp) selects
  | counted form compared named takes places =>
    exact .counted (of_readPath places) nofun named takes
  | countedWhere form marked compared named takes places selects =>
    refine .counted (of_readPath places) (fun f member => ?_) named takes
    exact Option.some.inj member ▸ ih _ (by simp) selects

end

end Policy

end ResidualPolicy
