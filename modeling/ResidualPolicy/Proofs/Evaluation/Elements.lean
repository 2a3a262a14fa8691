import ResidualPolicy.Proofs.Evaluation.Duality
import ResidualPolicy.Proofs.Evaluation.Relocation

/-!
# What elements of a collection mean for the whole

A quantifier and a count over a collection evaluate the filter and the body on elements at their places.
The kind of what they return depends on nothing but the kinds of what filter and body return on each
element, taken as a document of its own (`Policy.kind_over_elements`). So the order of the elements does
not matter for it, although it does matter for which violation is reported.

A quantifier has a kind with which an element decides the whole, and its dual has the other one
(`Quantifier.decisive`). Both laws of quantifiers are stated for this kind and that of the dual, and are
what is known of surveys, read at the elements themselves (`Policy.evaluateAt_eq_map`).
-/

namespace ResidualPolicy

/-! ## Kinds of outcomes -/

/-- What sort of outcome a residual is. -/
inductive Residual.Kind where
  | satisfied
  | pending
  | conflict
  deriving DecidableEq, Repr

/-- The kind of a residual. -/
def Residual.kind : Residual → Kind
  | .satisfied => .satisfied
  | .pending _ => .pending
  | .conflict _ => .conflict

@[simp]
theorem Residual.kind_under (place : Path) (r : Residual) : (r.under place).kind = r.kind := by
  cases r <;> rfl

theorem Residual.kind_eq_satisfied_iff {r : Residual} : r.kind = .satisfied ↔ r = .satisfied := by
  cases r <;> simp [kind]

theorem Residual.kind_eq_conflict_iff {r : Residual} :
    r.kind = .conflict ↔ ∃ violations, r = .conflict violations := by
  cases r <;> simp [kind]

/-- The kind with which an element decides. -/
def Quantifier.decisive : Quantifier → Residual.Kind
  | .universal => .conflict
  | .existential => .satisfied

theorem Quantifier.decision_iff_kind {quantifier : Quantifier} {r : Residual} :
    quantifier.Decision r ↔ r.kind = quantifier.decisive := by
  cases quantifier with
  | universal => rw [decision_universal, decisive, Residual.kind_eq_conflict_iff]
  | existential => rw [decision_existential, decisive, Residual.kind_eq_satisfied_iff]

namespace Policy

variable {registry : Registry}

/-- The kind of what a policy returns on a document. -/
def kind (registry : Registry) (p : Policy) (document : Value) :
    Except UnknownOperator Residual.Kind :=
  (p.evaluate registry document).map Residual.kind

/-- The kind of what a filter returns on an element. Without a filter every element passes. -/
def filterKind (registry : Registry) (filter : Option Policy) (element : Value) :
    Except UnknownOperator Residual.Kind :=
  match filter with
  | none => .ok .satisfied
  | some f => f.kind registry element

theorem exists_kind {p : Policy} (known : registry.Knows p) (document : Value) :
    ∃ r, p.evaluateAt registry document .root true = .ok r ∧
      p.kind registry document = .ok r.kind := by
  obtain ⟨r, evaluated⟩ := evaluateAt_ok known document .root true
  refine ⟨r, evaluated, ?_⟩
  rw [kind, evaluate, evaluated]
  rfl

theorem map_kind_evaluateAt (p : Policy) (document : Value) (place : Path) :
    (p.evaluateAt registry document place true).map Residual.kind = p.kind registry document := by
  rw [evaluateAt_eq_map, kind, evaluate]
  cases p.evaluateAt registry document .root true with
  | error e => rfl
  | ok r => exact congrArg Except.ok (Residual.kind_under place r)

theorem map_kind_evaluateFilter (filter : Option Policy) (element : Value) (place : Path) :
    (evaluateFilter registry filter element place).map Residual.kind =
      filterKind registry filter element := by
  cases filter with
  | none =>
    rw [evaluateFilter]
    rfl
  | some f =>
    rw [evaluateFilter]
    exact map_kind_evaluateAt f element place

/-! ## Quantifiers -/

variable {quantifier : Quantifier} {path : Path} {filter : Option Policy} {body : Policy}
  {document collection : Value} {elements : List (Value × Value)}

theorem decides_iff (element : Value) (place : Path) :
    quantifier.Decides (evaluateFilter registry filter)
        (fun v here => body.evaluateAt registry v here true) (place, element) ↔
      filterKind registry filter element = .ok .satisfied ∧
        body.kind registry element = .ok quantifier.decisive := by
  rw [← map_kind_evaluateFilter filter element place, ← map_kind_evaluateAt body element place,
    map_eq_ok_iff, map_eq_ok_iff]
  simp only [Quantifier.Decides, Quantifier.decision_iff_kind, Residual.kind_eq_satisfied_iff,
    exists_eq_right]

theorem abstains_iff (element : Value) (place : Path) :
    quantifier.Abstains (evaluateFilter registry filter)
        (fun v here => body.evaluateAt registry v here true) (place, element) ↔
      filterKind registry filter element = .ok .conflict ∨
        body.kind registry element = .ok quantifier.dual.decisive := by
  rw [← map_kind_evaluateFilter filter element place, ← map_kind_evaluateAt body element place,
    map_eq_ok_iff, map_eq_ok_iff]
  simp only [Quantifier.Abstains, Quantifier.decision_iff_kind, Residual.kind_eq_conflict_iff]
  apply or_congr_left
  constructor
  · rintro ⟨failed, rejects⟩
    exact ⟨_, rejects, failed, rfl⟩
  · rintro ⟨_, rejects, failed, rfl⟩
    exact ⟨failed, rejects⟩

/-- A quantifier over a collection surveys its elements. -/
theorem exists_surveyed (known : registry.Knows (.quantified quantifier path filter body))
    (there : path.find? document = some collection) (listed : collection.elements? = some elements) :
    ∃ r failed, (quantified quantifier path filter body).kind registry document = .ok r.kind ∧
      Quantifier.Surveyed quantifier (evaluateFilter registry filter)
        (fun v here => body.evaluateAt registry v here true) (.conflict failed) [] []
        (placedElements path elements) r := by
  obtain ⟨r, evaluated, kind⟩ := exists_kind known document
  rw [evaluateAt_quantified there listed] at evaluated
  exact ⟨r, _, kind, Quantifier.surveyed_of_survey evaluated⟩

/-- An element that the filter selects and on which the body is decisive decides the whole. -/
theorem kind_eq_decisive_iff (known : registry.Knows (.quantified quantifier path filter body))
    (there : path.find? document = some collection) (listed : collection.elements? = some elements) :
    (quantified quantifier path filter body).kind registry document = .ok quantifier.decisive ↔
      ∃ v ∈ elements.map Prod.snd, filterKind registry filter v = .ok .satisfied ∧
        body.kind registry v = .ok quantifier.decisive := by
  obtain ⟨r, failed, kind, surveyed⟩ := exists_surveyed known there listed
  rw [kind, Except.ok.injEq, ← Quantifier.decision_iff_kind, surveyed.decision_iff, placedElements]
  simp only [List.mem_map, exists_exists_and_eq_and, decides_iff]

/-- Without a decision nothing is open exactly if every element is rejected or has no say. -/
theorem kind_eq_dual_decisive_iff (known : registry.Knows (.quantified quantifier path filter body))
    (there : path.find? document = some collection) (listed : collection.elements? = some elements) :
    (quantified quantifier path filter body).kind registry document = .ok quantifier.dual.decisive ↔
      ∀ v ∈ elements.map Prod.snd, filterKind registry filter v = .ok .conflict ∨
        body.kind registry v = .ok quantifier.dual.decisive := by
  obtain ⟨r, failed, kind, surveyed⟩ := exists_surveyed known there listed
  rw [kind, Except.ok.injEq, ← Quantifier.decision_iff_kind,
    surveyed.dual_decision_iff (Call.isWellFormed_evaluateFilter registry filter)
      (Call.isWellFormed_evaluateAt registry body true), placedElements]
  simp only [List.forall_mem_map, abstains_iff, true_and]

/-- What is of neither kind is open. -/
theorem kind_eq_pending_iff (known : registry.Knows (.quantified quantifier path filter body))
    (document : Value) :
    (quantified quantifier path filter body).kind registry document = .ok .pending ↔
      (quantified quantifier path filter body).kind registry document ≠ .ok quantifier.decisive ∧
        (quantified quantifier path filter body).kind registry document ≠
          .ok quantifier.dual.decisive := by
  obtain ⟨r, -, kind⟩ := exists_kind known document
  rw [kind]
  cases quantifier <;> cases r <;> simp [Residual.kind, Quantifier.decisive, Quantifier.dual]

/-! ## Counts -/

variable {comparator : String} {operand : Value}

/-- The number of values on which a filter is satisfied. -/
def passing (registry : Registry) (filter : Option Policy) (values : List Value) : Nat :=
  values.countP fun v => filterKind registry filter v = .ok .satisfied

theorem countPassing_eq_ok {binding : Path} {count : Nat}
    (counted : countPassing (evaluateFilter registry filter) (placedElements binding elements) =
      .ok count) : count = passing registry filter (elements.map Prod.snd) := by
  induction elements generalizing count with
  | nil => exact (Except.ok.inj counted).symm
  | cons element rest ih =>
    rw [placedElements, List.map_cons, countPassing] at counted
    obtain ⟨r, filtered, counted⟩ := bind_eq_ok counted
    obtain ⟨later, others, counted⟩ := bind_eq_ok counted
    have kind : filterKind registry filter element.2 = .ok r.kind := by
      rw [← map_kind_evaluateFilter filter element.2 (binding.child element.1), filtered]
      rfl
    rw [← Except.ok.inj counted, ih others, passing, passing, List.map_cons, List.countP_cons, kind]
    cases r <;> simp [Residual.isSatisfied, Residual.kind]

/-- A count over a collection compares the number of elements on which the filter is satisfied. -/
theorem kind_counted (known : registry.Knows (.counted path filter comparator operand))
    (there : path.find? document = some collection) (listed : collection.elements? = some elements) :
    ∃ op, registry.find? comparator = some op ∧
      (counted path filter comparator operand).kind registry document =
        .ok (if op.holds (.ofNat (passing registry filter (elements.map Prod.snd))) operand
          then .satisfied else .conflict) := by
  obtain ⟨r, evaluated, kind⟩ := exists_kind known document
  rw [evaluateAt, there] at evaluated
  dsimp only at evaluated
  rw [listed] at evaluated
  obtain ⟨count, counted, evaluated⟩ := bind_eq_ok evaluated
  obtain ⟨op, registered, evaluated⟩ := bind_eq_ok evaluated
  refine ⟨op, Registry.lookup_eq_ok.mp registered, ?_⟩
  rw [kind, ← countPassing_eq_ok counted]
  cases holds : op.holds (.ofNat count) operand with
  | true =>
    rw [holds] at evaluated
    rw [← Except.ok.inj evaluated]
    rfl
  | false =>
    rw [holds] at evaluated
    rw [← Except.ok.inj evaluated]
    rfl

/-! ## The order of the elements -/

/-- A quantifier or a count over the elements at a path that pass a filter. -/
inductive RangesOver (path : Path) (filter : Option Policy) : Policy → Prop where
  | quantified (quantifier : Quantifier) (body : Policy) :
      RangesOver path filter (.quantified quantifier path filter body)
  | counted (comparator : String) (operand : Value) :
      RangesOver path filter (.counted path filter comparator operand)

/-- In whatever order the elements come, and whatever else the document holds, the kind is the same. -/
theorem kind_of_perm {p : Policy} (ranges : p.RangesOver path filter) (known : registry.Knows p)
    (there : path.find? document = some collection) (listed : collection.elements? = some elements)
    {document' collection' : Value} {elements' : List (Value × Value)}
    (there' : path.find? document' = some collection')
    (listed' : collection'.elements? = some elements')
    (perm : (elements'.map Prod.snd).Perm (elements.map Prod.snd)) :
    p.kind registry document' = p.kind registry document := by
  cases ranges with
  | quantified quantifier body =>
    obtain ⟨r, -, kind, -⟩ := exists_surveyed known there listed
    obtain ⟨r', -, kind', -⟩ := exists_surveyed known there' listed'
    have decisive := kind_eq_decisive_iff known there' listed'
    have dual := kind_eq_dual_decisive_iff known there' listed'
    simp only [perm.mem_iff] at decisive dual
    rw [← kind_eq_decisive_iff known there listed] at decisive
    rw [← kind_eq_dual_decisive_iff known there listed] at dual
    rw [kind, kind', Except.ok.injEq, Except.ok.injEq] at decisive dual
    rw [kind, kind']
    apply congrArg
    -- Two of the three kinds are told apart by the laws, so the third one is, too.
    generalize r.kind = k, r'.kind = k' at decisive dual
    cases quantifier <;> cases k <;> cases k' <;> simp_all [Quantifier.decisive, Quantifier.dual]
  | counted comparator operand =>
    obtain ⟨op, registered, kind⟩ := kind_counted known there listed
    obtain ⟨op', registered', kind'⟩ := kind_counted known there' listed'
    cases Option.some.inj (registered.symm.trans registered')
    rw [kind, kind', passing, passing, perm.countP_eq]

/-! ## The table -/

/-- Over an array or a set, the kind of a quantifier or of a count is determined by the kinds of filter and
body on each element as a document of its own, in whatever order the elements come. -/
theorem kind_over_elements (registry : Registry) (filter : Option Policy)
    (there : path.find? document = some collection)
    (listed : collection.elements? = some elements) :
    let values := elements.map Prod.snd
    (∀ body, registry.Knows (.quantified .universal path filter body) →
      let whole := (quantified .universal path filter body).kind registry document
      (whole = .ok .conflict ↔
        ∃ v ∈ values, filterKind registry filter v = .ok .satisfied ∧
          body.kind registry v = .ok .conflict) ∧
      (whole = .ok .satisfied ↔
        ∀ v ∈ values, filterKind registry filter v = .ok .conflict ∨
          body.kind registry v = .ok .satisfied) ∧
      (whole = .ok .pending ↔ whole ≠ .ok .conflict ∧ whole ≠ .ok .satisfied)) ∧
    (∀ body, registry.Knows (.quantified .existential path filter body) →
      let whole := (quantified .existential path filter body).kind registry document
      (whole = .ok .satisfied ↔
        ∃ v ∈ values, filterKind registry filter v = .ok .satisfied ∧
          body.kind registry v = .ok .satisfied) ∧
      (whole = .ok .conflict ↔
        ∀ v ∈ values, filterKind registry filter v = .ok .conflict ∨
          body.kind registry v = .ok .conflict) ∧
      (whole = .ok .pending ↔ whole ≠ .ok .satisfied ∧ whole ≠ .ok .conflict)) ∧
    (∀ comparator operand, registry.Knows (.counted path filter comparator operand) →
      let whole := (counted path filter comparator operand).kind registry document
      ∃ op, registry.find? comparator = some op ∧
        (whole = .ok .satisfied ↔
          op.holds (.ofNat (passing registry filter values)) operand = true) ∧
        (whole = .ok .conflict ↔
          op.holds (.ofNat (passing registry filter values)) operand = false)) ∧
    ∀ p : Policy, p.RangesOver path filter → registry.Knows p →
      ∀ document' collection' elements', path.find? document' = some collection' →
        collection'.elements? = some elements' → (elements'.map Prod.snd).Perm values →
        p.kind registry document' = p.kind registry document := by
  intro values
  refine ⟨fun body known => ?_, fun body known => ?_, fun comparator operand known => ?_, ?_⟩
  · exact ⟨kind_eq_decisive_iff known there listed, kind_eq_dual_decisive_iff known there listed,
      kind_eq_pending_iff known document⟩
  · exact ⟨kind_eq_decisive_iff known there listed, kind_eq_dual_decisive_iff known there listed,
      kind_eq_pending_iff known document⟩
  · obtain ⟨op, registered, kind⟩ := kind_counted known there listed
    refine ⟨op, registered, ?_⟩
    rw [kind]
    cases op.holds (.ofNat (passing registry filter values)) operand <;> simp
  · intro p ranges known document' collection' elements' there' listed' perm
    exact kind_of_perm ranges known there listed there' listed' perm

/-- Of one member it is not known whether it is active, one is active and of age, of one it is not known how
old it is, and one is not active. In a set the members come in another order. -/
theorem kind_over_elements_of_members :
    let members : Path := ⟨[.string "members"]⟩
    let active : Policy :=
      .leaf { path := ⟨[.string "active"]⟩, operator := "=", operand := .bool true }
    let adult : Policy :=
      .leaf { path := ⟨[.string "age"]⟩, operator := ">=", operand := .ofNat 18 }
    let idle : Value := .object [(.string "age", .ofNat 50)]
    let grown : Value := .object [(.string "active", .bool true), (.string "age", .ofNat 40)]
    let ageless : Value := .object [(.string "active", .bool true)]
    let retired : Value := .object [(.string "active", .bool false), (.string "age", .ofNat 12)]
    let values := [idle, grown, ageless, retired]
    let document : Value := .object [(.string "members", .array values)]
    let reversed : Value := .object [(.string "members", .set values.reverse)]
    let every : Policy := .quantified .universal members (some active) adult
    let any : Policy := .quantified .existential members (some active) adult
    let several : Policy := .counted members (some active) ">=" (.ofNat 2)
    Registry.builtins.Knows every ∧ Registry.builtins.Knows any ∧
      Registry.builtins.Knows several ∧
      every.kind .builtins document = .ok .pending ∧
      (every.kind .builtins document = .ok .satisfied ↔
        ∀ v ∈ values, filterKind .builtins (some active) v = .ok .conflict ∨
          adult.kind .builtins v = .ok .satisfied) ∧
      (any.kind .builtins document = .ok .satisfied ↔
        ∃ v ∈ values, filterKind .builtins (some active) v = .ok .satisfied ∧
          adult.kind .builtins v = .ok .satisfied) ∧
      (∃ op, Registry.builtins.find? ">=" = some op ∧
        (several.kind .builtins document = .ok .satisfied ↔
          op.holds (.ofNat (passing .builtins (some active) values)) (.ofNat 2) = true)) ∧
      every.kind .builtins reversed = every.kind .builtins document := by
  intro members active adult idle grown ageless retired values document reversed every any several
  have knowsEvery : Registry.builtins.Knows every := by decide +kernel
  have knowsAny : Registry.builtins.Knows any := by decide +kernel
  have knowsSeveral : Registry.builtins.Knows several := by decide +kernel
  have there : members.find? document = some (.array values) := rfl
  have there' : members.find? reversed = some (.set values.reverse) := rfl
  have listed : (Value.array values).elements? = some
      [(.ofNat 0, idle), (.ofNat 1, grown), (.ofNat 2, ageless), (.ofNat 3, retired)] := rfl
  have listed' : (Value.set values.reverse).elements? = some
      [(retired, retired), (ageless, ageless), (grown, grown), (idle, idle)] := rfl
  obtain ⟨universal, existential, counted, order⟩ :=
    kind_over_elements .builtins (some active) there listed
  obtain ⟨op, registered, satisfied, -⟩ := counted ">=" (.ofNat 2) knowsSeveral
  exact ⟨knowsEvery, knowsAny, knowsSeveral, by decide +kernel, (universal adult knowsEvery).2.1,
    (existential adult knowsAny).1, ⟨op, registered, satisfied⟩,
    order every (.quantified .universal adult) knowsEvery _ _ _ there' listed'
      (List.reverse_perm values)⟩

end Policy

end ResidualPolicy
