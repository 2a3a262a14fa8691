import ResidualPolicy.Pattern.Reader
import ResidualPolicy.Proofs.Constraint

/-!
# Negated policies evaluate like negations

There are two ways to evaluate the negation of a policy. One rewrites the policy: quantifiers and
connectives are replaced by their duals and operators by their inverses. The other one keeps the
policy and walks it with the opposite polarity. Both give the same residual, down to the constraints
that it reports.

The two can only part at the operators. An exact inverse is exact for all values, but the inverse of
an ordering comparator is one only between numbers, hence the condition on counts.
-/

namespace ResidualPolicy

variable {registry : Registry}

/-! ## Counts -/

namespace Policy

mutual

/-- The counts of a policy, those in filters included: each with its comparator and operand. -/
def countList : Policy → List (String × Value)
  | .leaf _ => []
  | .connected _ parts => countLists parts
  | .negation p => countList p
  | .quantified _ _ none body => countList body
  | .quantified _ _ (some filter) body => countList filter ++ countList body
  | .counted _ none comparator operand => [(comparator, operand)]
  | .counted _ (some filter) comparator operand => countList filter ++ [(comparator, operand)]

/-- The counts of several policies. -/
def countLists : List Policy → List (String × Value)
  | [] => []
  | p :: rest => countList p ++ countLists rest

end

/-- Counts are compared by an ordering operator only with numbers. -/
def ComparesNumbers (p : Policy) : Prop :=
  ∀ count ∈ p.countList, count.1 ∈ ["<", ">", "<=", ">="] → count.2.kind = .number

instance (p : Policy) : Decidable p.ComparesNumbers :=
  inferInstanceAs (Decidable
    (∀ count ∈ p.countList, count.1 ∈ ["<", ">", "<=", ">="] → count.2.kind = .number))

theorem countLists_eq_flatMap (parts : List Policy) :
    countLists parts = parts.flatMap countList := by
  induction parts with
  | nil => rfl
  | cons p rest ih => simp [countLists, ih]

theorem countList_part (connective : Connective) {parts : List Policy} {p : Policy}
    (member : p ∈ parts) : p.countList ⊆ (connected connective parts).countList := by
  rw [countList, countLists_eq_flatMap]
  exact fun _ among => List.mem_flatMap_of_mem member among

theorem countList_filter (quantifier : Quantifier) (path : Path) (f body : Policy) :
    f.countList ⊆ (quantified quantifier path (some f) body).countList :=
  List.subset_append_left ..

theorem countList_body (quantifier : Quantifier) (path : Path) (filter : Option Policy)
    (body : Policy) : body.countList ⊆ (quantified quantifier path filter body).countList := by
  cases filter with
  | none => exact List.Subset.refl _
  | some f => exact List.subset_append_right ..

theorem countList_counted (path : Path) (f : Policy) (comparator : String) (operand : Value) :
    f.countList ⊆ (counted path (some f) comparator operand).countList :=
  List.subset_append_left ..

theorem mem_countList (path : Path) (filter : Option Policy) (comparator : String)
    (operand : Value) : (comparator, operand) ∈ (counted path filter comparator operand).countList := by
  cases filter with
  | none => exact List.mem_singleton_self _
  | some f => exact List.mem_append_right _ (List.mem_singleton_self _)

theorem ComparesNumbers.part {connective : Connective} {parts : List Policy}
    (h : (Policy.connected connective parts).ComparesNumbers) {p : Policy} (member : p ∈ parts) :
    p.ComparesNumbers :=
  fun count among => h count (countList_part connective member among)

theorem ComparesNumbers.body {quantifier : Quantifier} {path : Path} {filter : Option Policy}
    {body : Policy} (h : (Policy.quantified quantifier path filter body).ComparesNumbers) :
    body.ComparesNumbers :=
  fun count among => h count (countList_body quantifier path filter body among)

theorem ComparesNumbers.operand {path : Path} {filter : Option Policy} {comparator : String}
    {operand : Value} (h : (Policy.counted path filter comparator operand).ComparesNumbers)
    (ordering : comparator ∈ ["<", ">", "<=", ">="]) : operand.kind = .number :=
  h (comparator, operand) (mem_countList path filter comparator operand) ordering

/-- The comparators without an exact inverse are the ordering ones. -/
theorem mem_orderings {a b : Builtin} (h : a.countInverse? = some b) (inexact : a.inverse? = none) :
    a.id ∈ ["<", ">", "<=", ">="] := by
  cases a <;> simp_all [Builtin.inverse?, Builtin.countInverse?, Builtin.id]

theorem mem_orderings_of_inverse {comparator inverse : String}
    (h : inverseComparator? comparator = some inverse) (ordering : inverse ∈ ["<", ">", "<=", ">="]) :
    comparator ∈ ["<", ">", "<=", ">="] := by
  obtain ⟨a, b, rfl, rfl, opposite⟩ := inverseComparator?_eq_some h
  cases a <;> simp only [Builtin.countInverse?, Builtin.inverse?, Option.some.injEq, reduceCtorEq]
    at opposite <;> subst opposite <;> simp [Builtin.id] at ordering ⊢

/-! ## Negations of negations -/

/-- One count is another one, or it has the inverse comparator. -/
def IsFormOf (count other : String × Value) : Prop :=
  count.2 = other.2 ∧ (count.1 = other.1 ∨ inverseComparator? other.1 = some count.1)

/-- The counts of a negation are counts of the policy, perhaps with the inverse comparator. -/
theorem exists_isFormOf_of_negate {p : Policy} :
    ∀ count ∈ p.negate.countList, ∃ other ∈ p.countList, IsFormOf count other := by
  have same {q : Policy} : ∀ count ∈ q.countList, ∃ other ∈ q.countList, IsFormOf count other :=
    fun count member => ⟨count, member, rfl, .inl rfl⟩
  induction p with
  | leaf c =>
    rw [negate]
    cases c.inverse? <;> exact fun _ => nofun
  | connected connective parts ih =>
    rw [negate, countList, countLists_eq_flatMap, negateParts_eq_map, List.flatMap_map]
    intro count among
    obtain ⟨p, member, there⟩ := List.mem_flatMap.mp among
    obtain ⟨other, found, form⟩ := ih p member count there
    exact ⟨other, countList_part connective member found, form⟩
  | negation p ih => exact same
  | quantified quantifier path filter body ihFilter ihBody =>
    rw [negate]
    have bodies : ∀ count ∈ body.negate.countList,
        ∃ other ∈ (quantified quantifier path filter body).countList, IsFormOf count other := by
      intro count there
      obtain ⟨other, found, form⟩ := ihBody count there
      exact ⟨other, countList_body quantifier path filter body found, form⟩
    cases filter with
    | none => exact bodies
    | some f =>
      refine List.forall_mem_append.mpr ⟨fun count here => ?_, bodies⟩
      exact ⟨count, countList_filter quantifier path f body here, rfl, .inl rfl⟩
  | counted path filter comparator operand ih =>
    rw [negate]
    cases paired : inverseComparator? comparator with
    | none => exact same
    | some inverse =>
      have own : ∃ other ∈ (counted path filter comparator operand).countList,
          IsFormOf (inverse, operand) other :=
        ⟨_, mem_countList path filter comparator operand, rfl, .inr paired⟩
      cases filter with
      | none => exact List.forall_mem_singleton.mpr own
      | some f =>
        refine List.forall_mem_append.mpr ⟨fun count here => ?_, List.forall_mem_singleton.mpr own⟩
        exact ⟨count, countList_counted path f comparator operand here, rfl, .inl rfl⟩

theorem ComparesNumbers.negate {p : Policy} (h : p.ComparesNumbers) : p.negate.ComparesNumbers := by
  intro count member ordering
  obtain ⟨other, there, operand, same | inverse⟩ := exists_isFormOf_of_negate count member
  · exact operand ▸ h other there (same ▸ ordering)
  · exact operand ▸ h other there (mem_orderings_of_inverse inverse ordering)

end Policy

/-! ## Operators of negations -/

namespace Policy

/-- The operators of a negation have the properties of those of the policy, unless they tell built-in
operators apart. -/
theorem usesOnly_negate_iff {P : String → Prop} (alike : BuiltinsAlike P) {p : Policy} :
    p.negate.UsesOnly P ↔ p.UsesOnly P := by
  induction p with
  | leaf c =>
    rw [negate]
    cases exact : c.inverse? with
    | none => exact Iff.rfl
    | some d =>
      rw [← Constraint.inverse_of_inverse? exact, usesOnly_leaf, usesOnly_leaf]
      exact Constraint.inverse_operator_iff alike
  | connected connective parts ih =>
    rw [negate, usesOnly_connected, usesOnly_connected, negateParts_eq_map, List.forall_mem_map]
    exact forall₂_congr ih
  | negation p ih => exact Iff.rfl
  | quantified quantifier path filter body ihFilter ihBody =>
    rw [negate, usesOnly_quantified, usesOnly_quantified, ihBody]
  | counted path filter comparator operand ih =>
    rw [negate]
    cases paired : inverseComparator? comparator with
    | none => exact Iff.rfl
    | some inverse =>
      obtain ⟨a, b, rfl, rfl, -⟩ := inverseComparator?_eq_some paired
      rw [usesOnly_counted, usesOnly_counted]
      exact and_congr_right fun _ => ⟨alike b a, alike a b⟩

theorem usesOnly_withPolarity_iff {P : String → Prop} (alike : BuiltinsAlike P) {p : Policy}
    {positive : Bool} : (p.withPolarity positive).UsesOnly P ↔ p.UsesOnly P := by
  cases positive
  · exact usesOnly_negate_iff alike
  · exact Iff.rfl

theorem knows_negate [PatternEngine] (builtins : registry.HasBuiltins) {p : Policy}
    (known : registry.Knows p) :
    registry.Knows p.negate :=
  (usesOnly_negate_iff (Registry.Complete.builtinsAlike fun _ _ => builtins)).mpr known

/-! ## Whole policies -/

variable {document : Value} {place : Path}

theorem evaluateAll_negateParts {parts : List Policy}
    (h : ∀ p ∈ parts, p.negate.evaluateAt registry document place true =
      p.evaluateAt registry document place false) :
    evaluateAll registry (negateParts parts) document place true =
      evaluateAll registry parts document place false := by
  induction parts with
  | nil => rfl
  | cons p rest ih =>
    obtain ⟨first, others⟩ := List.forall_mem_cons.mp h
    rw [negateParts, evaluateAll, evaluateAll, first, ih others]

theorem evaluateSome_negateParts {parts : List Policy}
    (h : ∀ p ∈ parts, p.negate.evaluateAt registry document place true =
      p.evaluateAt registry document place false) :
    evaluateSome registry (negateParts parts) document place true =
      evaluateSome registry parts document place false := by
  induction parts with
  | nil => rfl
  | cons p rest ih =>
    obtain ⟨first, others⟩ := List.forall_mem_cons.mp h
    rw [negateParts, evaluateSome, evaluateSome, first, ih others]

theorem countConstraint_inverse {path : Path} {comparator inverse : String} {operand : Value}
    (h : inverseComparator? comparator = some inverse) :
    countConstraint path inverse operand true = countConstraint path comparator operand false := by
  simp [countConstraint, h]

section

variable [PatternEngine]

/-- A count with a comparator that holds of counts exactly where another one does not is the count with
the other one, under a negation. -/
theorem evaluateAt_counted_of_complement (builtins : registry.HasBuiltins) {path : Path}
    {filter : Option Policy} {a b : Builtin} {operand : Value} (opposite : a.countInverse? = some b)
    (complement : ∀ count : Nat, b.holds (.ofNat count) operand = !a.holds (.ofNat count) operand) :
    (Policy.counted path filter b.id operand).evaluateAt registry document place true =
      (Policy.counted path filter a.id operand).evaluateAt registry document place false := by
  have paired : inverseComparator? a.id = some b.id := inverseComparator?_id opposite
  have flipped (count : Nat) : (Operator.ofBuiltin b).holds (.ofNat count) operand =
      !(Operator.ofBuiltin a).holds (.ofNat count) operand := complement count
  rw [evaluateAt, evaluateAt, countConstraint_inverse paired, builtins.lookup a, builtins.lookup b]
  cases path.find? document with
  | none => rfl
  | some collection =>
    dsimp only
    cases collection.elements? with
    | none => rfl
    | some elements =>
      dsimp only
      congr 1
      funext count
      simp only [ok_bind, flipped]
      cases (Operator.ofBuiltin a).holds (.ofNat count) operand <;> rfl

/-- A count with an inverse comparator is the count under a negation. -/
theorem evaluateAt_counted_inverse (builtins : registry.HasBuiltins) {path : Path}
    {filter : Option Policy} {comparator inverse : String} {operand : Value}
    (paired : inverseComparator? comparator = some inverse)
    (numbers : (Policy.counted path filter comparator operand).ComparesNumbers) :
    (Policy.counted path filter inverse operand).evaluateAt registry document place true =
      (Policy.counted path filter comparator operand).evaluateAt registry document place false := by
  obtain ⟨a, b, rfl, rfl, opposite⟩ := inverseComparator?_eq_some paired
  apply evaluateAt_counted_of_complement builtins opposite
  intro count
  exact Builtin.holds_countInverse opposite (.ofNat count) fun inexact =>
    numbers.operand (mem_orderings opposite inexact)

/-- The negation of a policy, evaluated, is the policy under a negation. -/
theorem evaluateAt_negate (builtins : registry.HasBuiltins) {p : Policy} (known : registry.Knows p)
    (numbers : p.ComparesNumbers) (document : Value) (place : Path) :
    p.negate.evaluateAt registry document place true =
      p.evaluateAt registry document place false := by
  induction p generalizing document place with
  | leaf c =>
    -- A leaf without an exact inverse is put under a negation, any other is replaced.
    have inverted := Constraint.evaluate_inverse (fun _ => builtins)
      (Registry.knows_leaf.mp known) document place
    cases exact : c.inverse? with
    | none =>
      have kept : (leaf c).negate = .negation (.leaf c) := by rw [negate, exact]
      rw [kept, evaluateAt]
      rfl
    | some d =>
      have rewritten : (leaf c).negate = .leaf d := by rw [negate, exact]
      rw [rewritten, evaluateAt, evaluateAt, ← inverted, Constraint.inverse_of_inverse? exact]
  | connected connective parts ih =>
    have each : ∀ p ∈ parts, p.negate.evaluateAt registry document place true =
        p.evaluateAt registry document place false := fun p member =>
      ih p member (Registry.knows_connected.mp known p member) (numbers.part member) document place
    rw [negate, evaluateAt, evaluateAt, connective.withPolarity_dual, evaluateAll_negateParts each,
      evaluateSome_negateParts each]
    rfl
  | negation p ih =>
    rw [negate, evaluateAt]
    rfl
  | quantified quantifier path filter body ihFilter ihBody =>
    -- Filters are not negated, so only the body is rewritten.
    have inner : (fun element here => body.negate.evaluateAt registry element here true) =
        fun element here => body.evaluateAt registry element here false := by
      funext element here
      exact ihBody (Registry.knows_quantified.mp known).2 numbers.body element here
    rw [negate, evaluateAt, evaluateAt, inner, quantifier.withPolarity_dual]
    rfl
  | counted path filter comparator operand ih =>
    cases paired : inverseComparator? comparator with
    | none =>
      have kept : (counted path filter comparator operand).negate =
          .negation (.counted path filter comparator operand) := by rw [negate, paired]
      rw [kept, evaluateAt]
      rfl
    | some inverse =>
      have rewritten : (counted path filter comparator operand).negate =
          .counted path filter inverse operand := by rw [negate, paired]
      rw [rewritten, evaluateAt_counted_inverse builtins paired numbers]

/-- Rewriting a policy into its negation and negating its evaluation give the same residual. -/
theorem evaluate_negate (builtins : registry.HasBuiltins) {p : Policy} (known : registry.Knows p)
    (numbers : p.ComparesNumbers) (document : Value) :
    ∃ r, p.negate.evaluate registry document = .ok r ∧
      (Policy.negation p).evaluate registry document = .ok r := by
  obtain ⟨r, evaluated⟩ := evaluateAt_ok known document .root false
  refine ⟨r, ?_, ?_⟩
  · rw [evaluate, evaluateAt_negate builtins known numbers, evaluated]
  · rw [evaluate, evaluateAt]
    exact evaluated

end

/-- A policy with a quantifier, a filter and a count, on a document with two elements. -/
theorem evaluate_negate_of_members :
    let members : Path := ⟨[.string "members"]⟩
    let active : Policy :=
      .leaf { path := ⟨[.string "active"]⟩, operator := "=", operand := .bool true }
    let senior : Policy :=
      .leaf { path := ⟨[.string "age"]⟩, operator := ">", operand := .ofNat 40 }
    let p : Policy := .connected .conjunction
      [.quantified .universal members (some active)
          (.connected .disjunction [senior, .negation active]),
        .counted members (some senior) "<" (.ofNat 2)]
    let document : Value := .object [(.string "members", .array
      [.object [(.string "active", .bool true), (.string "age", .ofNat 50)],
        .object [(.string "age", .ofNat 30)]])]
    Registry.builtins.HasBuiltins ∧ Registry.builtins.Knows p ∧ p.ComparesNumbers ∧
      ∃ r, p.negate.evaluate .builtins document = .ok r ∧
        (Policy.negation p).evaluate .builtins document = .ok r := by
  intro members active senior p document
  have known : Registry.builtins.Knows p := by decide +kernel
  have numbers : p.ComparesNumbers := by decide +kernel
  exact ⟨Registry.hasBuiltins_builtins, known, numbers,
    evaluate_negate Registry.hasBuiltins_builtins known numbers document⟩

end Policy

end ResidualPolicy
