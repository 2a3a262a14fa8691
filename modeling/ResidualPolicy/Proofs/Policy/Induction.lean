import ResidualPolicy.Evaluation

/-!
# Induction on policies

Policies hold their parts in lists and their filters in options. The principle here has one case for
each form of a policy, with the hypothesis for every part and for the filter if there is one, and it
is what `induction` takes. What is known about the operators of a policy comes apart along the same
cases.
-/

namespace ResidualPolicy

/-- Induction with one case for each form of a policy. -/
@[elab_as_elim, induction_eliminator]
theorem Policy.induct {motive : Policy → Prop} (leaf : ∀ c, motive (.leaf c))
    (connected : ∀ connective parts, (∀ p ∈ parts, motive p) →
      motive (.connected connective parts))
    (negation : ∀ p, motive p → motive (.negation p))
    (quantified : ∀ quantifier path filter body, (∀ f ∈ filter, motive f) → motive body →
      motive (.quantified quantifier path filter body))
    (counted : ∀ path filter comparator operand, (∀ f ∈ filter, motive f) →
      motive (.counted path filter comparator operand))
    (p : Policy) : motive p := by
  refine @Policy.rec motive (fun parts => ∀ p ∈ parts, motive p)
    (fun filter => ∀ f ∈ filter, motive f) leaf connected negation quantified counted
    ?_ ?_ ?_ ?_ p
  · exact fun _ member => absurd member List.not_mem_nil
  · exact fun p rest here there => List.forall_mem_cons.mpr ⟨here, there⟩
  · exact fun _ member => absurd member (Option.not_mem_none _)
  · exact fun f here g member => Option.some.inj member ▸ here

/-! ## Operators -/

namespace Policy

/-- All operators of a policy have a property. -/
def UsesOnly (P : String → Prop) (p : Policy) : Prop :=
  ∀ id ∈ p.operatorList, P id

variable {P : String → Prop}

theorem usesOnly_leaf {c : Constraint} : UsesOnly P (.leaf c) ↔ P c.operator :=
  List.forall_mem_singleton

theorem usesOnly_connected {connective : Connective} {parts : List Policy} :
    UsesOnly P (.connected connective parts) ↔ ∀ p ∈ parts, UsesOnly P p := by
  unfold UsesOnly
  rw [operatorList, operatorLists_eq_flatMap, List.forall_mem_flatMap]

theorem usesOnly_quantified {quantifier : Quantifier} {path : Path} {filter : Option Policy}
    {body : Policy} :
    UsesOnly P (.quantified quantifier path filter body) ↔
      (∀ f ∈ filter, UsesOnly P f) ∧ UsesOnly P body := by
  cases filter with
  | none => simp [UsesOnly, operatorList]
  | some f => simp [UsesOnly, operatorList, or_imp, forall_and]

theorem usesOnly_counted {path : Path} {filter : Option Policy} {comparator : String}
    {operand : Value} :
    UsesOnly P (.counted path filter comparator operand) ↔
      (∀ f ∈ filter, UsesOnly P f) ∧ P comparator := by
  cases filter with
  | none => simp [UsesOnly, operatorList]
  | some f => simp [UsesOnly, operatorList, or_imp, forall_and]

end Policy

/-! ## Known operators -/

namespace Registry

/-- All operators of a policy are registered. -/
def Knows (registry : Registry) (p : Policy) : Prop :=
  ∀ id ∈ p.operatorList, registry.contains id = true

instance (registry : Registry) (p : Policy) : Decidable (registry.Knows p) :=
  inferInstanceAs (Decidable (∀ id ∈ p.operatorList, registry.contains id = true))

variable {registry : Registry}

theorem knows_leaf {c : Constraint} :
    registry.Knows (.leaf c) ↔ registry.contains c.operator = true :=
  Policy.usesOnly_leaf

theorem knows_negation {p : Policy} : registry.Knows (.negation p) ↔ registry.Knows p := Iff.rfl

theorem knows_connected {connective : Connective} {parts : List Policy} :
    registry.Knows (.connected connective parts) ↔ ∀ p ∈ parts, registry.Knows p :=
  Policy.usesOnly_connected

theorem knows_quantified {quantifier : Quantifier} {path : Path} {filter : Option Policy}
    {body : Policy} :
    registry.Knows (.quantified quantifier path filter body) ↔
      (∀ f ∈ filter, registry.Knows f) ∧ registry.Knows body :=
  Policy.usesOnly_quantified

theorem knows_counted {path : Path} {filter : Option Policy} {comparator : String}
    {operand : Value} :
    registry.Knows (.counted path filter comparator operand) ↔
      (∀ f ∈ filter, registry.Knows f) ∧ registry.contains comparator = true :=
  Policy.usesOnly_counted

end Registry

end ResidualPolicy
