import ResidualPolicy.ConstraintSet
import ResidualPolicy.Proofs.Policy.Negation
import ResidualPolicy.Proofs.Policy.Operands
import ResidualPolicy.Proofs.Policy.Sameness

/-!
# Normal forms and what they are made of

Bringing a policy into normal form loses nothing: an operator that the policy uses is one of the
normal form, or the counterpart of one under a negation (`usesOnly_addUnder`). If the normal form
has no complex part, the policy is made of constraints joined by conjunctions alone, and its
residual is the conjunction of theirs, in the order in which they are added (`flat_addUnder`). Their
operands are those of the policy.

What holds of a policy and passes on to its parts, its negation included, holds of all that the
normal form consists of (`ConsistsOf.addUnder`). A property of its operators is such a property if
it does not tell built-in operators apart, as rewriting may put one in the place of another; so a
normal form and its policies have operators with the same properties of this kind
(`usesOnly_ofPolicies_iff`).
-/

namespace ResidualPolicy

/-! ## Sameness of policies -/

namespace Policy

theorem operatorLists_of_forall₂ {ps qs : List Policy}
    (each : List.Forall₂ (fun p q => p.operatorList = q.operatorList) ps qs) :
    operatorLists ps = operatorLists qs := by
  induction each with
  | nil => rfl
  | cons first _ ih => rw [operatorLists, operatorLists, first, ih]

/-- Policies that are the same use the same operators. -/
theorem operatorList_of_same {p q : Policy} (h : same p q = true) :
    p.operatorList = q.operatorList := by
  refine same_induct (motive := fun p q => p.operatorList = q.operatorList)
    (fun p q _ form => ?_) h
  cases form with
  | leaf h =>
    obtain ⟨-, operators, -⟩ := Constraint.beq_iff.mp h
    rw [operatorList, operatorList, operators]
  | connected connective parts =>
    exact operatorLists_of_forall₂ (parts.imp fun _ _ => And.right)
  | negation h => exact h.2
  | quantified quantifier paths filters bodies =>
    cases filters with
    | none => exact bodies.2
    | some filters => rw [operatorList, operatorList, filters.2, bodies.2]
  | counted comparator paths filters operands =>
    cases filters with
    | none => rfl
    | some filters => rw [operatorList, operatorList, filters.2]

end Policy

variable {registry : Registry}

namespace ConstraintSet

theorem mem_constraintList {set : ConstraintSet} {c : Constraint} :
    c ∈ set.constraintList ↔ ∃ under ∈ set.constraints, c ∈ under.2 := by
  simp [constraintList, Filed.toList]

/-- All operators of a normal form have a property. -/
structure UsesOnly (P : String → Prop) (set : ConstraintSet) : Prop where
  constraints : ∀ under ∈ set.constraints, ∀ c ∈ under.2, P c.operator
  complex : ∀ p ∈ set.complex, p.UsesOnly P

/-- All operators of a normal form are known. -/
structure Covered (registry : Registry) (set : ConstraintSet) : Prop where
  constraints : ∀ under ∈ set.constraints, ∀ c ∈ under.2, registry.contains c.operator = true
  complex : ∀ p ∈ set.complex, registry.Knows p

theorem covered_iff_usesOnly {set : ConstraintSet} :
    set.Covered registry ↔ set.UsesOnly (registry.contains · = true) :=
  ⟨fun ⟨constraints, complex⟩ => ⟨constraints, complex⟩,
    fun ⟨constraints, complex⟩ => ⟨constraints, complex⟩⟩

/-! ## Adding -/

theorem addUnder_single (positive : Bool) (connective : Connective) (p : Policy)
    (set : ConstraintSet) :
    addUnder positive (.connected connective [p]) set = addUnder positive p set := by
  rw [addUnder]

theorem addUnder_connected {positive : Bool} {connective : Connective} {parts : List Policy}
    (several : ∀ p, parts ≠ [p]) (set : ConstraintSet) :
    addUnder positive (.connected connective parts) set =
      match connective.withPolarity positive with
      | .conjunction => addAllUnder positive parts set
      | .disjunction =>
        set.addComplex ((Policy.connected connective parts).withPolarity positive) := by
  match parts, several with
  | [], _ => rfl
  | [p], several => exact absurd rfl (several p)
  | _ :: _ :: _, _ => rfl

theorem addUnder_quantified (positive : Bool) (quantifier : Quantifier) (path : Path)
    (filter : Option Policy) (body : Policy) (set : ConstraintSet) :
    addUnder positive (.quantified quantifier path filter body) set =
      set.addComplex ((Policy.quantified quantifier path filter body).withPolarity positive) := rfl

theorem addUnder_counted (positive : Bool) (path : Path) (filter : Option Policy)
    (comparator : String) (operand : Value) (set : ConstraintSet) :
    addUnder positive (.counted path filter comparator operand) set =
      set.addComplex ((Policy.counted path filter comparator operand).withPolarity positive) := rfl

/-- The complex parts are those before and the one that is added. -/
theorem mem_addComplex {set : ConstraintSet} {p q : Policy}
    (member : q ∈ (set.addComplex p).complex) : q ∈ set.complex ∨ q = p :=
  (Filed.mem_appendNew member).imp_right List.mem_singleton.mp

/-- What is true of the operators of all constraints after adding one was true before, and is true
of the one. -/
theorem operators_addConstraint {known : String → Prop} {set : ConstraintSet} {c : Constraint}
    (h : ∀ under ∈ (set.addConstraint c).constraints, ∀ d ∈ under.2, known d.operator) :
    (∀ under ∈ set.constraints, ∀ d ∈ under.2, known d.operator) ∧ known c.operator := by
  refine ⟨fun under member d among => ?_, ?_⟩
  · obtain ⟨under', member', among'⟩ := Filed.exists_mem_file member among c.path [c]
    exact h under' member' d among'
  · obtain ⟨under, member, d, among, same⟩ :=
      Filed.exists_same_file c.path (List.mem_singleton_self c) set.constraints
    change Constraint.same c d = true at same
    simp only [Constraint.same, Bool.and_eq_true] at same
    rw [beq_iff_eq.mp same.1.1.2]
    exact h under member d among

theorem operators_foldl_addConstraint {known : String → Prop} {cs : List Constraint}
    {set : ConstraintSet}
    (h : ∀ under ∈ (cs.foldl addConstraint set).constraints, ∀ d ∈ under.2, known d.operator) :
    (∀ under ∈ set.constraints, ∀ d ∈ under.2, known d.operator) ∧ ∀ c ∈ cs, known c.operator := by
  induction cs generalizing set with
  | nil => exact ⟨h, fun _ member => absurd member List.not_mem_nil⟩
  | cons c cs ih =>
    obtain ⟨added, others⟩ := ih h
    obtain ⟨before, own⟩ := operators_addConstraint added
    exact ⟨before, List.forall_mem_cons.mpr ⟨own, others⟩⟩

theorem usesOnly_addConstraint {P : String → Prop} {set : ConstraintSet} {c : Constraint}
    (uses : (set.addConstraint c).UsesOnly P) : set.UsesOnly P ∧ P c.operator := by
  obtain ⟨before, own⟩ := operators_addConstraint uses.constraints
  exact ⟨⟨before, uses.complex⟩, own⟩

theorem usesOnly_addComplex {P : String → Prop} {set : ConstraintSet} {p : Policy}
    (uses : (set.addComplex p).UsesOnly P) : set.UsesOnly P ∧ p.UsesOnly P := by
  refine ⟨⟨uses.constraints, fun q member => ?_⟩, ?_⟩
  · exact uses.complex q (Filed.subset_appendNew member)
  -- If the part was there already, it was there in a form with the same operators.
  · by_cases present : set.complex.contains p = true
    · obtain ⟨q, member, same⟩ := List.contains_iff_exists_mem_beq.mp present
      unfold Policy.UsesOnly
      rw [Policy.operatorList_of_same same]
      exact uses.complex q (Filed.subset_appendNew member)
    · refine uses.complex p ?_
      rw [addComplex, Filed.appendNew_cons, if_neg present]
      exact List.mem_append_right _ (List.mem_singleton_self p)

theorem usesOnly_addAllUnder {P : String → Prop} {positive : Bool} {parts : List Policy}
    {set : ConstraintSet} (uses : (addAllUnder positive parts set).UsesOnly P)
    (each : ∀ p ∈ parts, ∀ set, (addUnder positive p set).UsesOnly P →
      set.UsesOnly P ∧ p.UsesOnly P) :
    set.UsesOnly P ∧ ∀ p ∈ parts, p.UsesOnly P := by
  induction parts generalizing set with
  | nil => exact ⟨uses, fun _ member => absurd member List.not_mem_nil⟩
  | cons p rest ih =>
    obtain ⟨first, others⟩ := List.forall_mem_cons.mp each
    rw [addAllUnder] at uses
    obtain ⟨before, later⟩ := ih uses others
    obtain ⟨start, own⟩ := first set before
    exact ⟨start, List.forall_mem_cons.mpr ⟨own, later⟩⟩

/-- What is true of the operators of a normal form is true of those of the policies that it was made
of, unless it tells built-in operators apart. -/
theorem usesOnly_addUnder {P : String → Prop} (alike : BuiltinsAlike P) {p : Policy}
    {positive : Bool} {set : ConstraintSet} (uses : (addUnder positive p set).UsesOnly P) :
    set.UsesOnly P ∧ p.UsesOnly P := by
  induction p generalizing positive set with
  | leaf c =>
    rw [addUnder] at uses
    obtain ⟨before, own⟩ := usesOnly_addConstraint uses
    have own := (Constraint.withPolarity_operator_iff alike).mp own
    exact ⟨before, Policy.usesOnly_leaf.mpr own⟩
  | connected connective parts ih =>
    by_cases single : ∃ p, parts = [p]
    · obtain ⟨p, rfl⟩ := single
      rw [addUnder_single] at uses
      obtain ⟨before, own⟩ := ih p (List.mem_singleton_self p) uses
      exact ⟨before, Policy.usesOnly_connected.mpr (List.forall_mem_singleton.mpr own)⟩
    · rw [addUnder_connected (not_exists.mp single)] at uses
      split at uses
      · obtain ⟨before, own⟩ := usesOnly_addAllUnder uses fun p member set => ih p member
        exact ⟨before, Policy.usesOnly_connected.mpr own⟩
      · obtain ⟨before, own⟩ := usesOnly_addComplex uses
        exact ⟨before, (Policy.usesOnly_withPolarity_iff alike).mp own⟩
  | negation p ih =>
    rw [addUnder] at uses
    exact ih uses
  | quantified quantifier path filter body ihFilter ihBody =>
    rw [addUnder_quantified] at uses
    obtain ⟨before, own⟩ := usesOnly_addComplex uses
    exact ⟨before, (Policy.usesOnly_withPolarity_iff alike).mp own⟩
  | counted path filter comparator operand ih =>
    rw [addUnder_counted] at uses
    obtain ⟨before, own⟩ := usesOnly_addComplex uses
    exact ⟨before, (Policy.usesOnly_withPolarity_iff alike).mp own⟩

/-- A normal form covers the operators of the policies that it was made of. -/
theorem covered_addUnder [PatternEngine] (complete : registry.Complete) {p : Policy} {positive : Bool}
    {set : ConstraintSet} (covered : Covered registry (addUnder positive p set)) :
    Covered registry set ∧ registry.Knows p := by
  obtain ⟨before, own⟩ := usesOnly_addUnder complete.builtinsAlike (covered_iff_usesOnly.mp covered)
  exact ⟨covered_iff_usesOnly.mpr before, own⟩

end ConstraintSet

/-! ## What a normal form consists of -/

/-- A property that passes on from policies to what their normal form is made of. -/
structure Policy.IsInherited (P : Policy → Prop) : Prop where
  parts : ∀ connective ps, P (.connected connective ps) → ∀ p ∈ ps, P p
  inner : ∀ p, P (.negation p) → P p
  leaf : ∀ c positive, P (.leaf c) → P (.leaf (c.withPolarity positive))
  turned : ∀ p positive, P p → P (p.withPolarity positive)

namespace ConstraintSet

/-- All that a normal form asks for has a property. -/
structure ConsistsOf (P : Policy → Prop) (set : ConstraintSet) : Prop where
  constraints : set.constraints.All fun c => P (.leaf c)
  complex : ∀ p ∈ set.complex, P p

variable {P : Policy → Prop} {set : ConstraintSet}

theorem consistsOf_empty : empty.ConsistsOf P :=
  ⟨Filed.all_nil, fun _ => nofun⟩

theorem ConsistsOf.addComplex (h : set.ConsistsOf P) {p : Policy} (own : P p) :
    (set.addComplex p).ConsistsOf P where
  constraints := h.constraints
  complex q member :=
    (mem_addComplex member).elim (h.complex q) fun added => added ▸ own

theorem ConsistsOf.addAllUnder (h : set.ConsistsOf P) {positive : Bool} {parts : List Policy}
    (each : ∀ p ∈ parts, ∀ set : ConstraintSet, set.ConsistsOf P →
      (addUnder positive p set).ConsistsOf P) :
    (addAllUnder positive parts set).ConsistsOf P := by
  induction parts generalizing set with
  | nil => exact h
  | cons p rest ih =>
    obtain ⟨first, others⟩ := List.forall_mem_cons.mp each
    rw [ConstraintSet.addAllUnder]
    exact ih (first set h) others

/-- What is inherited by the parts of a policy is inherited by its normal form. -/
theorem ConsistsOf.addUnder (h : set.ConsistsOf P) (inherited : Policy.IsInherited P) {p : Policy}
    (own : P p) {positive : Bool} : (addUnder positive p set).ConsistsOf P := by
  induction p generalizing positive set with
  | leaf c =>
    rw [ConstraintSet.addUnder]
    have turned := inherited.leaf c positive own
    exact ⟨h.constraints.file _ (List.forall_mem_singleton.mpr turned), h.complex⟩
  | connected connective parts ih =>
    have each := inherited.parts connective parts own
    by_cases single : ∃ p, parts = [p]
    · obtain ⟨p, rfl⟩ := single
      rw [addUnder_single]
      exact ih p (List.mem_singleton_self p) h (each p (List.mem_singleton_self p))
    · rw [addUnder_connected (not_exists.mp single)]
      cases connective.withPolarity positive with
      | conjunction =>
        exact h.addAllUnder fun p member set before => ih p member before (each p member)
      | disjunction => exact h.addComplex (inherited.turned _ positive own)
  | negation p ih =>
    rw [ConstraintSet.addUnder]
    exact ih h (inherited.inner p own)
  | quantified quantifier path filter body =>
    exact h.addComplex (inherited.turned _ positive own)
  | counted path filter comparator operand =>
    exact h.addComplex (inherited.turned _ positive own)

end ConstraintSet

theorem Policy.isInherited_usesOnly {P : String → Prop} (alike : BuiltinsAlike P) :
    IsInherited (UsesOnly P) where
  parts _ _ uses := usesOnly_connected.mp uses
  inner _ uses := uses
  leaf _ _ uses :=
    usesOnly_leaf.mpr ((Constraint.withPolarity_operator_iff alike).mpr (usesOnly_leaf.mp uses))
  turned _ _ uses := (usesOnly_withPolarity_iff alike).mpr uses

/-! ## Policies made of constraints -/

/-- Under a polarity, a policy has the same residual as all of some constraints. -/
def Policy.AmountsTo [PatternEngine] (p : Policy) (positive : Bool) (cs : List Constraint) : Prop :=
  ∀ registry : Registry, registry.Complete → (∀ c ∈ cs, registry.contains c.operator = true) →
    ∀ document, p.evaluateAt registry document .root positive =
      .ok (Residual.conjoin (cs.map (Constraint.residual registry.judge document)))

namespace ConstraintSet

theorem complex_foldl_addConstraint (cs : List Constraint) (set : ConstraintSet) :
    (cs.foldl addConstraint set).complex = set.complex := by
  induction cs generalizing set with
  | nil => rfl
  | cons c cs ih => exact ih (set.addConstraint c)

theorem addComplex_not_flat (set : ConstraintSet) (p : Policy) : (set.addComplex p).complex ≠ [] :=
  Filed.appendNew_ne_nil (.inr (List.cons_ne_nil _ _))

theorem flat_addAllUnder [PatternEngine] {positive : Bool} {parts : List Policy} {set : ConstraintSet}
    (flat : (addAllUnder positive parts set).complex = [])
    (each : ∀ p ∈ parts, ∀ set, (addUnder positive p set).complex = [] →
      ∃ cs, addUnder positive p set = cs.foldl addConstraint set ∧
        (∀ c ∈ cs, c.operand ∈ p.operandList) ∧ p.AmountsTo positive cs) :
    ∃ cs : List Constraint, addAllUnder positive parts set = cs.foldl addConstraint set ∧
      (∀ c ∈ cs, c.operand ∈ Policy.operandLists parts) ∧
      ∀ registry : Registry, registry.Complete → (∀ c ∈ cs, registry.contains c.operator = true) →
        ∀ document, ∃ rs,
          Policy.evaluateAll registry parts document .root positive = .ok rs ∧
          Residual.conjoin rs =
            Residual.conjoin (cs.map (Constraint.residual registry.judge document)) := by
  induction parts generalizing set with
  | nil =>
    exact ⟨[], rfl, fun _ => nofun,
      fun registry _ _ document => ⟨[], by rw [Policy.evaluateAll], rfl⟩⟩
  | cons p rest ih =>
    obtain ⟨first, others⟩ := List.forall_mem_cons.mp each
    rw [addAllUnder] at flat
    obtain ⟨later, added, operands, amounts⟩ := ih flat others
    rw [added, complex_foldl_addConstraint] at flat
    obtain ⟨cs, added', operands', amounts'⟩ := first set flat
    refine ⟨cs ++ later, ?_, ?_, fun registry complete known document => ?_⟩
    · rw [addAllUnder, added, added', List.foldl_append]
    · refine List.forall_mem_append.mpr ⟨fun c member => ?_, fun c member => ?_⟩
      · exact List.mem_append_left _ (operands' c member)
      · exact List.mem_append_right _ (operands c member)
    · obtain ⟨knownCs, knownLater⟩ := List.forall_mem_append.mp known
      have head := amounts' registry complete knownCs document
      obtain ⟨rs, tail, same⟩ := amounts registry complete knownLater document
      refine ⟨.conjoin (cs.map (Constraint.residual registry.judge document)) :: rs, ?_, ?_⟩
      · rw [Policy.evaluateAll, head, ok_bind, tail, ok_bind]
        rfl
      · have whole (cs : List Constraint) :
            ∀ s ∈ cs.map (Constraint.residual registry.judge document), s.WellFormed :=
          List.forall_mem_map.mpr fun c _ => Constraint.wellFormed_residual _ _ c
        have parts : ∀ s ∈ rs, s.WellFormed := fun s member => by
          obtain ⟨q, -, evaluated⟩ :=
            exists_mem_of_forall₂ (Policy.forall₂_of_evaluateAll tail) s member
          exact Policy.wellFormed_of_evaluateAt evaluated
        rw [Residual.conjoin_cons (.conjoin (whole cs)) parts, same, List.map_append,
          Residual.conjoin_append (whole cs) (whole later)]

/-- Where nothing complex is left, a policy amounts to the constraints that were added. -/
theorem flat_addUnder [PatternEngine] {p : Policy} {positive : Bool} {set : ConstraintSet}
    (flat : (addUnder positive p set).complex = []) :
    ∃ cs, addUnder positive p set = cs.foldl addConstraint set ∧
      (∀ c ∈ cs, c.operand ∈ p.operandList) ∧ p.AmountsTo positive cs := by
  induction p generalizing positive set with
  -- A leaf under a negation is added as its inverse and evaluated as a negated leaf.
  | leaf c =>
    have own : (c.withPolarity positive).operand ∈ (Policy.leaf c).operandList := by
      rw [Constraint.operand_withPolarity]
      exact List.mem_singleton_self _
    refine ⟨[c.withPolarity positive], by rw [addUnder]; rfl, List.forall_mem_singleton.mpr own,
      fun registry complete known document => ?_⟩
    rw [Policy.evaluateAt, List.map_singleton, Residual.conjoin_singleton]
    exact Constraint.evaluate_eq_residual_withPolarity complete
      (known _ (List.mem_singleton_self _)) document
  | connected connective parts ih =>
    by_cases single : ∃ p, parts = [p]
    · obtain ⟨p, rfl⟩ := single
      rw [addUnder_single] at flat ⊢
      obtain ⟨cs, added, operands, amounts⟩ := ih p (List.mem_singleton_self p) flat
      refine ⟨cs, added, fun c member => List.mem_append_left _ (operands c member),
        fun registry complete known document => ?_⟩
      rw [Policy.evaluateAt_single]
      exact amounts registry complete known document
    · rw [addUnder_connected (not_exists.mp single)] at flat ⊢
      cases joined : connective.withPolarity positive with
      -- A disjunction is kept as a complex part, which a flat normal form does not have.
      | disjunction =>
        rw [joined] at flat
        exact absurd flat (addComplex_not_flat _ _)
      | conjunction =>
        rw [joined] at flat
        obtain ⟨cs, added, operands, amounts⟩ :=
          flat_addAllUnder flat fun p member set => ih p member
        refine ⟨cs, added, operands, fun registry complete known document => ?_⟩
        obtain ⟨rs, all, same⟩ := amounts registry complete known document
        rw [Policy.evaluateAt, joined]
        dsimp only
        rw [all, ← same]
        rfl
  | negation p ih =>
    rw [addUnder] at flat ⊢
    obtain ⟨cs, added, operands, amounts⟩ := ih flat
    refine ⟨cs, added, operands, fun registry complete known document => ?_⟩
    rw [Policy.evaluateAt]
    exact amounts registry complete known document
  | quantified quantifier path filter body ihFilter ihBody =>
    exact absurd flat (addComplex_not_flat _ _)
  | counted path filter comparator operand ih => exact absurd flat (addComplex_not_flat _ _)

/-! ## Lists of policies -/

theorem foldl_add (policies : List Policy) (set : ConstraintSet) :
    policies.foldl add set = addAllUnder true policies set := by
  induction policies generalizing set with
  | nil => rfl
  | cons p rest ih =>
    rw [List.foldl_cons, ih, addAllUnder]
    rfl

/-- The normal form of several policies is that of their conjunction. -/
theorem ofPolicies_eq (policies : List Policy) :
    ofPolicies policies = addUnder true (Policy.conjunction policies) empty := by
  by_cases single : ∃ p, policies = [p]
  · obtain ⟨p, rfl⟩ := single
    rfl
  · have joined : Policy.conjunction policies = .connected .conjunction policies := by
      unfold Policy.conjunction
      split
      · exact absurd ⟨_, rfl⟩ single
      · rfl
    rw [joined, addUnder_connected (not_exists.mp single), ofPolicies, foldl_add]
    rfl

theorem usesOnly_conjunction {P : String → Prop} {policies : List Policy} :
    (Policy.conjunction policies).UsesOnly P ↔ ∀ p ∈ policies, p.UsesOnly P := by
  unfold Policy.conjunction
  split
  · exact List.forall_mem_singleton.symm
  · exact Policy.usesOnly_connected

theorem knows_conjunction {registry : Registry} {policies : List Policy} :
    registry.Knows (Policy.conjunction policies) ↔ ∀ p ∈ policies, registry.Knows p :=
  usesOnly_conjunction

/-- The operators of a normal form and those of the policies have the same properties, except for
those that tell built-in operators apart. -/
theorem usesOnly_ofPolicies_iff {P : String → Prop} (alike : BuiltinsAlike P)
    {policies : List Policy} :
    (ofPolicies policies).UsesOnly P ↔ ∀ p ∈ policies, p.UsesOnly P := by
  rw [ofPolicies_eq, ← usesOnly_conjunction]
  refine ⟨fun uses => (usesOnly_addUnder alike uses).2, fun uses => ?_⟩
  have start : empty.ConsistsOf (Policy.UsesOnly P) := consistsOf_empty
  obtain ⟨constraints, complex⟩ := start.addUnder (Policy.isInherited_usesOnly alike) uses
  exact ⟨fun under member c among => Policy.usesOnly_leaf.mp (constraints under member c among),
    complex⟩

/-- The operators of a normal form are known if and only if those of the policies are. -/
theorem covered_ofPolicies_iff [PatternEngine] (complete : registry.Complete) {policies : List Policy} :
    (ofPolicies policies).Covered registry ↔ ∀ p ∈ policies, registry.Knows p :=
  covered_iff_usesOnly.trans (usesOnly_ofPolicies_iff complete.builtinsAlike)

end ConstraintSet

end ResidualPolicy
