import ResidualPolicy.Proofs.ConstraintSet
import ResidualPolicy.Proofs.Evaluation.Sameness
import ResidualPolicy.Proofs.Policy.Negation
import ResidualPolicy.Proofs.Residual.Agreement

/-!
# Normal forms mean what their policies mean

Bringing policies into normal form moves constraints in front of the other parts, files them under
their paths, pushes negations down to the leaves and keeps parts that are the same once. On every
document the conjunction of the policies and the normal form have residuals that correspond
(`ConstraintSet.evaluate_ofPolicies`): the order under a path may differ, and of conflicts that begin
at the same path another one may be reported, but no part is lost and none is added.

The proof compares what is reported, and not in which order: a residual lies above the conjunction of
some policies if it lies above each of them, and the parts that a normal form asks for are, up to
sameness, those that were added.
-/

namespace ResidualPolicy

/-! ## Sameness and what is reported -/

theorem Filed.lists_same {α : Type} [BEq α] [EquivBEq α] {a b : Filed α}
    (h : List.Forall₂ SameUnder a b) (entry : α) : a.lists entry = b.lists entry := by
  induction h with
  | nil => rfl
  | cons first _ ih => rw [lists_cons, lists_cons, ih, contains_same first.2 BEq.rfl]

/-- What is above a residual is above every residual that is the same. -/
theorem Residual.SameAs.below_iff {r s : Residual} (h : r.SameAs s) (t : Residual) :
    r.Below t ↔ s.Below t := by
  cases h with
  | satisfied => rfl
  | pending same => cases t <;> simp [Below, Filed.lists_same same]
  | conflict same =>
    cases t with
    | conflict others =>
      have reflexive : List.Forall₂ Filed.SameUnder others others :=
        List.forall₂_same.mpr fun _ _ => ⟨BEq.rfl, BEq.rfl⟩
      simp [Below, Filed.compare_first?_same reflexive same]
    | _ => rfl

namespace Policy

variable {registry : Registry} {document : Value} {positive : Bool}

/-- What a policy reports on a document is reported by a residual, too. -/
def IsWithin (registry : Registry) (document : Value) (t : Residual) (positive : Bool) (p : Policy) :
    Prop :=
  ∃ r, p.evaluateAt registry document .root positive = .ok r ∧ r.Below t

variable {t : Residual}

theorem isWithin_congr {p q : Policy} {positive' : Bool}
    (h : p.evaluateAt registry document .root positive =
      q.evaluateAt registry document .root positive') :
    p.IsWithin registry document t positive ↔ q.IsWithin registry document t positive' := by
  unfold IsWithin
  rw [h]

theorem isWithin_connected {connective : Connective} {parts : List Policy}
    (joined : connective.withPolarity positive = .conjunction) :
    (Policy.connected connective parts).IsWithin registry document t positive ↔
      ∀ p ∈ parts, p.IsWithin registry document t positive := by
  unfold IsWithin
  simp only [evaluateAt, joined]
  constructor
  · rintro ⟨r, evaluated, below⟩ p member
    obtain ⟨rs, all, rfl⟩ := map_eq_ok evaluated
    obtain ⟨r, among, evaluated⟩ :=
      exists_mem_of_forall₂ (forall₂_of_evaluateAll all).flip p member
    exact ⟨r, evaluated, Residual.conjoin_below_iff.mp below r among⟩
  · intro each
    obtain ⟨rs, all⟩ := evaluateAll_ok fun p member => (each p member).imp fun _ => And.left
    refine ⟨_, by rw [all]; rfl, Residual.conjoin_below_iff.mpr fun r member => ?_⟩
    obtain ⟨p, among, evaluated⟩ := exists_mem_of_forall₂ (forall₂_of_evaluateAll all) r member
    obtain ⟨r', evaluated', below⟩ := each p among
    rw [evaluated] at evaluated'
    exact Except.ok.inj evaluated' ▸ below

/-- What policies that are the same report is the same. -/
theorem IsWithin.of_same {operands : List Value} (respects : registry.RespectsOperands operands)
    (short : document.HasShortArrays) {p q : Policy} (hp : p.IsOver operands)
    (hq : q.IsOver operands) (h : (p == q) = true)
    (within : p.IsWithin registry document t positive) :
    q.IsWithin registry document t positive := by
  obtain ⟨r, evaluated, below⟩ := within
  have root : (Path.root == Path.root) = true := BEq.rfl
  have alike := evaluateAt_same (.ofShort respects) hp hq h ⟨rfl, short⟩ root positive
  rw [evaluated] at alike
  unfold IsWithin
  generalize q.evaluateAt registry document .root positive = outcome at alike ⊢
  cases alike with
  | ok same => exact ⟨_, rfl, (same.below_iff t).mp below⟩

theorem isWithin_withPolarity [PatternEngine] (builtins : registry.HasBuiltins) {p : Policy}
    (known : registry.Knows p) (numbers : p.ComparesNumbers) :
    (p.withPolarity positive).IsWithin registry document t true ↔
      p.IsWithin registry document t positive := by
  cases positive
  · exact isWithin_congr (evaluateAt_negate builtins known numbers document .root)
  · exact Iff.rfl

end Policy

/-! ## The operands of a normal form -/

theorem Policy.isInherited_isOver (operands : List Value) :
    Policy.IsInherited (Policy.IsOver operands) where
  parts _ _ own := isOver_connected.mp own
  inner _ own := own
  leaf c positive own := by
    rw [isOver_leaf, Constraint.operand_withPolarity]
    exact isOver_leaf.mp own
  turned _ positive own := own.withPolarity positive

namespace ConstraintSet

variable {operands : List Value} {set : ConstraintSet}

/-- All operands in a normal form are among these. -/
structure IsOver (operands : List Value) (set : ConstraintSet) : Prop where
  constraints : set.constraints.All fun c => c.operand ∈ operands
  complex : ∀ p ∈ set.complex, p.IsOver operands

theorem isOver_iff : set.IsOver operands ↔ set.ConsistsOf (Policy.IsOver operands) := by
  have leaves : (set.constraints.All fun c => (Policy.leaf c).IsOver operands) ↔
      set.constraints.All fun c => c.operand ∈ operands := by
    simp only [Filed.All, Policy.isOver_leaf]
  exact ⟨fun h => ⟨leaves.mpr h.constraints, h.complex⟩,
    fun h => ⟨leaves.mp h.constraints, h.complex⟩⟩

theorem isOver_empty : empty.IsOver operands :=
  isOver_iff.mpr consistsOf_empty

/-- A normal form has no other operands than the policies that it is made of. -/
theorem IsOver.addUnder (h : set.IsOver operands) {p : Policy} (own : p.IsOver operands)
    {positive : Bool} : (addUnder positive p set).IsOver operands :=
  isOver_iff.mpr ((isOver_iff.mp h).addUnder (Policy.isInherited_isOver operands) own)

end ConstraintSet

/-! ## The parts of a normal form -/

theorem forall_contains_iff {α : Type} [BEq α] [EquivBEq α] {P Q : α → Prop}
    (respected : ∀ x y, Q x → Q y → (x == y) = true → P x → P y) {xs : List α}
    (all : ∀ x ∈ xs, Q x) : (∀ x, Q x → xs.contains x = true → P x) ↔ ∀ x ∈ xs, P x := by
  constructor
  · intro h x member
    exact h x (all x member) (List.contains_iff_exists_mem_beq.mpr ⟨x, member, BEq.rfl⟩)
  · intro h x own present
    obtain ⟨y, member, same⟩ := List.contains_iff_exists_mem_beq.mp present
    exact respected y x (all y member) own (BEq.symm same) (h y member)

namespace ConstraintSet

variable {operands : List Value}

/-- What is true of all parts that a normal form asks for, in whatever form they are kept that has
these operands. -/
def AllParts (operands : List Value) (set : ConstraintSet) (P : Policy → Prop) : Prop :=
  (∀ c : Constraint, c.operand ∈ operands → set.constraints.lists c = true → P (.leaf c)) ∧
    ∀ p : Policy, p.IsOver operands → set.complex.contains p = true → P p

variable {P : Policy → Prop} {set : ConstraintSet}

theorem allParts_empty : empty.AllParts operands P :=
  ⟨fun _ _ => nofun, fun _ _ => nofun⟩

section Respected

variable (respected : ∀ p q : Policy, p.IsOver operands → q.IsOver operands → (p == q) = true →
  P p → P q)

include respected

theorem forall_contains_leaf_iff {cs : List Constraint} (all : ∀ c ∈ cs, c.operand ∈ operands) :
    (∀ c : Constraint, c.operand ∈ operands → cs.contains c = true → P (.leaf c)) ↔
      ∀ c ∈ cs, P (.leaf c) :=
  forall_contains_iff (fun c d hc hd same => respected (.leaf c) (.leaf d)
    (Policy.isOver_leaf.mpr hc) (Policy.isOver_leaf.mpr hd) same) all

/-- The parts of a normal form are those of the policy that it stands for. -/
theorem allParts_iff (covered : set.IsOver operands) : set.AllParts operands P ↔
    ∀ p ∈ set.constraintList.map Policy.leaf ++ set.complex, P p := by
  rw [List.forall_mem_append, List.forall_mem_map, AllParts,
    forall_contains_iff respected covered.complex]
  refine and_congr_left fun _ => ?_
  simp only [Filed.lists, mem_constraintList, List.any_eq_true, forall_exists_index, and_imp]
  constructor
  · intro h c under member
    exact (forall_contains_leaf_iff respected (covered.constraints under member)).mp
      (fun d own present => h d own under member present) c
  · intro h c own under member
    exact (forall_contains_leaf_iff respected (covered.constraints under member)).mpr
      (fun d among => h d under member among) c own

theorem allParts_addConstraint {c : Constraint} (covered : c.operand ∈ operands) :
    (set.addConstraint c).AllParts operands P ↔ set.AllParts operands P ∧ P (.leaf c) := by
  have own : (∀ d : Constraint, d.operand ∈ operands → [c].contains d = true → P (.leaf d)) ↔
      P (.leaf c) :=
    (forall_contains_leaf_iff respected (List.forall_mem_singleton.mpr covered)).trans
      List.forall_mem_singleton
  simp only [AllParts, addConstraint, Filed.lists_file, Bool.or_eq_true, or_imp, forall_and, own]
  exact and_right_comm

theorem allParts_addComplex {p : Policy} (covered : p.IsOver operands) :
    (set.addComplex p).AllParts operands P ↔ set.AllParts operands P ∧ P p := by
  have own : (∀ q : Policy, q.IsOver operands → [p].contains q = true → P q) ↔ P p :=
    (forall_contains_iff respected (List.forall_mem_singleton.mpr covered)).trans
      List.forall_mem_singleton
  simp only [AllParts, addComplex, Filed.contains_appendNew, Bool.or_eq_true, or_imp, forall_and,
    own]
  exact and_assoc.symm

end Respected

/-! ## Adding policies -/

section Adding

variable {registry : Registry} {document : Value} {t : Residual}

theorem allParts_addAllUnder {positive : Bool} {parts : List Policy} {within : Policy → Prop}
    (each : ∀ p ∈ parts, ∀ set, (addUnder positive p set).AllParts operands P ↔
      set.AllParts operands P ∧ within p) :
    (addAllUnder positive parts set).AllParts operands P ↔
      set.AllParts operands P ∧ ∀ p ∈ parts, within p := by
  induction parts generalizing set with
  | nil => simp [addAllUnder]
  | cons p rest ih =>
    obtain ⟨first, others⟩ := List.forall_mem_cons.mp each
    rw [addAllUnder, ih others, first, List.forall_mem_cons, and_assoc]

/-- The parts of a normal form report, together, what the policies report that were added. -/
theorem allParts_addUnder [PatternEngine] (builtins : registry.HasBuiltins)
    (respects : registry.RespectsOperands operands) (short : document.HasShortArrays) {p : Policy}
    (known : registry.Knows p) (numbers : p.ComparesNumbers) (covered : p.IsOver operands)
    {positive : Bool} :
    (addUnder positive p set).AllParts operands (Policy.IsWithin registry document t true) ↔
      set.AllParts operands (Policy.IsWithin registry document t true) ∧
        p.IsWithin registry document t positive := by
  have respected : ∀ p q : Policy, p.IsOver operands → q.IsOver operands → (p == q) = true →
      p.IsWithin registry document t true → q.IsWithin registry document t true :=
    fun _ _ hp hq same => .of_same respects short hp hq same
  have complex (p : Policy) (set : ConstraintSet) (known : registry.Knows p)
      (numbers : p.ComparesNumbers) (covered : p.IsOver operands) (positive : Bool) :
      (set.addComplex (p.withPolarity positive)).AllParts operands
          (Policy.IsWithin registry document t true) ↔
        set.AllParts operands (Policy.IsWithin registry document t true) ∧
          p.IsWithin registry document t positive := by
    rw [allParts_addComplex respected (covered.withPolarity positive),
      Policy.isWithin_withPolarity builtins known numbers]
  induction p generalizing positive set with
  | leaf c =>
    have turned : (Policy.leaf (c.withPolarity positive)).evaluateAt registry document .root true =
        (Policy.leaf c).evaluateAt registry document .root positive := by
      rw [Policy.evaluateAt, Policy.evaluateAt]
      exact Constraint.evaluate_withPolarity (fun _ => builtins) (Registry.knows_leaf.mp known)
        document .root positive
    have own : (c.withPolarity positive).operand ∈ operands := by
      rw [Constraint.operand_withPolarity]
      exact Policy.isOver_leaf.mp covered
    rw [addUnder, allParts_addConstraint respected own, Policy.isWithin_congr turned]
  | connected connective parts ih =>
    have knownParts := Registry.knows_connected.mp known
    have coveredParts := Policy.isOver_connected.mp covered
    by_cases single : ∃ p, parts = [p]
    · obtain ⟨p, rfl⟩ := single
      have member := List.mem_singleton_self p
      rw [addUnder_single, Policy.isWithin_congr (Policy.evaluateAt_single ..)]
      exact ih p member (knownParts p member) (numbers.part member) (coveredParts p member)
    · rw [addUnder_connected (not_exists.mp single)]
      cases joined : connective.withPolarity positive with
      | conjunction =>
        rw [Policy.isWithin_connected joined]
        exact allParts_addAllUnder fun p member set =>
          ih p member (knownParts p member) (numbers.part member) (coveredParts p member)
      | disjunction => exact complex _ set known numbers covered positive
  | negation p ih =>
    rw [addUnder]
    have turned : (Policy.negation p).evaluateAt registry document .root positive =
        p.evaluateAt registry document .root (!positive) := by rw [Policy.evaluateAt]
    rw [Policy.isWithin_congr turned]
    exact ih known numbers covered
  | quantified quantifier path filter body =>
    exact complex _ set known numbers covered positive
  | counted path filter comparator operand =>
    exact complex _ set known numbers covered positive

end Adding

/-! ## Lists of policies -/

theorem comparesNumbers_conjunction {policies : List Policy} :
    (Policy.conjunction policies).ComparesNumbers ↔ ∀ p ∈ policies, p.ComparesNumbers := by
  unfold Policy.conjunction
  split
  · exact List.forall_mem_singleton.symm
  · unfold Policy.ComparesNumbers
    rw [Policy.countList, Policy.countLists_eq_flatMap, List.forall_mem_flatMap]

/-- The normal form of some policies and their conjunction report the same: the same is above both. -/
theorem isWithin_ofPolicies [PatternEngine] {registry : Registry} (builtins : registry.HasBuiltins)
    {policies : List Policy} (respects : registry.RespectsOperands (Policy.operandLists policies))
    {document : Value} (short : document.HasShortArrays)
    (known : ∀ p ∈ policies, registry.Knows p) (numbers : ∀ p ∈ policies, p.ComparesNumbers)
    (t : Residual) :
    (ofPolicies policies).toPolicy.IsWithin registry document t true ↔
      (Policy.conjunction policies).IsWithin registry document t true := by
  have respected (p q : Policy) (hp : p.IsOver (Policy.operandLists policies))
      (hq : q.IsOver (Policy.operandLists policies)) (same : (p == q) = true) :
      p.IsWithin registry document t true → q.IsWithin registry document t true :=
    .of_same respects short hp hq same
  have covered : (Policy.conjunction policies).IsOver (Policy.operandLists policies) :=
    Policy.isOver_conjunction.mpr fun p => Policy.isOver_operandLists
  rw [toPolicy, Policy.isWithin_connected rfl, ← allParts_iff respected, ofPolicies_eq,
    allParts_addUnder builtins respects short (knows_conjunction.mpr known)
      (comparesNumbers_conjunction.mpr numbers) covered]
  · exact and_iff_right allParts_empty
  · rw [ofPolicies_eq]
    exact isOver_empty.addUnder covered

/-- On every document the conjunction of some policies and their normal form have residuals that
correspond. Parts that are the same are kept once, in the form that comes first, so operators must not
distinguish operands of the policies that are equal. They cannot where none is written in two forms
(`Registry.respectsOperands_of_distinct`). -/
theorem evaluate_ofPolicies [PatternEngine] {registry : Registry} (builtins : registry.HasBuiltins)
    {policies : List Policy} (respects : registry.RespectsOperands (Policy.operandLists policies))
    (known : ∀ p ∈ policies, registry.Knows p) (numbers : ∀ p ∈ policies, p.ComparesNumbers)
    {document : Value} (short : document.HasShortArrays) :
    ∃ a b, (Policy.conjunction policies).evaluate registry document = .ok a ∧
      (ofPolicies policies).toPolicy.evaluate registry document = .ok b ∧ a.Corresponds b := by
  have within := isWithin_ofPolicies builtins respects short known numbers
  obtain ⟨a, evaluated⟩ := Policy.evaluateAt_ok (knows_conjunction.mpr known) document .root true
  obtain ⟨b, evaluated', below⟩ := (within a).mpr ⟨a, evaluated, .refl a⟩
  obtain ⟨a', again, above⟩ := (within b).mp ⟨b, evaluated', .refl b⟩
  rw [evaluated] at again
  cases Except.ok.inj again
  have corresponds := Residual.corresponds_of_below (Policy.wellFormed_of_evaluateAt evaluated)
    (Policy.wellFormed_of_evaluateAt evaluated') above below
  exact ⟨a, b, evaluated, evaluated', corresponds⟩

/-- A constraint that stands behind a disjunction on the same path comes before it in the normal form,
and one that is repeated with its number held in another way is kept once. -/
theorem evaluate_ofPolicies_of_reordered :
    let size : Path := ⟨[.string "size"]⟩
    let small : Constraint := { path := size, operator := "<", operand := .number (.int 9) }
    let again : Constraint :=
      { path := size, operator := ">=", operand := .number (.float ⟨0x4022000000000000⟩) }
    let named : Constraint :=
      { path := ⟨[.string "name"]⟩, operator := "matches", operand := .string "^a" }
    let choice : Policy := .connected .disjunction
      [.leaf { path := size, operator := "=", operand := .number (.int 3) }, .negation (.leaf named)]
    let policies : List Policy :=
      [choice, .leaf small, .negation (.connected .disjunction [.leaf again, .leaf named])]
    let document : Value := .object [(.string "name", .string "b")]
    Registry.builtins.HasBuiltins ∧
      Registry.builtins.RespectsOperands (Policy.operandLists policies) ∧
      (∀ p ∈ policies, Registry.builtins.Knows p) ∧ (∀ p ∈ policies, p.ComparesNumbers) ∧
      document.HasShortArrays ∧
      ∃ a b, (Policy.conjunction policies).evaluate .builtins document = .ok a ∧
        (ofPolicies policies).toPolicy.evaluate .builtins document = .ok b ∧ a.Corresponds b := by
  intro size small again named choice policies document
  have respects := (Registry.IsInitial.lawful (.inl rfl)).respectsOperands
    (Policy.operandLists policies)
  have known : ∀ p ∈ policies, Registry.builtins.Knows p := by decide +kernel
  have numbers : ∀ p ∈ policies, p.ComparesNumbers := by decide +kernel
  have short : document.HasShortArrays := by decide +kernel
  exact ⟨Registry.hasBuiltins_builtins, respects, known, numbers, short,
    evaluate_ofPolicies Registry.hasBuiltins_builtins respects known numbers short⟩

/-- The conjunction and the normal form differ where an operator distinguishes equal operands. The normal
form keeps the first of two constraints, and the second is violated. -/
theorem evaluate_ofPolicies_ne :
    let registry := Registry.builtins.after [.multipleOf]
    let document : Value := .object [(.string "a", .number (.int 0))]
    let double : Constraint := .multipleOf (.float ⟨0x43b0000000000000⟩)
    registry.HasBuiltins ∧ (∀ p ∈ Policy.multiples, registry.Knows p) ∧
      (∀ p ∈ Policy.multiples, p.ComparesNumbers) ∧ document.HasShortArrays ∧
      (Policy.conjunction Policy.multiples).evaluate registry document =
        .ok (.violated double (.number (.int 0))) ∧
      (ofPolicies Policy.multiples).toPolicy.evaluate registry document = .ok .satisfied := by
  intro registry document double
  have registered : registry.find? "multiple-of" = some .multipleOf := rfl
  let whole : Constraint := .multipleOf (.int 1152921504606846976)
  have normal : ofPolicies Policy.multiples = ⟨.single whole.path whole, []⟩ := by
    show (⟨Filed.file whole.path [double] (.single whole.path whole), []⟩ : ConstraintSet) = _
    rw [Filed.file_single Policy.same_multiples]
  have first := Constraint.evaluate_multipleOf registered (.int 0) (.int 1152921504606846976)
  rw [if_pos (by decide +kernel)] at first
  refine ⟨Registry.hasBuiltins_builtins.after _, by decide +kernel, by decide +kernel,
    by decide +kernel, Policy.evaluate_multiples registered, ?_⟩
  rw [normal]
  show (Policy.evaluateAll registry [.leaf whole] document .root true).map Residual.conjoin = _
  rw [Policy.evaluateAll, Policy.evaluateAt, first]
  rfl

end ConstraintSet

end ResidualPolicy
