import ResidualPolicy.Proofs.Constraint

/-!
# The operands of policies

Where parts of policies are equal, only the form that comes first is kept. Whether the meaning is kept
with it depends on the operators: they must not distinguish equal operands that occur in the policies
(`Registry.RespectsOperands`). A policy in which every operand is written in one form only asks nothing
of its operators (`Registry.respectsOperands_of_distinct`). Negations have the operands of what they
negate (`Policy.IsOver.negate`).
-/

namespace ResidualPolicy

namespace Constraint

theorem operand_inverse (c : Constraint) : c.inverse.operand = c.operand := by
  unfold inverse inverse?
  by_cases negated : c.negated = true
  · simp [negated]
  · cases inverseOperator? c.operator <;> simp [negated]

theorem operand_withPolarity (c : Constraint) (positive : Bool) :
    (c.withPolarity positive).operand = c.operand := by
  cases positive
  · exact c.operand_inverse
  · rfl

end Constraint

namespace Policy

mutual

/-- The operands of a policy and of its counts, as often as they occur. -/
def operandList : Policy → List Value
  | .leaf c => [c.operand]
  | .connected _ parts => operandLists parts
  | .negation p => operandList p
  | .quantified _ _ none body => operandList body
  | .quantified _ _ (some filter) body => operandList filter ++ operandList body
  | .counted _ none _ operand => [operand]
  | .counted _ (some filter) _ operand => operandList filter ++ [operand]

/-- The operands of several policies. -/
def operandLists : List Policy → List Value
  | [] => []
  | p :: rest => operandList p ++ operandLists rest

end

theorem operandLists_eq_flatMap (parts : List Policy) :
    operandLists parts = parts.flatMap operandList := by
  induction parts with
  | nil => rfl
  | cons p rest ih => simp [operandLists, ih]

/-- All operands of the policy are among these. -/
def IsOver (operands : List Value) (p : Policy) : Prop :=
  ∀ o ∈ p.operandList, o ∈ operands

theorem isOver_operandLists {parts : List Policy} {p : Policy} (member : p ∈ parts) :
    p.IsOver (operandLists parts) := by
  rw [operandLists_eq_flatMap]
  exact fun o among => List.mem_flatMap_of_mem member among

variable {operands : List Value}

theorem isOver_leaf {c : Constraint} : (leaf c).IsOver operands ↔ c.operand ∈ operands :=
  List.forall_mem_singleton

theorem isOver_connected {connective : Connective} {parts : List Policy} :
    (connected connective parts).IsOver operands ↔ ∀ p ∈ parts, p.IsOver operands := by
  unfold IsOver
  rw [operandList, operandLists_eq_flatMap, List.forall_mem_flatMap]

theorem isOver_quantified {quantifier : Quantifier} {path : Path} {filter : Option Policy}
    {body : Policy} : (quantified quantifier path filter body).IsOver operands ↔
      (∀ f ∈ filter, f.IsOver operands) ∧ body.IsOver operands := by
  cases filter with
  | none => simp [IsOver, operandList]
  | some f => simp [IsOver, operandList, or_imp, forall_and]

theorem isOver_counted {path : Path} {filter : Option Policy} {comparator : String}
    {operand : Value} : (counted path filter comparator operand).IsOver operands ↔
      (∀ f ∈ filter, f.IsOver operands) ∧ operand ∈ operands := by
  cases filter with
  | none => simp [IsOver, operandList]
  | some f => simp [IsOver, operandList, or_imp, forall_and]

theorem isOver_conjunction {policies : List Policy} :
    (conjunction policies).IsOver operands ↔ ∀ p ∈ policies, p.IsOver operands := by
  unfold conjunction
  split
  · exact List.forall_mem_singleton.symm
  · exact isOver_connected

/-- The negation of a policy has no other operands. -/
theorem IsOver.negate {p : Policy} (h : p.IsOver operands) : p.negate.IsOver operands := by
  induction p with
  | leaf c =>
    rw [Policy.negate]
    cases exact : c.inverse? with
    | none => exact h
    | some d =>
      rw [isOver_leaf] at h
      rw [isOver_leaf, ← Constraint.inverse_of_inverse? exact, Constraint.operand_inverse]
      exact h
  | connected connective parts ih =>
    rw [isOver_connected] at h
    rw [Policy.negate, isOver_connected, negateParts_eq_map, List.forall_mem_map]
    exact fun p member => ih p member (h p member)
  | negation p ih => exact h
  | quantified quantifier path filter body ihFilter ihBody =>
    obtain ⟨filters, bodies⟩ := isOver_quantified.mp h
    rw [Policy.negate]
    exact isOver_quantified.mpr ⟨filters, ihBody bodies⟩
  | counted path filter comparator operand ih =>
    rw [Policy.negate]
    cases inverseComparator? comparator with
    | none => exact h
    | some inverse => exact isOver_counted.mpr (isOver_counted.mp h)

theorem IsOver.withPolarity {p : Policy} (h : p.IsOver operands) (positive : Bool) :
    (p.withPolarity positive).IsOver operands := by
  cases positive
  · exact h.negate
  · exact h

end Policy

namespace Registry

variable {registry : Registry}

/-- Operators do not distinguish those of the operands that are equal. -/
def RespectsOperands (registry : Registry) (operands : List Value) : Prop :=
  ∀ id op, registry.find? id = some op → ∀ v, ∀ o ∈ operands, ∀ u ∈ operands, (o == u) = true →
    op.holds v o = op.holds v u

theorem Lawful.respectsOperands (lawful : registry.Lawful) (operands : List Value) :
    registry.RespectsOperands operands :=
  fun id op registered v o _ u _ same => lawful id op registered v v o u BEq.rfl same

/-- The conjunction of some policies has no operands but theirs. -/
theorem RespectsOperands.conjunction {policies : List Policy}
    (respects : registry.RespectsOperands (Policy.operandLists policies)) :
    registry.RespectsOperands (Policy.conjunction policies).operandList := by
  have own : (Policy.conjunction policies).IsOver (Policy.operandLists policies) :=
    Policy.isOver_conjunction.mpr fun p => Policy.isOver_operandLists
  exact fun id op registered v o ho u hu => respects id op registered v o (own o ho) u (own u hu)

/-- Operands that are written in one form are not distinguished, whatever the operators are. -/
theorem respectsOperands_of_distinct {operands : List Value}
    (distinct : ∀ o ∈ operands, ∀ u ∈ operands, (o == u) = true → o = u) :
    registry.RespectsOperands operands :=
  fun _ _ _ _ o ho u hu same => by rw [distinct o ho u hu same]

end Registry

/-! ## An operator that does distinguish equal operands -/

/-- Whether an integer is a multiple of another one. A double counts as an integer only up to `2 ^ 53`, so
of larger divisors the operator tells the two forms apart. -/
def Operator.multipleOf : Operator where
  id := "multiple-of"
  holds
    | .number n, .number divisor =>
      match n.toInt64?, divisor.toInt64? with
      | some i, some j => i.toInt % j.toInt == 0
      | _, _ => false
    | _, _ => false

/-- The number under `a` is a multiple of another one. -/
def Constraint.multipleOf (divisor : Number) : Constraint where
  path := ⟨[.string "a"]⟩
  operator := "multiple-of"
  operand := .number divisor

theorem Constraint.evaluate_multipleOf {registry : Registry}
    (registered : registry.find? "multiple-of" = some .multipleOf) (n divisor : Number) :
    (Constraint.multipleOf divisor).evaluate registry (.object [(.string "a", .number n)]) .root true =
      .ok (if Operator.multipleOf.holds (.number n) (.number divisor) then .satisfied
        else .violated (.multipleOf divisor) (.number n)) := by
  have there : (Constraint.multipleOf divisor).path.find? (.object [(.string "a", .number n)]) =
      some (.number n) := rfl
  rw [evaluate_found there registered, admits]
  simp [multipleOf, withPolarity]

namespace Policy

/-- The number under `a` is a multiple of `2 ^ 60`, asked with an integer and with a double. -/
def multiples : List Policy :=
  [.leaf (.multipleOf (.int 1152921504606846976)),
    .leaf (.multipleOf (.float ⟨0x43b0000000000000⟩))]

/-- The two are one constraint in two forms. -/
theorem same_multiples :
    (Constraint.multipleOf (.float ⟨0x43b0000000000000⟩) ==
      Constraint.multipleOf (.int 1152921504606846976)) = true := by
  decide +kernel

/-- Zero satisfies the first of the two and violates the second. -/
theorem evaluate_multiples {registry : Registry}
    (registered : registry.find? "multiple-of" = some .multipleOf) :
    (conjunction multiples).evaluate registry (.object [(.string "a", .number (.int 0))]) =
      .ok (.violated (.multipleOf (.float ⟨0x43b0000000000000⟩)) (.number (.int 0))) := by
  have first := Constraint.evaluate_multipleOf registered (.int 0) (.int 1152921504606846976)
  have second := Constraint.evaluate_multipleOf registered (.int 0) (.float ⟨0x43b0000000000000⟩)
  rw [if_pos (by decide +kernel)] at first
  rw [if_neg (by decide +kernel)] at second
  show (evaluateAll registry multiples _ .root true).map Residual.conjoin = _
  rw [multiples, evaluateAll, evaluateAt, first, evaluateAll, evaluateAt, second]
  rfl

end Policy

end ResidualPolicy
