import ResidualPolicy.Proofs.Evaluation

/-!
# Constraints and what becomes of them

A constraint that stands alone has a residual that depends on the document through what stands at
its path, and on the registry through the verdict of its operator on that (`Registry.judge`). Under
a negation a constraint is evaluated like its inverse.
-/

namespace ResidualPolicy

variable {registry : Registry}

namespace Constraint

/-! ## Inverses -/

theorem inverse_of_inverse? {c d : Constraint} (h : c.inverse? = some d) : c.inverse = d := by
  rw [inverse, h]
  rfl

theorem path_inverse (c : Constraint) : c.inverse.path = c.path := by
  unfold inverse inverse?
  by_cases negated : c.negated = true
  · simp [negated]
  · cases inverseOperator? c.operator <;> simp [negated]

/-- The inverse of a constraint admits exactly the values that the constraint does not admit. -/
theorem exists_admits_inverse [PatternEngine] {c : Constraint} {op : Operator}
    (builtins : isBuiltin c.operator = true → registry.HasBuiltins)
    (registered : registry.find? c.operator = some op) :
    ∃ op', registry.find? c.inverse.operator = some op' ∧
      ∀ found, c.inverse.admits op'.holds found = !c.admits op.holds found := by
  by_cases negated : c.negated = true
  · refine ⟨op, ?_, fun found => ?_⟩
    · simp [inverse, inverse?, negated, registered]
    · simp [inverse, inverse?, negated, admits]
  · rw [Bool.not_eq_true] at negated
    cases paired : inverseOperator? c.operator with
    | none =>
      refine ⟨op, ?_, fun found => ?_⟩
      · simp [inverse, inverse?, negated, paired, registered]
      · simp [inverse, inverse?, negated, paired, admits]
    | some id =>
      obtain ⟨a, b, known, rfl, exact⟩ := inverseOperator?_eq_some paired
      -- Only built-in operators have an inverse, and both have their own predicates.
      have all : registry.HasBuiltins := builtins (known ▸ isBuiltin_id a)
      have own : op = .ofBuiltin a := by
        rw [← known, all a] at registered
        exact (Option.some.inj registered).symm
      refine ⟨.ofBuiltin b, ?_, fun found => ?_⟩
      · simp [inverse, inverse?, negated, paired, all b]
      · simp [inverse, inverse?, negated, paired, admits, own, Operator.ofBuiltin,
          Builtin.holds_inverse exact]

/-- Evaluating the inverse of a constraint is evaluating the constraint under a negation. -/
theorem evaluate_inverse [PatternEngine] {c : Constraint}
    (builtins : isBuiltin c.operator = true → registry.HasBuiltins)
    (known : registry.contains c.operator = true) (document : Value) (place : Path) :
    c.inverse.evaluate registry document place true =
      c.evaluate registry document place false := by
  obtain ⟨op, registered⟩ := Registry.find?_of_contains known
  obtain ⟨op', registered', opposite⟩ := exists_admits_inverse builtins registered
  have reported : (c.inverse.under place).withPolarity true = (c.under place).withPolarity false :=
    (inverse_under c place).symm
  cases there : c.path.find? document with
  | none =>
    have there' : c.inverse.path.find? document = none := by rw [path_inverse, there]
    rw [evaluate_missing there, evaluate_missing there', reported]
  | some found =>
    have there' : c.inverse.path.find? document = some found := by rw [path_inverse, there]
    rw [evaluate_found there registered, evaluate_found there' registered', reported, opposite]
    cases c.admits op.holds found <;> rfl

theorem path_withPolarity (c : Constraint) (positive : Bool) :
    (c.withPolarity positive).path = c.path := by
  cases positive
  · exact c.path_inverse
  · rfl

/-- A constraint with a polarity is evaluated like the constraint under that polarity. -/
theorem evaluate_withPolarity [PatternEngine] {c : Constraint}
    (builtins : isBuiltin c.operator = true → registry.HasBuiltins)
    (known : registry.contains c.operator = true) (document : Value) (place : Path)
    (positive : Bool) :
    (c.withPolarity positive).evaluate registry document place true =
      c.evaluate registry document place positive := by
  cases positive
  · exact evaluate_inverse builtins known document place
  · rfl

/-- Inverting a constraint keeps its operator or goes from one built-in operator to another. -/
theorem operator_inverse (c : Constraint) :
    c.inverse.operator = c.operator ∨
      ∃ a b : Builtin, a.id = c.operator ∧ b.id = c.inverse.operator := by
  by_cases negated : c.negated = true
  · exact .inl (by simp [inverse, inverse?, negated])
  · cases paired : inverseOperator? c.operator with
    | none => exact .inl (by simp [inverse, inverse?, negated, paired])
    | some id =>
      obtain ⟨a, b, known, rfl, -⟩ := inverseOperator?_eq_some paired
      exact .inr ⟨a, b, known, by simp [inverse, inverse?, negated, paired]⟩

theorem hasBuiltins_of_known [PatternEngine] (complete : registry.Complete) {id : String}
    (known : registry.contains id = true) (builtin : isBuiltin id = true) :
    registry.HasBuiltins := by
  obtain ⟨a, rfl⟩ := exists_of_isBuiltin builtin
  exact complete a known

/-- What the operator of a constraint and that of its inverse have in common, unless it tells built-in
operators apart. -/
theorem inverse_operator_iff {P : String → Prop} (alike : BuiltinsAlike P) {c : Constraint} :
    P c.inverse.operator ↔ P c.operator := by
  rcases operator_inverse c with same | ⟨a, b, ofA, ofB⟩
  · rw [same]
  · rw [← ofA, ← ofB]
    exact ⟨alike b a, alike a b⟩

theorem withPolarity_operator_iff {P : String → Prop} (alike : BuiltinsAlike P) {c : Constraint}
    {positive : Bool} : P (c.withPolarity positive).operator ↔ P c.operator := by
  cases positive
  · exact inverse_operator_iff alike
  · exact Iff.rfl

end Constraint

/-! ## Residuals of single constraints -/

/-- Whether a value satisfies a constraint by the operators of a registry. -/
def Registry.judge (registry : Registry) (c : Constraint) (found : Value) : Bool :=
  (registry.find? c.operator).any fun op => c.admits op.holds found

namespace Constraint

/-- What becomes of a constraint on a document, given how to judge values. -/
def residual (judge : Constraint → Value → Bool) (document : Value) (c : Constraint) : Residual :=
  match c.path.find? document with
  | none => .waitFor c
  | some found => if judge c found then .satisfied else .violated c found

theorem wellFormed_residual (judge : Constraint → Value → Bool) (document : Value)
    (c : Constraint) : (c.residual judge document).WellFormed := by
  unfold residual
  split
  · exact Residual.wellFormed_waitFor c
  · split
    · exact .satisfied
    · exact Residual.wellFormed_violated c _

theorem isAt_residual (judge : Constraint → Value → Bool) (document : Value) (c : Constraint) :
    (c.residual judge document).IsAt c.path := by
  unfold residual
  split
  · exact .pending _ (Ascending.sameKey_self _)
  · split
    · exact .satisfied
    · exact .conflict _ (Ascending.sameKey_self _)

theorem evaluate_eq_residual {c : Constraint} (known : registry.contains c.operator = true)
    (document : Value) :
    c.evaluate registry document .root true = .ok (c.residual registry.judge document) := by
  obtain ⟨op, registered⟩ := Registry.find?_of_contains known
  unfold residual
  cases there : c.path.find? document with
  | none => exact evaluate_missing there
  | some found =>
    rw [evaluate_found there registered]
    simp only [Registry.judge, registered, Option.any_some, beq_true]
    rfl

/-- A constraint under a negation becomes what its inverse becomes. -/
theorem evaluate_eq_residual_withPolarity [PatternEngine] (complete : registry.Complete)
    {c : Constraint}
    {positive : Bool} (known : registry.contains (c.withPolarity positive).operator = true)
    (document : Value) :
    c.evaluate registry document .root positive =
      .ok ((c.withPolarity positive).residual registry.judge document) := by
  cases positive
  · have own := (inverse_operator_iff complete.builtinsAlike).mp known
    rw [← evaluate_inverse (hasBuiltins_of_known complete own) own]
    exact evaluate_eq_residual known document
  · exact evaluate_eq_residual known document

end Constraint

namespace Registry

/-- Verdicts on built-in operators are the same in all registries that have them. -/
theorem judge_of_builtin [PatternEngine] {other : Registry} (builtins : registry.HasBuiltins)
    (builtins' : other.HasBuiltins) {c : Constraint} (h : isBuiltin c.operator = true) :
    registry.judge c = other.judge c := by
  obtain ⟨a, known⟩ := exists_of_isBuiltin h
  funext found
  rw [judge, judge, ← known, builtins a, builtins' a]

/-- Lawful operators do not distinguish equal constraints. -/
theorem Lawful.judge_congr (lawful : registry.Lawful) {c d : Constraint} (h : (c == d) = true)
    (found : Value) : registry.judge c found = registry.judge d found := by
  change Constraint.same c d = true at h
  simp only [Constraint.same, Bool.and_eq_true] at h
  obtain ⟨⟨⟨-, operator⟩, operand⟩, negated⟩ := h
  rw [judge, judge, ← beq_iff_eq.mp operator]
  cases registered : registry.find? c.operator with
  | none => rfl
  | some op =>
    have same := lawful _ op registered found found _ _ BEq.rfl operand
    rw [Option.any_some, Option.any_some, Constraint.admits, Constraint.admits, same,
      beq_iff_eq.mp negated]

end Registry

end ResidualPolicy
