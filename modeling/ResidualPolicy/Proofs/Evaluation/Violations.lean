import ResidualPolicy.Proofs.Evaluation.Contents

/-!
# Reported violations are violations

A violation names a constraint and the value that was found. For a leaf, and for a count over a
collection, the constraint fails of that value, under each polarity: the predicate that is registered
for its operator gives the answer that the constraint excludes (`Violation.IsReal`). The constraint was
not the one that was tested, if the test stood under a negation, so this rests on the inverses of
operators.

Two kinds of violations are no such tests. One stands in for a quantifier. The other one is that of a
count over a value that is no collection: nothing was counted, the value itself is reported, and the
constraint may well hold of it (`Policy.isReal_or_of_conflict`, `Policy.holds_of_reported_violation`).
-/

namespace ResidualPolicy

variable {registry : Registry}

namespace Violation

/-- The constraint fails of the witness, by the predicate that is registered for its operator. -/
def IsReal (registry : Registry) (v : Violation) : Prop :=
  ∃ op, registry.find? v.constraint.operator = some op ∧
    op.holds v.witness v.constraint.operand = v.constraint.negated

/-- The constraint is the one that stands in for a quantifier. -/
def StandsIn (v : Violation) : Prop :=
  ∃ quantifier path filter body positive,
    v.constraint = (Policy.quantified quantifier path filter body).standIn v.path positive

theorem isReal_iff_admits {c : Constraint} {witness : Value} :
    IsReal registry ⟨c, witness⟩ ↔
      ∃ op, registry.find? c.operator = some op ∧ c.admits op.holds witness = false := by
  simp only [IsReal, Constraint.admits, bne_eq_false_iff_eq]

/-- A leaf that was not admitted is violated, and under a negation its inverse is. -/
theorem isReal_leaf [PatternEngine] (builtins : registry.HasBuiltins) {c : Constraint} {found : Value}
    {positive : Bool} {op : Operator} (registered : registry.find? c.operator = some op)
    (failed : c.admits op.holds found ≠ positive) (place : Path) :
    IsReal registry ⟨(c.under place).withPolarity positive, found⟩ := by
  rw [Constraint.withPolarity_under]
  refine isReal_iff_admits.mpr ?_
  cases positive with
  | true => exact ⟨op, registered, Bool.eq_false_iff.mpr failed⟩
  | false =>
    obtain ⟨op', registered', opposite⟩ :=
      Constraint.exists_admits_inverse (fun _ => builtins) registered
    refine ⟨op', registered', (opposite found).trans ?_⟩
    rw [eq_true_of_ne_false failed]
    rfl

/-- A count that was not admitted is violated by the number of elements, under both polarities. -/
theorem isReal_counted [PatternEngine] (builtins : registry.HasBuiltins) {comparator : String}
    {operand : Value}
    {positive : Bool} {count : Nat} {op : Operator} (registered : registry.find? comparator = some op)
    (failed : op.holds (.ofNat count) operand ≠ positive) (binding : Path) :
    IsReal registry ⟨Policy.countConstraint binding comparator operand positive, .ofNat count⟩ := by
  unfold Policy.countConstraint
  cases positive with
  | true => exact ⟨op, registered, Bool.eq_false_iff.mpr failed⟩
  | false =>
    have held : op.holds (.ofNat count) operand = true := eq_true_of_ne_false failed
    cases paired : inverseComparator? comparator with
    | none => exact ⟨op, registered, held⟩
    | some inverse =>
      obtain ⟨a, b, rfl, rfl, opposite⟩ := inverseComparator?_eq_some paired
      have own : op = .ofBuiltin a := by
        rw [builtins a] at registered
        exact (Option.some.inj registered).symm
      rw [own] at held
      exact ⟨.ofBuiltin b, builtins b, Builtin.holds_countInverse_of_holds opposite held⟩

end Violation

/-- A count has found a value that is no collection, and this is what it reports. -/
inductive Call.Miscounts : Call → Violation → Prop where
  | scalar {path : Path} {filter : Option Policy} {comparator : String}
      {operand document found : Value} {place : Path} {positive : Bool}
      (there : path.find? document = some found) (scalar : found.elements? = none) :
      Miscounts ⟨.counted path filter comparator operand, document, place, positive⟩
        ⟨Policy.countConstraint (place.join path) comparator operand positive, found⟩

theorem Call.Fails.isReal_or [PatternEngine] {call : Call} {v : Violation}
    (fails : call.Fails registry v) (builtins : registry.HasBuiltins) :
    v.IsReal registry ∨ v.StandsIn ∨ call.Miscounts v := by
  cases fails with
  | leaf there registered failed => exact .inl (Violation.isReal_leaf builtins registered failed _)
  | quantified there => exact .inr (.inl ⟨_, _, _, _, _, rfl⟩)
  | scalar there scalar => exact .inr (.inr (.scalar there scalar))
  | counted there listed counted registered failed =>
    exact .inl (Violation.isReal_counted builtins registered failed _)

namespace Policy

/-- Every violation that is reported is one, unless it stands in for a quantifier or a count has found
what is no collection. -/
theorem isReal_or_of_conflict [PatternEngine] (builtins : registry.HasBuiltins) {p : Policy}
    {document : Value} {violations : Filed Violation}
    (evaluated : p.evaluate registry document = .ok (.conflict violations)) :
    ∀ under ∈ violations, ∀ v ∈ under.2, v.IsReal registry ∨ v.StandsIn ∨
      ∃ origin, Call.Visits registry ⟨p, document, .root, true⟩ origin ∧ origin.Miscounts v := by
  intro under member v among
  obtain ⟨origin, visits, fails⟩ := (Call.yields_of_evaluateAt evaluated under member).2 v among
  rcases fails.isReal_or builtins with real | standsIn | miscounts
  · exact .inl real
  · exact .inr (.inl standsIn)
  · exact .inr (.inr ⟨origin, visits, miscounts⟩)

/-- A leaf and a count, both under a negation, and both violated. -/
theorem isReal_or_of_conflict_of_negated :
    let age : Path := ⟨[.string "age"]⟩
    let items : Path := ⟨[.string "items"]⟩
    let adult : Constraint := { path := age, operator := ">=", operand := .ofNat 18 }
    let p : Policy := .connected .disjunction
      [.negation (.leaf adult), .negation (.counted items none ">=" (.ofNat 2))]
    let document : Value := .object
      [(.string "age", .ofNat 20), (.string "items", .array [.null, .bool true])]
    let few : Constraint := { path := items, operator := "<", operand := .ofNat 2 }
    let violations : Filed Violation :=
      [(age, [⟨{ adult with negated := true }, .ofNat 20⟩]), (items, [⟨few, .ofNat 2⟩])]
    Registry.builtins.HasBuiltins ∧ p.evaluate .builtins document = .ok (.conflict violations) ∧
      ∀ under ∈ violations, ∀ v ∈ under.2, v.IsReal .builtins ∨ v.StandsIn ∨
        ∃ origin, Call.Visits .builtins ⟨p, document, .root, true⟩ origin ∧ origin.Miscounts v := by
  intro age items adult p document few violations
  have evaluated : p.evaluate .builtins document = .ok (.conflict violations) := by
    unfold violations document few p adult items age
    rfl
  exact ⟨Registry.hasBuiltins_builtins, evaluated,
    isReal_or_of_conflict Registry.hasBuiltins_builtins evaluated⟩

/-- A count of a number reports that the number is not at least two, and the number is five. -/
theorem holds_of_reported_violation :
    let items : Path := ⟨[.string "items"]⟩
    let p : Policy := .counted items none ">=" (.ofNat 2)
    let document : Value := .object [(.string "items", .ofNat 5)]
    let c : Constraint := { path := items, operator := ">=", operand := .ofNat 2 }
    Registry.builtins.HasBuiltins ∧ Registry.builtins.Knows p ∧
      p.evaluate .builtins document = .ok (.conflict [(items, [⟨c, .ofNat 5⟩])]) ∧
      ¬c.IsStandIn ∧ ∃ op, Registry.builtins.find? c.operator = some op ∧
        op.holds (.ofNat 5) c.operand ≠ c.negated := by
  intro items p document c
  refine ⟨Registry.hasBuiltins_builtins, by decide +kernel, rfl, by decide +kernel,
    .ofBuiltin .greaterOrEqual, Registry.hasBuiltins_builtins .greaterOrEqual, ?_⟩
  decide +kernel

end Policy

end ResidualPolicy
