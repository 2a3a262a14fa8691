import ResidualPolicy.Proofs.Evaluation.Contents
import ResidualPolicy.Proofs.Policy.Legibility

/-!
# Reports are legible

What an evaluation reports is made of values of the policy and of keys of the document: names, indices
and members of sets. If all of these are legible, so are the paths of the residual and the constraints
that it lists (`Policy.isLegible_of_evaluate`). The condition is one on the calls of the evaluation: the
root meets it, and a call hands it on to the calls that it makes.
-/

namespace ResidualPolicy

namespace Call

variable {registry : Registry} {call other : Call}

/-- All values that a report of the call can be made of are legible, indices included. -/
structure IsLegible (call : Call) : Prop where
  policy : call.policy.IsLegible
  place : call.place.IsLegible
  parts : ∀ part ∈ call.document.parts, part.IsLegible
  indexable : call.document.HasIndexableArrays

/-- An element of a collection stands at a legible place. -/
theorem IsLegible.element (h : call.IsLegible) {path : Path} (keys : path.IsLegible)
    {collection : Value} {elements : List (Value × Value)} {element : Path × Value}
    (there : path.find? call.document = some collection)
    (listed : collection.elements? = some elements)
    (member : element ∈ placedElements (call.place.join path) elements) {p : Policy}
    (legible : p.IsLegible) (positive : Bool) :
    IsLegible ⟨p, element.2, element.1, positive⟩ := by
  obtain ⟨keyed, among, rfl⟩ := List.mem_map.mp member
  have parts : ∀ part ∈ collection.parts, part.IsLegible :=
    Value.forall_parts_lookup? h.parts there
  have indexable : collection.HasIndexableArrays := Value.forall_parts_lookup? h.indexable there
  have key := Value.isLegible_of_mem_elements? parts indexable listed among
  exact ⟨legible, (h.place.join keys).child key,
    Value.forall_parts_elements? parts listed keyed among,
    Value.forall_parts_elements? indexable listed keyed among⟩

theorem Makes.isLegible (makes : call.Makes registry other) (h : call.IsLegible) :
    other.IsLegible := by
  cases makes with
  | part joined member =>
    exact ⟨Policy.forall_valuesOf.mp h.policy _ member, h.place, h.parts, h.indexable⟩
  | alternative joined comes =>
    exact ⟨Policy.forall_valuesOf.mp h.policy _ comes.mem, h.place, h.parts, h.indexable⟩
  | negation => exact ⟨h.policy, h.place, h.parts, h.indexable⟩
  | filter there listed comes =>
    obtain ⟨keys, selects, -⟩ := Policy.forall_values_quantified.mp h.policy
    exact h.element keys there listed comes.mem (selects _ rfl) true
  | body there listed comes passes =>
    obtain ⟨keys, -, inner⟩ := Policy.forall_values_quantified.mp h.policy
    exact h.element keys there listed comes.mem inner _
  | counted there listed member =>
    obtain ⟨-, keys, selects⟩ := Policy.forall_values_counted.mp h.policy
    exact h.element keys there listed member (selects _ rfl) true

/-! ## Reports -/

/-- The constraint of a leaf is legible wherever it is reported. -/
theorem IsLegible.leaf {c : Constraint} {document : Value} {place : Path} {positive : Bool}
    (h : IsLegible ⟨.leaf c, document, place, positive⟩) :
    ((c.under place).withPolarity positive).IsLegible := by
  obtain ⟨operand, keys⟩ := List.forall_mem_cons.mp h.policy
  have here : (c.under place).IsLegible := ⟨h.place.join keys, operand⟩
  exact here.withPolarity positive

theorem IsLegible.standIn {quantifier : Quantifier} {path : Path} {filter : Option Policy}
    {body : Policy} {document : Value} {place : Path} {positive : Bool}
    (h : IsLegible ⟨.quantified quantifier path filter body, document, place, positive⟩) :
    ((Policy.quantified quantifier path filter body).standIn (place.join path) positive).IsLegible
      where
  path := h.place.join (Policy.forall_values_quantified.mp h.policy).1
  operand := Policy.isLegible_expr (Policy.IsLegible.withPolarity h.policy positive)

theorem IsLegible.countConstraint {path : Path} {filter : Option Policy} {comparator : String}
    {operand document : Value} {place : Path} {positive : Bool}
    (h : IsLegible ⟨.counted path filter comparator operand, document, place, positive⟩) :
    (Policy.countConstraint (place.join path) comparator operand positive).IsLegible where
  path := by
    rw [Policy.path_countConstraint]
    exact h.place.join (Policy.forall_values_counted.mp h.policy).2.1
  operand := by
    rw [Policy.operand_countConstraint]
    exact (Policy.forall_values_counted.mp h.policy).1

theorem Waits.isLegible {c : Constraint} (waits : call.Waits c) (h : call.IsLegible) :
    c.IsLegible := by
  cases waits with
  | leaf missing => exact h.leaf
  | quantified missing => exact h.standIn
  | counted missing => exact h.countConstraint

theorem Fails.isLegible {v : Violation} (fails : call.Fails registry v) (h : call.IsLegible) :
    v.constraint.IsLegible := by
  cases fails with
  | leaf there registered failed => exact h.leaf
  | quantified there => exact h.standIn
  | scalar there scalar => exact h.countConstraint
  | counted there listed counted registered failed => exact h.countConstraint

end Call

/-! ## Residuals -/

/-- All paths of the filing are legible, and so are the constraints of its entries. -/
def Filed.IsLegible {α : Type} (constraintOf : α → Constraint) (filed : Filed α) : Prop :=
  ∀ under ∈ filed, under.1.IsLegible ∧ ∀ entry ∈ under.2, (constraintOf entry).IsLegible

/-- The paths of the residual and its constraints are legible. -/
def Residual.IsLegible : Residual → Prop :=
  Residual.Lists (Filed.IsLegible id) (Filed.IsLegible Violation.constraint)

namespace Policy

/-- All numbers of the policy and the document are integers, whose sets and objects are ascending and
whose arrays are indexable, as they are kept. -/
structure IsIntegral (p : Policy) (document : Value) : Prop where
  ordered : ∀ v ∈ p.values, v.IsOrdered
  integral : ∀ v ∈ p.values, ∀ n ∈ v.numbers, n.isInteger = true
  orderedDocument : document.IsOrdered
  integralDocument : ∀ n ∈ document.numbers, n.isInteger = true
  indexable : document.HasIndexableArrays

theorem IsIntegral.isLegible {p : Policy} {document : Value} (h : p.IsIntegral document)
    (positive : Bool) : Call.IsLegible ⟨p, document, .root, positive⟩ where
  policy v member := Notation.denotes_text (h.ordered v member) (h.integral v member)
  place _ member := absurd member List.not_mem_nil
  parts := Value.isLegible_of_mem_parts h.orderedDocument h.integralDocument
  indexable := h.indexable

theorem isLegible_of_evaluate {registry : Registry} {p : Policy} {document : Value} {r : Residual}
    (integral : p.IsIntegral document) (evaluated : p.evaluate registry document = .ok r) :
    r.IsLegible := by
  have start := integral.isLegible true
  refine (Call.yields_of_evaluateAt evaluated).mono (fun constraints stems under member => ?_)
    fun violations stems under member => ?_
  · have legible (c : Constraint) (awaited : Call.Awaits registry ⟨p, document, .root, true⟩ c) :
        c.IsLegible := by
      obtain ⟨origin, visits, waits⟩ := awaited
      exact waits.isLegible (visits.preserves Call.Makes.isLegible start)
    obtain ⟨⟨c, awaited, path⟩, each⟩ := stems under member
    exact ⟨path ▸ (legible c awaited).path, fun c among => legible c (each c among)⟩
  · have legible (v : Violation) (violated : Call.Violates registry ⟨p, document, .root, true⟩ v) :
        v.constraint.IsLegible := by
      obtain ⟨origin, visits, fails⟩ := violated
      exact fails.isLegible (visits.preserves Call.Makes.isLegible start)
    obtain ⟨⟨v, violated, path⟩, each⟩ := stems under member
    exact ⟨path ▸ (legible v violated).path, fun v among => legible v (each v among)⟩

end Policy

end ResidualPolicy
