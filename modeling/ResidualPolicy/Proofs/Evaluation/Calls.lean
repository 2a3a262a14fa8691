import Mathlib.Logic.Relation
import ResidualPolicy.Proofs.Evaluation

/-!
# The calls of an evaluation

To evaluate a policy, parts of it are evaluated on parts of the document. Each such evaluation is a
`Call`. `Call.Makes` says which calls a call makes itself, and `Call.Visits` to which calls it leads
in the end. A part is called only where the evaluation comes to it: a disjunction ends behind the
first part that is satisfied, a quantifier behind the element that decides, and the body is not called
on elements that fail the filter.

A constraint or a violation arises in one call: at a leaf, or at a quantifier or a count whose
collection has something wrong (`Call.Waits`, `Call.Fails`). All other calls hand on what the calls
that they make have reported. So what is to be shown of reports is shown once for the calls, by steps
along `Call.Makes`, and then for the few ways in which a report arises.
-/

namespace ResidualPolicy

/-- An element that a filter does not reject. -/
def AtPlace.Passes (filter : AtPlace) (element : Path × Value) : Prop :=
  ∃ selected, filter element.2 element.1 = .ok selected ∧ ∀ failed, selected ≠ .conflict failed

/-- The evaluation of a policy, or of its negation, on a document at a place. -/
structure Call where
  policy : Policy
  document : Value
  place : Path
  positive : Bool

namespace Call

/-! ## Calls that a call makes -/

/-- A call makes another one itself. -/
inductive Makes (registry : Registry) : Call → Call → Prop where
  /-- A conjunction calls all its parts. -/
  | part {connective : Connective} {parts : List Policy} {p : Policy} {document : Value}
      {place : Path} {positive : Bool} (joined : connective.withPolarity positive = .conjunction)
      (member : p ∈ parts) :
      Makes registry ⟨.connected connective parts, document, place, positive⟩
        ⟨p, document, place, positive⟩
  | alternative {connective : Connective} {parts : List Policy} {p : Policy} {document : Value}
      {place : Path} {positive : Bool} (joined : connective.withPolarity positive = .disjunction)
      (comes : ComesTo (Policy.GoesOn registry document place positive) p parts) :
      Makes registry ⟨.connected connective parts, document, place, positive⟩
        ⟨p, document, place, positive⟩
  | negation {p : Policy} {document : Value} {place : Path} {positive : Bool} :
      Makes registry ⟨.negation p, document, place, positive⟩ ⟨p, document, place, !positive⟩
  | filter {quantifier : Quantifier} {path : Path} {f body : Policy} {document collection : Value}
      {place : Path} {positive : Bool} {elements : List (Value × Value)} {element : Path × Value}
      (there : path.find? document = some collection)
      (listed : collection.elements? = some elements)
      (comes : ComesTo ((quantifier.withPolarity positive).GoesOn
          (Policy.evaluateFilter registry (some f))
          fun v here => body.evaluateAt registry v here positive)
        element (placedElements (place.join path) elements)) :
      Makes registry ⟨.quantified quantifier path (some f) body, document, place, positive⟩
        ⟨f, element.2, element.1, true⟩
  | body {quantifier : Quantifier} {path : Path} {filter : Option Policy} {body : Policy}
      {document collection : Value} {place : Path} {positive : Bool}
      {elements : List (Value × Value)} {element : Path × Value}
      (there : path.find? document = some collection)
      (listed : collection.elements? = some elements)
      (comes : ComesTo ((quantifier.withPolarity positive).GoesOn
          (Policy.evaluateFilter registry filter)
          fun v here => body.evaluateAt registry v here positive)
        element (placedElements (place.join path) elements))
      (passes : AtPlace.Passes (Policy.evaluateFilter registry filter) element) :
      Makes registry ⟨.quantified quantifier path filter body, document, place, positive⟩
        ⟨body, element.2, element.1, positive⟩
  /-- A count calls its filter on every element. -/
  | counted {path : Path} {f : Policy} {comparator : String} {operand document collection : Value}
      {place : Path} {positive : Bool} {elements : List (Value × Value)} {element : Path × Value}
      (there : path.find? document = some collection)
      (listed : collection.elements? = some elements)
      (member : element ∈ placedElements (place.join path) elements) :
      Makes registry ⟨.counted path (some f) comparator operand, document, place, positive⟩
        ⟨f, element.2, element.1, true⟩

/-- A call leads to another one, through the calls that it makes. -/
abbrev Visits (registry : Registry) : Call → Call → Prop :=
  Relation.ReflTransGen (Makes registry)

variable {registry : Registry}

/-- What every call hands on to the calls that it makes, it hands on to all it leads to. -/
theorem Visits.preserves {P : Call → Prop} {call other : Call} (visits : Visits registry call other)
    (step : ∀ {a b}, Makes registry a b → P a → P b) (h : P call) : P other := by
  induction visits with
  | refl => exact h
  | tail _ makes ih => exact step makes ih

/-! ## Calls that report -/

/-- A call finds nothing where it looks and reports that this constraint waits. -/
inductive Waits : Call → Constraint → Prop where
  | leaf {c : Constraint} {document : Value} {place : Path} {positive : Bool}
      (missing : c.path.find? document = none) :
      Waits ⟨.leaf c, document, place, positive⟩ ((c.under place).withPolarity positive)
  | quantified {quantifier : Quantifier} {path : Path} {filter : Option Policy} {body : Policy}
      {document : Value} {place : Path} {positive : Bool} (missing : path.find? document = none) :
      Waits ⟨.quantified quantifier path filter body, document, place, positive⟩
        ((Policy.quantified quantifier path filter body).standIn (place.join path) positive)
  | counted {path : Path} {filter : Option Policy} {comparator : String} {operand document : Value}
      {place : Path} {positive : Bool} (missing : path.find? document = none) :
      Waits ⟨.counted path filter comparator operand, document, place, positive⟩
        (Policy.countConstraint (place.join path) comparator operand positive)

/-- A call reports this violation of what it finds. -/
inductive Fails (registry : Registry) : Call → Violation → Prop where
  | leaf {c : Constraint} {document found : Value} {place : Path} {positive : Bool} {op : Operator}
      (there : c.path.find? document = some found)
      (registered : registry.find? c.operator = some op)
      (failed : c.admits op.holds found ≠ positive) :
      Fails registry ⟨.leaf c, document, place, positive⟩
        ⟨(c.under place).withPolarity positive, found⟩
  /-- What is found is no collection, or it has no element to report. -/
  | quantified {quantifier : Quantifier} {path : Path} {filter : Option Policy} {body : Policy}
      {document found : Value} {place : Path} {positive : Bool}
      (there : path.find? document = some found) :
      Fails registry ⟨.quantified quantifier path filter body, document, place, positive⟩
        ⟨(Policy.quantified quantifier path filter body).standIn (place.join path) positive, found⟩
  | scalar {path : Path} {filter : Option Policy} {comparator : String}
      {operand document found : Value} {place : Path} {positive : Bool}
      (there : path.find? document = some found) (scalar : found.elements? = none) :
      Fails registry ⟨.counted path filter comparator operand, document, place, positive⟩
        ⟨Policy.countConstraint (place.join path) comparator operand positive, found⟩
  | counted {path : Path} {filter : Option Policy} {comparator : String}
      {operand document collection : Value} {place : Path} {positive : Bool}
      {elements : List (Value × Value)} {count : Nat} {op : Operator}
      (there : path.find? document = some collection)
      (listed : collection.elements? = some elements)
      (counted : countPassing (Policy.evaluateFilter registry filter)
        (placedElements (place.join path) elements) = .ok count)
      (registered : registry.find? comparator = some op)
      (failed : op.holds (.ofNat count) operand ≠ positive) :
      Fails registry ⟨.counted path filter comparator operand, document, place, positive⟩
        ⟨Policy.countConstraint (place.join path) comparator operand positive, .ofNat count⟩

end Call

end ResidualPolicy
