import ResidualPolicy.Policy.Negation
import ResidualPolicy.Registry
import ResidualPolicy.Residual

/-!
# Evaluation

Evaluating a policy on a document walks the policy once, under a polarity: under a negation the same
walk evaluates the negated policy, without building it. Inside a collection the document is one of the
elements, and what is reported about it is filed under its place in the whole document.

An operator is looked up only where its value is there, so a policy with an unknown operator fails
only on documents that reach it.
-/

namespace ResidualPolicy

/-- The outcome of an evaluation that may meet an unknown operator. -/
abbrev Outcome := Except UnknownOperator Residual

/-- An evaluation of the elements of a collection, each with its place. -/
abbrev AtPlace := Value → Path → Outcome

/-- Evaluates a constraint on a document at a place. -/
def Constraint.evaluate (c : Constraint) (registry : Registry) (document : Value) (place : Path)
    (positive : Bool) : Outcome :=
  match c.path.find? document with
  | none => .ok (.waitFor ((c.under place).withPolarity positive))
  | some found => do
    let op ← registry.lookup c.operator
    if c.admits op.holds found == positive then return .satisfied
    else return .violated ((c.under place).withPolarity positive) found

/-! ## Collections -/

namespace Quantifier

/-- Goes through the elements of a collection, up to one that decides. The body is not evaluated on
elements that fail the filter. -/
def survey (quantifier : Quantifier) (filter body : AtPlace) (unmatched : Residual) :
    Filed Constraint → Filed Violation → List (Path × Value) → Outcome
  | pending, violations, [] => .ok (quantifier.conclude pending violations unmatched)
  | pending, violations, (place, element) :: rest => do
    match ← filter element place with
    | .conflict _ => survey quantifier filter body unmatched pending violations rest
    | selected =>
      match quantifier.verdict selected (← body element place) with
      | .decides r => return r
      | .adds waiting found =>
        survey quantifier filter body unmatched (pending.merge waiting) (violations.merge found) rest

end Quantifier

/-- The number of elements of a collection that pass a filter. One whose filter is open does not. -/
def countPassing (filter : AtPlace) : List (Path × Value) → Except UnknownOperator Nat
  | [] => .ok 0
  | (place, element) :: rest => do
    let r ← filter element place
    let count ← countPassing filter rest
    return if r.isSatisfied then count + 1 else count

/-- The elements of a collection with their places. -/
def placedElements (binding : Path) (elements : List (Value × Value)) : List (Path × Value) :=
  elements.map fun (key, element) => (binding.child key, element)

namespace Policy

/-- The constraint that stands in a report for a quantifier whose collection is missing, is no
collection, or has no element to report: it names the quantifier and holds it as a value. -/
def standIn (p : Policy) (binding : Path) (positive : Bool) : Constraint :=
  let effective := p.withPolarity positive
  { path := binding, operator := effective.tag, operand := effective.expr }

/-- The constraint on a number of elements. Under a negation it has the inverse comparator, if there is
one. -/
def countConstraint (binding : Path) (comparator : String) (operand : Value) (positive : Bool) :
    Constraint :=
  let c : Constraint := { path := binding, operator := comparator, operand }
  if positive then c
  else
    match inverseComparator? comparator with
    | some inverse => { c with operator := inverse }
    | none => { c with negated := true }

/-! ## The walk -/

mutual

/-- Evaluates a policy, or its negation, on a document at a place. -/
def evaluateAt (registry : Registry) : Policy → Value → Path → Bool → Outcome
  | .leaf c, document, place, positive => c.evaluate registry document place positive
  | .connected connective parts, document, place, positive =>
    match connective.withPolarity positive with
    | .conjunction => (evaluateAll registry parts document place positive).map Residual.conjoin
    | .disjunction => (evaluateSome registry parts document place positive).map Residual.disjoin
  | .negation p, document, place, positive => evaluateAt registry p document place (!positive)
  | .quantified quantifier path filter body, document, place, positive =>
    let binding := place.join path
    let standIn := standIn (.quantified quantifier path filter body) binding positive
    match path.find? document with
    | none => .ok (.waitFor standIn)
    | some collection =>
      match collection.elements? with
      | none => .ok (.violated standIn collection)
      | some elements =>
        (quantifier.withPolarity positive).survey (evaluateFilter registry filter)
          (fun element here => evaluateAt registry body element here positive)
          (.violated standIn collection) [] [] (placedElements binding elements)
  | .counted path filter comparator operand, document, place, positive =>
    let binding := place.join path
    let c := countConstraint binding comparator operand positive
    match path.find? document with
    | none => .ok (.waitFor c)
    | some collection =>
      match collection.elements? with
      | none => .ok (.violated c collection)
      | some elements => do
        let count ← countPassing (evaluateFilter registry filter) (placedElements binding elements)
        let op ← registry.lookup comparator
        if op.holds (.ofNat count) operand == positive then return .satisfied
        else return .violated c (.ofNat count)

/-- Evaluates all parts of a policy. -/
def evaluateAll (registry : Registry) :
    List Policy → Value → Path → Bool → Except UnknownOperator (List Residual)
  | [], _, _, _ => .ok []
  | p :: rest, document, place, positive => do
    let r ← evaluateAt registry p document place positive
    let rs ← evaluateAll registry rest document place positive
    return r :: rs

/-- Evaluates parts of a policy up to the first one that is satisfied. -/
def evaluateSome (registry : Registry) :
    List Policy → Value → Path → Bool → Except UnknownOperator (List Residual)
  | [], _, _, _ => .ok []
  | p :: rest, document, place, positive => do
    let r ← evaluateAt registry p document place positive
    if r.isSatisfied then return [r]
    let rs ← evaluateSome registry rest document place positive
    return r :: rs

/-- Evaluates a filter on an element. Without a filter every element passes. -/
def evaluateFilter (registry : Registry) : Option Policy → Value → Path → Outcome
  | none, _, _ => .ok .satisfied
  | some filter, element, place => evaluateAt registry filter element place true

end

/-- Evaluates a policy on a document. -/
def evaluate (registry : Registry) (p : Policy) (document : Value) : Outcome :=
  p.evaluateAt registry document .root true

end Policy

end ResidualPolicy
