import ResidualPolicy.Policy.Negation
import ResidualPolicy.Residual

/-!
# Constraint sets

A list of policies in normal form: the constraints that all must hold, filed under their paths, and
the parts that are no constraints, in the order in which they were found. Conjunctions are spliced,
negations pushed to the leaves, and connectives with a single part dropped, so that what remains in
`complex` are disjunctions, quantifiers and counts.
-/

namespace ResidualPolicy

/-- Policies in normal form. All constraints and all complex parts must hold. -/
structure ConstraintSet where
  constraints : Filed Constraint
  complex : List Policy
  deriving Repr, Inhabited

namespace ConstraintSet

/-- The set that asks for nothing. -/
def empty : ConstraintSet :=
  ⟨[], []⟩

/-- Adds a constraint, unless it is there. -/
def addConstraint (set : ConstraintSet) (c : Constraint) : ConstraintSet :=
  { set with constraints := Filed.file c.path [c] set.constraints }

/-- Adds a part that is no constraint, unless it is there. -/
def addComplex (set : ConstraintSet) (p : Policy) : ConstraintSet :=
  { set with complex := Filed.appendNew set.complex [p] }

mutual

/-- Adds a policy, or its negation. -/
def addUnder (positive : Bool) : Policy → ConstraintSet → ConstraintSet
  | .leaf c, set => set.addConstraint (c.withPolarity positive)
  | .connected _ [p], set => addUnder positive p set
  | .connected connective parts, set =>
    match connective.withPolarity positive with
    | .conjunction => addAllUnder positive parts set
    | .disjunction => set.addComplex ((Policy.connected connective parts).withPolarity positive)
  | .negation p, set => addUnder (!positive) p set
  | p, set => set.addComplex (p.withPolarity positive)

/-- Adds several policies, or their negations, in order. -/
def addAllUnder (positive : Bool) : List Policy → ConstraintSet → ConstraintSet
  | [], set => set
  | p :: rest, set => addAllUnder positive rest (addUnder positive p set)

end

/-- Adds a policy. -/
def add (set : ConstraintSet) (p : Policy) : ConstraintSet :=
  addUnder true p set

/-- The normal form of several policies. -/
def ofPolicies (policies : List Policy) : ConstraintSet :=
  policies.foldl add empty

/-- The number of constraints. -/
def size (set : ConstraintSet) : Nat :=
  set.constraints.count

/-- Whether the set asks for nothing. -/
def isEmpty (set : ConstraintSet) : Bool :=
  set.constraints.isEmpty && set.complex.isEmpty

/-- Whether there are parts that are no constraints. -/
def hasComplex (set : ConstraintSet) : Bool :=
  !set.complex.isEmpty

/-- The constraints in the order of their paths. -/
def constraintList (set : ConstraintSet) : List Constraint :=
  set.constraints.toList.map Prod.snd

/-- The set as one policy: the constraints in the order of their paths, then the other parts. -/
def toPolicy (set : ConstraintSet) : Policy :=
  .connected .conjunction (set.constraintList.map Policy.leaf ++ set.complex)

/-- Sets are the same when they hold the same parts in the same order. -/
def same (a b : ConstraintSet) : Bool :=
  a.constraints.same b.constraints && a.complex == b.complex

instance : BEq ConstraintSet := ⟨same⟩

/-! ## Operators -/

/-- All operators that are used, in ascending order. -/
def operators (set : ConstraintSet) : List String :=
  Ascending.ofMembers
    (set.constraintList.map Constraint.operator ++ set.complex.flatMap Policy.operatorList)

/-- The built-in operators that are used. -/
def builtinOperators (set : ConstraintSet) : List String :=
  set.operators.filter isBuiltin

/-- The operators that are used and may be replaced. -/
def customOperators (set : ConstraintSet) : List String :=
  set.operators.filter fun id => !isBuiltin id

/-- Whether only built-in operators are used. -/
def isBuiltinOnly (set : ConstraintSet) : Bool :=
  set.customOperators.isEmpty

end ConstraintSet

end ResidualPolicy
