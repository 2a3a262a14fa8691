import ResidualPolicy.Operator.Builtin
import ResidualPolicy.Path

/-!
# Constraints

A constraint asks that an operator holds of the value at a path. It is the leaf of a policy and what
an evaluation reports: as still open, or as violated.

A negated constraint asks that its operator does not hold. Reading a policy never yields one. They
arise where a leaf stands under a negation and its operator has no exact inverse.
-/

namespace ResidualPolicy

/-- The value at a path must satisfy an operator, or must not if the constraint is negated. -/
structure Constraint where
  path : Path
  operator : String
  operand : Value
  negated : Bool := false
  deriving Repr, Inhabited

namespace Constraint

/-- Constraints are the same when their parts are; numbers may be held differently. -/
def same (c d : Constraint) : Bool :=
  c.path == d.path && c.operator == d.operator && c.operand == d.operand && c.negated == d.negated

instance : BEq Constraint := ⟨same⟩

/-- The same constraint on a document in which the present one is found at a place. -/
def under (c : Constraint) (place : Path) : Constraint :=
  { c with path := place.join c.path }

/-- The constraint that holds exactly where this one does not, if its operator allows to say so
without a negation. -/
def inverse? (c : Constraint) : Option Constraint :=
  if c.negated then some { c with negated := false }
  else (inverseOperator? c.operator).map fun id => { c with operator := id }

/-- The constraint that holds exactly where this one does not. -/
def inverse (c : Constraint) : Constraint :=
  c.inverse?.getD { c with negated := true }

/-- The constraint itself, or its inverse where it stands under a negation. -/
def withPolarity (c : Constraint) (positive : Bool) : Constraint :=
  if positive then c else c.inverse

@[simp]
theorem under_root (c : Constraint) : c.under .root = c := rfl

/-- Two relocations are one. -/
theorem under_under (c : Constraint) (inner outer : Path) :
    (c.under inner).under outer = c.under (outer.join inner) := by
  simp [under, Path.join_assoc]

/-- Inverting a constraint leaves its path alone. -/
theorem inverse_under (c : Constraint) (place : Path) :
    (c.under place).inverse = c.inverse.under place := by
  unfold inverse inverse? under
  by_cases negated : c.negated = true
  · simp [negated]
  · cases inverseOperator? c.operator <;> simp [negated]

theorem withPolarity_under (c : Constraint) (place : Path) (positive : Bool) :
    (c.under place).withPolarity positive = (c.withPolarity positive).under place := by
  cases positive
  · exact inverse_under c place
  · rfl

/-- Whether the value found at the path satisfies the constraint, by the predicate of its operator. -/
def admits (c : Constraint) (holds : Value → Value → Bool) (found : Value) : Bool :=
  holds found c.operand != c.negated

/-- A constraint as a tagged array. -/
def expr (c : Constraint) : Value :=
  let leaf := .array [.string c.operator, c.path.toValue, c.operand]
  if c.negated then .array [.string "not", leaf] else leaf

/-- Text of a constraint in policy notation. -/
def text (c : Constraint) : List Char :=
  let leaf :=
    Notation.bracketed [Notation.nameText c.operator, c.path.text, Notation.text c.operand]
  if c.negated then Notation.bracketed [":not".toList, leaf] else leaf

end Constraint

end ResidualPolicy
