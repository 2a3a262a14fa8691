import ResidualPolicy.ConstraintSet

/-!
# Constraint sets with a flag

Whether a set has complex parts decides what it is compiled to, so the answer is kept in a flag.
Adding a policy works through the policy first and sets the flag when all of it has been added.
-/

namespace ResidualPolicy

/-- A constraint set and the flag that is kept with it. -/
@[ext]
structure FlaggedSet extends ConstraintSet where
  /-- Whether there were complex parts when a policy was added last. -/
  flag : Bool
  deriving Repr, Inhabited

namespace FlaggedSet

/-- The set that asks for nothing. -/
def empty : FlaggedSet :=
  ⟨ConstraintSet.empty, false⟩

/-- Works a policy, or its negation, into the set. The flag stays as it is. -/
def flatten (positive : Bool) (p : Policy) (set : FlaggedSet) : FlaggedSet :=
  { set with toConstraintSet := ConstraintSet.addUnder positive p set.toConstraintSet }

/-- Adds a policy. -/
def add (set : FlaggedSet) (p : Policy) : FlaggedSet :=
  let flattened := set.flatten true p
  { flattened with flag := !flattened.complex.isEmpty }

/-- The normal form of several policies. -/
def ofPolicies (policies : List Policy) : FlaggedSet :=
  policies.foldl add empty

end FlaggedSet

end ResidualPolicy
