import ResidualPolicy.Policy

/-!
# Negation of policies

The negation of a policy, pushed down to its leaves. Conjunction and disjunction change places, and so
do the quantifiers, whose filters keep selecting the same elements. A leaf takes the inverse operator
where there is one and is wrapped in a negation otherwise.
-/

namespace ResidualPolicy.Policy

mutual

/-- The negation of a policy. -/
def negate : Policy → Policy
  | .leaf c =>
    match c.inverse? with
    | some d => .leaf d
    | none => .negation (.leaf c)
  | .connected connective parts => .connected connective.dual (negateParts parts)
  | .negation p => p
  | .quantified quantifier binding filter body =>
    .quantified quantifier.dual binding filter (negate body)
  | .counted binding filter comparator operand =>
    match inverseComparator? comparator with
    | some inverse => .counted binding filter inverse operand
    | none => .negation (.counted binding filter comparator operand)

/-- The negations of several policies. -/
def negateParts : List Policy → List Policy
  | [] => []
  | p :: rest => negate p :: negateParts rest

end

/-- The policy itself, or its negation. -/
def withPolarity (p : Policy) (positive : Bool) : Policy :=
  if positive then p else p.negate

theorem negateParts_eq_map (parts : List Policy) : negateParts parts = parts.map negate := by
  induction parts with
  | nil => rfl
  | cons p rest ih => simp [negateParts, ih]

end ResidualPolicy.Policy
