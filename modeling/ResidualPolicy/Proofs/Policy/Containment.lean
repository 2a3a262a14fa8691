import ResidualPolicy.Proofs.Policy.Induction

/-!
# What stands in a policy

A policy contains itself, its parts, the filters and bodies of its quantifiers and the filters of
its counts, and all that these contain. A negation contains what the policy contains, up to the
inverses of its constraints (`Contains.leaf_of_negate`).
-/

namespace ResidualPolicy.Policy

/-- The policy contains another one, at any depth. -/
inductive Contains : Policy → Policy → Prop where
  | self (p : Policy) : Contains p p
  | part {connective : Connective} {parts : List Policy} {p q : Policy} (member : p ∈ parts)
      (inner : Contains p q) : Contains (.connected connective parts) q
  | negation {p q : Policy} (inner : Contains p q) : Contains (.negation p) q
  | filter {quantifier : Quantifier} {path : Path} {filter : Option Policy} {body f q : Policy}
      (member : f ∈ filter) (inner : Contains f q) :
      Contains (.quantified quantifier path filter body) q
  | body {quantifier : Quantifier} {path : Path} {filter : Option Policy} {body q : Policy}
      (inner : Contains body q) : Contains (.quantified quantifier path filter body) q
  | selection {path : Path} {filter : Option Policy} {comparator : String} {operand : Value}
      {f q : Policy} (member : f ∈ filter) (inner : Contains f q) :
      Contains (.counted path filter comparator operand) q

/-- What is contained in a policy contains no more than the policy. -/
theorem Contains.trans {p q r : Policy} (outer : p.Contains q) (inner : q.Contains r) :
    p.Contains r := by
  induction outer with
  | self p => exact inner
  | part member _ ih => exact .part member (ih inner)
  | negation _ ih => exact .negation (ih inner)
  | filter member _ ih => exact .filter member (ih inner)
  | body _ ih => exact .body (ih inner)
  | selection member _ ih => exact .selection member (ih inner)

/-- The constraints of a negation are those of the policy, or inverse to them. -/
theorem Contains.leaf_of_negate {p : Policy} {d : Constraint} (h : p.negate.Contains (.leaf d)) :
    ∃ c, p.Contains (.leaf c) ∧ (d = c ∨ c.inverse? = some d) := by
  induction p with
  | leaf c =>
    refine ⟨c, .self _, ?_⟩
    rw [negate] at h
    cases exact : c.inverse? with
    | none =>
      rw [exact] at h
      cases h with
      | negation inner =>
        cases inner
        exact .inl rfl
    | some d' =>
      rw [exact] at h
      cases h
      exact .inr rfl
  | connected connective parts ih =>
    rw [negate, negateParts_eq_map] at h
    cases h with
    | part member inner =>
      obtain ⟨p, among, rfl⟩ := List.mem_map.mp member
      obtain ⟨c, there, form⟩ := ih p among inner
      exact ⟨c, .part among there, form⟩
  | negation p ih => exact ⟨d, .negation h, .inl rfl⟩
  | quantified quantifier path filter body ihFilter ihBody =>
    rw [negate] at h
    cases h with
    | filter member inner => exact ⟨d, .filter member inner, .inl rfl⟩
    | body inner =>
      obtain ⟨c, there, form⟩ := ihBody inner
      exact ⟨c, .body there, form⟩
  | counted path filter comparator operand ih =>
    refine ⟨d, ?_, .inl rfl⟩
    rw [negate] at h
    cases paired : inverseComparator? comparator with
    | none =>
      rw [paired] at h
      cases h with
      | negation inner => exact inner
    | some inverse =>
      rw [paired] at h
      cases h with
      | selection member inner => exact .selection member inner

end ResidualPolicy.Policy
