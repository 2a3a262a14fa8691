import ResidualPolicy.ConstraintSet.Flagged
import ResidualPolicy.Proofs.Plan
import ResidualPolicy.Proofs.Policy.Containment
import ResidualPolicy.Proofs.Policy.Reading

/-!
# The shape of normal forms

Adding a policy adds constraints and complex parts, one after the other, each of which stands in the
policy and is added as it is or negated (`addUnder_induction`). So whatever single additions
preserve is true of every normal form: constraints are filed under their paths, and the complex
parts are disjunctions, quantifiers and counts, none of them twice (`IsNormal`). For policies that
have been read, a constraint is negated only where its operator has no inverse.

A normal form is written as one policy, and its own normal form is itself. The complex parts are
taken over as they are, the constraints come in the order of their paths, and so filing them anew
builds the same lists (`foldl_addConstraint_constraintList`).
-/

namespace ResidualPolicy

/-! ## Complex parts -/

/-- A policy that can not be taken apart. -/
inductive Policy.IsComplex : Policy → Prop where
  | disjunction {parts : List Policy} (several : parts.length ≠ 1) :
      IsComplex (.connected .disjunction parts)
  | quantified (quantifier : Quantifier) (path : Path) (filter : Option Policy) (body : Policy) :
      IsComplex (.quantified quantifier path filter body)
  | counted (path : Path) (filter : Option Policy) (comparator : String) (operand : Value) :
      IsComplex (.counted path filter comparator operand)
  | negatedCount {path : Path} {filter : Option Policy} {comparator : String} {operand : Value}
      (unpaired : inverseComparator? comparator = none) :
      IsComplex (.negation (.counted path filter comparator operand))

namespace Policy

theorem isComplex_quantified (quantifier : Quantifier) (path : Path) (filter : Option Policy)
    (body : Policy) (positive : Bool) :
    ((quantified quantifier path filter body).withPolarity positive).IsComplex := by
  cases positive <;> exact .quantified ..

theorem isComplex_counted (path : Path) (filter : Option Policy) (comparator : String)
    (operand : Value) (positive : Bool) :
    ((counted path filter comparator operand).withPolarity positive).IsComplex := by
  cases positive with
  | true => exact .counted ..
  | false =>
    show (negate _).IsComplex
    rw [negate]
    cases paired : inverseComparator? comparator with
    | none => exact .negatedCount paired
    | some inverse => exact .counted ..

theorem isComplex_connected {connective : Connective} {parts : List Policy} {positive : Bool}
    (several : ∀ p, parts ≠ [p]) (joined : connective.withPolarity positive = .disjunction) :
    ((connected connective parts).withPolarity positive).IsComplex := by
  have long : parts.length ≠ 1 := fun one =>
    (List.length_eq_one_iff.mp one).elim several
  cases positive with
  | true =>
    change connective = .disjunction at joined
    subst joined
    exact .disjunction long
  | false =>
    show (negate _).IsComplex
    change connective.dual = .disjunction at joined
    rw [negate, joined, negateParts_eq_map]
    refine .disjunction ?_
    rw [List.length_map]
    exact long

end Policy

namespace Filed

theorem head?_appendNew {α : Type} [BEq α] {entries : List α} (more : List α)
    (occupied : entries ≠ []) : (appendNew entries more).head? = entries.head? := by
  induction more generalizing entries with
  | nil => rfl
  | cons entry more ih =>
    rw [appendNew_cons]
    split
    · exact ih occupied
    · rw [ih (List.append_ne_nil_of_left_ne_nil occupied _), List.head?_append_of_ne_nil _ occupied]

end Filed

namespace ConstraintSet

variable {set : ConstraintSet}

/-! ## What adding preserves -/

theorem addAllUnder_induction {motive : ConstraintSet → Prop} {positive : Bool}
    {parts : List Policy} (start : motive set)
    (each : ∀ p ∈ parts, ∀ set, motive set → motive (addUnder positive p set)) :
    motive (addAllUnder positive parts set) := by
  induction parts generalizing set with
  | nil => exact start
  | cons p rest ih =>
    obtain ⟨first, others⟩ := List.forall_mem_cons.mp each
    rw [addAllUnder]
    exact ih (first set start) others

/-- What is preserved when a constraint or a complex part of a policy is added, as it is or negated,
is preserved when the policy is added. -/
theorem addUnder_induction {motive : ConstraintSet → Prop} {p : Policy} {positive : Bool}
    (start : motive set)
    (constraint : ∀ set c positive, p.Contains (.leaf c) → motive set →
      motive (set.addConstraint (c.withPolarity positive)))
    (complex : ∀ set q positive, p.Contains q → (q.withPolarity positive).IsComplex → motive set →
      motive (set.addComplex (q.withPolarity positive))) :
    motive (addUnder positive p set) := by
  induction p generalizing positive set with
  | leaf c =>
    rw [addUnder]
    exact constraint set c positive (.self _) start
  | connected connective parts ih =>
    have part (p : Policy) (member : p ∈ parts) {positive : Bool} (set : ConstraintSet)
        (before : motive set) : motive (addUnder positive p set) :=
      ih p member before
        (fun set c positive inner => constraint set c positive (.part member inner))
        fun set q positive inner => complex set q positive (.part member inner)
    by_cases single : ∃ p, parts = [p]
    · obtain ⟨p, rfl⟩ := single
      rw [addUnder_single]
      exact part p (List.mem_singleton_self p) set start
    · have several := not_exists.mp single
      rw [addUnder_connected several]
      cases joined : connective.withPolarity positive with
      | conjunction => exact addAllUnder_induction start fun p member => part p member
      | disjunction =>
        exact complex set _ positive (.self _) (Policy.isComplex_connected several joined) start
  | negation p ih =>
    rw [addUnder]
    exact ih start (fun set c positive inner => constraint set c positive (.negation inner))
      fun set q positive inner => complex set q positive (.negation inner)
  | quantified quantifier path filter body =>
    rw [addUnder_quantified]
    exact complex set _ positive (.self _) (Policy.isComplex_quantified ..) start
  | counted path filter comparator operand =>
    rw [addUnder_counted]
    exact complex set _ positive (.self _) (Policy.isComplex_counted ..) start

/-- The same for several policies. -/
theorem foldl_add_induction {motive : ConstraintSet → Prop} {policies : List Policy}
    (start : motive set)
    (constraint : ∀ set, ∀ p ∈ policies, ∀ c positive, p.Contains (.leaf c) → motive set →
      motive (set.addConstraint (c.withPolarity positive)))
    (complex : ∀ set, ∀ p ∈ policies, ∀ q positive, p.Contains q →
      (q.withPolarity positive).IsComplex → motive set →
      motive (set.addComplex (q.withPolarity positive))) :
    motive (policies.foldl add set) := by
  rw [foldl_add]
  refine addAllUnder_induction start fun p member set before => ?_
  exact addUnder_induction before (fun set c positive => constraint set p member c positive)
    fun set q positive => complex set p member q positive

/-! ## The shape -/

/-- The shape of a normal form. -/
structure IsNormal (set : ConstraintSet) : Prop where
  /-- Constraints are filed under their paths; under each there is one, and none twice. -/
  filed : set.constraints.WellFormed Constraint.path
  /-- A path is written as in the first constraint under it. -/
  headed : ∀ under ∈ set.constraints, under.2.head?.map Constraint.path = some under.1
  complex : ∀ p ∈ set.complex, p.IsComplex
  distinct : set.complex.Pairwise fun a b => (b == a) = false

theorem isNormal_empty : empty.IsNormal where
  filed := Filed.wellFormed_nil
  headed _ := nofun
  complex _ := nofun
  distinct := .nil

theorem IsNormal.addConstraint (normal : set.IsNormal) (c : Constraint) :
    (set.addConstraint c).IsNormal where
  filed := normal.filed.merge (Filed.wellFormed_singleton (Filed.kept_single c))
  headed := by
    have both : ∀ under ∈ set.constraints,
        under.2 ≠ [] ∧ under.2.head?.map Constraint.path = some under.1 := fun under member =>
      ⟨(normal.filed.kept under member).occupied, normal.headed under member⟩
    have kept : ∀ under ∈ Filed.file c.path [c] set.constraints,
        under.2 ≠ [] ∧ under.2.head?.map Constraint.path = some under.1 := by
      refine Filed.forall_mem_file both ⟨List.cons_ne_nil _ _, rfl⟩ fun under _ => ?_
      rintro ⟨occupied, headed⟩
      refine ⟨Filed.appendNew_ne_nil (.inl occupied), ?_⟩
      rw [Filed.head?_appendNew _ occupied, headed]
    exact fun under member => (kept under member).2
  complex := normal.complex
  distinct := normal.distinct

theorem IsNormal.addComplex (normal : set.IsNormal) {p : Policy} (complex : p.IsComplex) :
    (set.addComplex p).IsNormal where
  filed := normal.filed
  headed := normal.headed
  complex q member := by
    rcases mem_addComplex member with before | rfl
    · exact normal.complex q before
    · exact complex
  distinct := Filed.distinct_appendNew _ normal.distinct

/-- Adding policies keeps the shape. -/
theorem IsNormal.foldl_add (normal : set.IsNormal) (policies : List Policy) :
    (policies.foldl add set).IsNormal :=
  foldl_add_induction normal (fun _ _ _ _ _ _ before => before.addConstraint _)
    fun _ _ _ _ _ _ complex before => before.addComplex complex

theorem isNormal_ofPolicies (policies : List Policy) : (ofPolicies policies).IsNormal :=
  isNormal_empty.foldl_add policies

/-! ## Normal forms of normal forms -/

/-- Adding a conjunction adds its parts. -/
theorem add_conjunction (set : ConstraintSet) (parts : List Policy) :
    set.add (.connected .conjunction parts) = parts.foldl add set := by
  by_cases single : ∃ p, parts = [p]
  · obtain ⟨p, rfl⟩ := single
    rw [add, addUnder_single]
    rfl
  · rw [add, addUnder_connected (not_exists.mp single), foldl_add]
    rfl

/-- A complex part is taken over as it is. -/
theorem add_of_isComplex (set : ConstraintSet) {p : Policy} (complex : p.IsComplex) :
    set.add p = set.addComplex p := by
  cases complex with
  | disjunction several =>
    rw [add, addUnder_connected fun p single =>
      several (List.length_eq_one_iff.mpr ⟨p, single⟩)]
    rfl
  | quantified quantifier path filter body => rw [add, addUnder_quantified]; rfl
  | counted path filter comparator operand => rw [add, addUnder_counted]; rfl
  | @negatedCount path filter comparator operand unpaired =>
    have kept : (Policy.counted path filter comparator operand).withPolarity false =
        .negation (.counted path filter comparator operand) := by
      show Policy.negate _ = _
      rw [Policy.negate, unpaired]
    rw [add, addUnder, Bool.not_true, addUnder_counted, kept]

theorem foldl_add_of_isComplex {parts : List Policy} (complex : ∀ p ∈ parts, p.IsComplex)
    (set : ConstraintSet) :
    parts.foldl add set = { set with complex := Filed.appendNew set.complex parts } := by
  induction parts generalizing set with
  | nil => rfl
  | cons p rest ih =>
    obtain ⟨first, others⟩ := List.forall_mem_cons.mp complex
    rw [List.foldl_cons, add_of_isComplex set first, ih others]
    rfl

theorem foldl_addConstraint_eq (cs : List Constraint) (set : ConstraintSet) :
    cs.foldl addConstraint set =
      { set with
        constraints := cs.foldl (fun filed c => .file c.path [c] filed) set.constraints } := by
  induction cs generalizing set with
  | nil => rfl
  | cons c cs ih =>
    rw [List.foldl_cons, ih]
    rfl

theorem constraintList_eq_flatMap (set : ConstraintSet) :
    set.constraintList = set.constraints.flatMap Prod.snd := by
  rw [constraintList, Filed.toList, List.map_flatMap]
  simp [Function.comp_def]

/-- The constraints of a normal form, added in the order of their paths, are filed as they were. -/
theorem foldl_addConstraint_constraintList (normal : set.IsNormal) :
    set.constraintList.foldl addConstraint empty = ⟨set.constraints, []⟩ := by
  have whole : Filed.WellFormed Constraint.path ([] ++ set.constraints) := normal.filed
  rw [foldl_addConstraint_eq, constraintList_eq_flatMap]
  exact congrArg (ConstraintSet.mk · []) (Filed.foldl_file_of_headed whole normal.headed)

/-- A normal form is its own normal form. -/
theorem ofPolicies_toPolicy (normal : set.IsNormal) : ofPolicies [set.toPolicy] = set := by
  have leaves : (set.constraintList.map Policy.leaf).foldl add empty =
      set.constraintList.foldl addConstraint empty := by
    rw [List.foldl_map]
    rfl
  calc ofPolicies [set.toPolicy]
      = (set.constraintList.map Policy.leaf ++ set.complex).foldl add empty :=
        add_conjunction empty _
    _ = set.complex.foldl add ⟨set.constraints, []⟩ := by
        rw [List.foldl_append, leaves, foldl_addConstraint_constraintList normal]
    _ = ⟨set.constraints, Filed.appendNew [] set.complex⟩ := foldl_add_of_isComplex normal.complex _
    _ = set := by
        rw [Filed.appendNew_of_distinct normal.distinct]
        rfl

end ConstraintSet

/-! ## The flag -/

namespace FlaggedSet

theorem toConstraintSet_foldl_add (policies : List Policy) (set : FlaggedSet) :
    (policies.foldl add set).toConstraintSet =
      policies.foldl ConstraintSet.add set.toConstraintSet := by
  induction policies generalizing set with
  | nil => rfl
  | cons p rest ih => exact ih (set.add p)

/-- The flag tells whether there are complex parts. -/
theorem flag_foldl_add (policies : List Policy) {set : FlaggedSet}
    (kept : set.flag = set.hasComplex) :
    (policies.foldl add set).flag = (policies.foldl add set).hasComplex := by
  induction policies generalizing set with
  | nil => exact kept
  | cons p rest ih => exact ih rfl

theorem toConstraintSet_ofPolicies (policies : List Policy) :
    (ofPolicies policies).toConstraintSet = ConstraintSet.ofPolicies policies :=
  toConstraintSet_foldl_add policies empty

theorem flag_ofPolicies (policies : List Policy) :
    (ofPolicies policies).flag = (ofPolicies policies).hasComplex :=
  flag_foldl_add policies rfl

/-- Bringing policies into normal form is idempotent: the normal form, written as one policy, has
itself as its normal form, with the same lists in the same order and the same flag. -/
theorem ofPolicies_idempotent (policies : List Policy) :
    ofPolicies [(ofPolicies policies).toPolicy] = ofPolicies policies := by
  have parts : (ofPolicies [(ofPolicies policies).toPolicy]).toConstraintSet =
      (ofPolicies policies).toConstraintSet := by
    rw [toConstraintSet_ofPolicies, toConstraintSet_ofPolicies]
    exact ConstraintSet.ofPolicies_toPolicy (ConstraintSet.isNormal_ofPolicies policies)
  have flags : (ofPolicies [(ofPolicies policies).toPolicy]).flag = (ofPolicies policies).flag := by
    rw [flag_ofPolicies, flag_ofPolicies, parts]
  exact FlaggedSet.ext (congrArg _ parts) (congrArg _ parts) flags

end FlaggedSet

/-! ## Policies that have been read -/

namespace Policy

variable [PatternEngine]

/-- A policy that has been read, from a value or from a text. -/
def IsParsed (p : Policy) : Prop :=
  (∃ e, ofExpr e = .ok p) ∨ ∃ text, read text = .ok p

theorem IsParsed.isRead {p : Policy} (parsed : p.IsParsed) : p.IsRead := by
  rcases parsed with ⟨e, parsed⟩ | ⟨text, parsed⟩
  · exact isRead_of_ofExpr parsed
  · unfold read at parsed
    split at parsed
    · exact isRead_of_ofExpr parsed
    · exact nomatch parsed

/-- Reading yields no negated constraint, at any depth. -/
theorem IsRead.negated_eq_false {p : Policy} (isRead : p.IsRead) {c : Constraint}
    (inner : p.Contains (.leaf c)) : c.negated = false := by
  induction isRead with
  | leaf => cases inner; rfl
  | connected connective _ ih =>
    cases inner with
    | part member inner => exact ih _ member inner
  | negation _ ih =>
    cases inner with
    | negation inner => exact ih inner
  | quantified quantifier _ _ _ ihFilters ihBody =>
    cases inner with
    | filter member inner => exact ihFilters _ member inner
    | body inner => exact ihBody inner
  | counted _ _ _ _ ihFilters =>
    cases inner with
    | selection member inner => exact ihFilters _ member inner

end Policy

namespace Constraint

theorem negated_of_inverse? {c d : Constraint} (exact : c.inverse? = some d) :
    d.negated = false := by
  unfold inverse? at exact
  split at exact
  · rw [← Option.some.inj exact]
  · next plain =>
    obtain ⟨id, -, rfl⟩ := Option.map_eq_some_iff.mp exact
    exact Bool.not_eq_true _ ▸ plain

/-- A constraint is negated only where its operator has no inverse. -/
theorem unpaired_of_negated {c : Constraint} (plain : c.negated = false) {positive : Bool}
    (negated : (c.withPolarity positive).negated = true) :
    inverseOperator? (c.withPolarity positive).operator = none := by
  cases positive with
  | true => exact absurd negated (by simp [withPolarity, plain])
  | false =>
    change c.inverse.negated = true at negated
    show inverseOperator? c.inverse.operator = none
    cases exact : c.inverse? with
    | some d =>
      rw [inverse_of_inverse? exact, negated_of_inverse? exact] at negated
      exact absurd negated Bool.false_ne_true
    | none =>
      have kept : c.inverse = { c with negated := true } := by rw [inverse, exact]; rfl
      rw [inverse?, plain, if_neg Bool.false_ne_true, Option.map_eq_none_iff] at exact
      rw [kept]
      exact exact

end Constraint

namespace ConstraintSet

/-- Negations that are necessary: a constraint is negated only where its operator has no inverse,
and in complex parts none is, at any depth. -/
structure NegatesLast (set : ConstraintSet) : Prop where
  constraints : set.constraints.All fun c => c.negated = true → inverseOperator? c.operator = none
  complex : ∀ p ∈ set.complex, ∀ c, p.Contains (.leaf c) → c.negated = false

theorem negatesLast_empty : empty.NegatesLast where
  constraints := Filed.all_nil
  complex _ := nofun

/-- Adding policies that have been read adds no other negations. -/
theorem NegatesLast.foldl_add [PatternEngine] {set : ConstraintSet} (before : set.NegatesLast)
    {policies : List Policy} (isRead : ∀ p ∈ policies, p.IsRead) :
    (policies.foldl add set).NegatesLast := by
  refine foldl_add_induction before (fun set p member c positive inner before => ?_)
    fun set p member q positive inner _ before => ?_
  · have plain := (isRead p member).negated_eq_false inner
    have turned : (c.withPolarity positive).negated = true →
        inverseOperator? (c.withPolarity positive).operator = none :=
      Constraint.unpaired_of_negated plain
    exact ⟨before.constraints.file _ (List.forall_mem_singleton.mpr turned), before.complex⟩
  · have plain (c : Constraint) (there : q.Contains (.leaf c)) : c.negated = false :=
      (isRead p member).negated_eq_false (inner.trans there)
    refine ⟨before.constraints, fun r among c there => ?_⟩
    rcases mem_addComplex among with old | rfl
    · exact before.complex r old c there
    · cases positive with
      | true => exact plain c there
      | false =>
        obtain ⟨d, within, same | exact⟩ := there.leaf_of_negate
        · exact same ▸ plain d within
        · exact Constraint.negated_of_inverse? exact

end ConstraintSet

namespace FlaggedSet

/-- What is true of every set that policies which have been read were added to, one after the other:
it has the shape of a normal form, negates only where there is no other way, and the flag tells
whether there are complex parts. -/
theorem isNormal_of_parsed [PatternEngine] {policies : List Policy}
    (parsed : ∀ p ∈ policies, p.IsParsed) :
    let set := policies.foldl add empty
    set.IsNormal ∧ set.NegatesLast ∧ (set.flag = true ↔ set.complex ≠ []) := by
  intro set
  have parts : set.toConstraintSet = policies.foldl ConstraintSet.add ConstraintSet.empty :=
    toConstraintSet_foldl_add policies empty
  have flag : set.flag = set.hasComplex := flag_foldl_add policies rfl
  refine ⟨?_, ?_, ?_⟩
  · rw [parts]
    exact ConstraintSet.isNormal_empty.foldl_add policies
  · rw [parts]
    exact ConstraintSet.negatesLast_empty.foldl_add fun p member => (parsed p member).isRead
  · rw [flag, ConstraintSet.hasComplex]
    simp

/-- Negations of a constraint on a custom operator and of a disjunction of a constraint with a count
whose comparator has no inverse. -/
theorem isNormal_of_parsed_negations :
    let path (name : String) : Value := .array [.string name]
    let like : Value := .array [.string "like", path "role", .string "admin"]
    let minor : Value := .array [.string "=", path "minor", .bool true]
    let few : Value := .array [.string "count", path "tags", .string "like", .ofNat 0]
    let role : Constraint :=
      { path := ⟨[.string "role"]⟩, operator := "like", operand := .string "admin" }
    let young : Constraint :=
      { path := ⟨[.string "minor"]⟩, operator := "=", operand := .bool true }
    let tags : Policy := .counted ⟨[.string "tags"]⟩ none "like" (.ofNat 0)
    let policies : List Policy :=
      [.negation (.leaf role), .negation (.connected .disjunction [.leaf young, tags])]
    let set := policies.foldl add empty
    List.Forall₂ (fun e p => Policy.ofExpr e = .ok p)
        [.array [.string "not", like], .array [.string "not", .array [.string "or", minor, few]]]
        policies ∧
      set = ⟨⟨[(young.path, [{ young with operator := "!=" }]),
        (role.path, [{ role with negated := true }])], [.negation tags]⟩, true⟩ ∧
      set.IsNormal ∧ set.NegatesLast ∧ (set.flag = true ↔ set.complex ≠ []) := by
  intro path like minor few role young tags policies set
  have parsed : List.Forall₂ (fun e p => Policy.ofExpr e = .ok p)
      [.array [.string "not", like], .array [.string "not", .array [.string "or", minor, few]]]
      policies := .cons rfl (.cons rfl .nil)
  refine ⟨parsed, rfl, isNormal_of_parsed fun p member => ?_⟩
  obtain ⟨e, -, found⟩ := exists_mem_of_forall₂ parsed p member
  exact .inl ⟨e, found⟩

end FlaggedSet

end ResidualPolicy
