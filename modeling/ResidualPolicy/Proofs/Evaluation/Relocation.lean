import ResidualPolicy.Pattern.Reader
import ResidualPolicy.Proofs.Evaluation.Congruence
import ResidualPolicy.Proofs.Evaluation.Decision
import ResidualPolicy.Proofs.Residual.Relocation

/-!
# Evaluating at a place

An element of a collection is evaluated at its place in the whole document. It could as well be evaluated
as a document of its own, with the place put in front of all paths afterwards
(`Policy.evaluateAt_eq_under`). The place decides nothing: neither which conflict or which alternative is
reported, nor which constraints count as repeated.

The two evaluations are compared step by step. Elements of collections inside the document are at places
that begin alike, so the comparison is of an evaluation at an inner place with one at an outer place joined
to it.
-/

namespace ResidualPolicy

variable {registry : Registry} {outer inner : Path}

/-! ## Reports at a place -/

theorem Constraint.under_join (c : Constraint) (outer inner : Path) :
    c.under (outer.join inner) = (c.under inner).under outer :=
  (under_under c inner outer).symm

theorem Constraint.evaluate_relocates (c : Constraint) (document : Value) (positive : Bool) :
    Alike (Residual.Relocates outer) (c.evaluate registry document inner positive)
      (c.evaluate registry document (outer.join inner) positive) := by
  have reported : (c.under (outer.join inner)).withPolarity positive =
      ((c.under inner).withPolarity positive).under outer := by
    rw [under_join, withPolarity_under _ outer]
  unfold evaluate
  rw [reported]
  cases c.path.find? document with
  | none => exact .ok (Residual.relocates_iff.mpr (Residual.waitFor_under _ _))
  | some found =>
    refine (registry.lookup_alike c.operator).bind ?_
    rintro op _ ⟨rfl, -⟩
    apply Alike.ite
    · exact .ok .satisfied
    · exact .ok (Residual.relocates_iff.mpr (Residual.violated_under _ _ _))

theorem Policy.countConstraint_under (binding : Path) (comparator : String) (operand : Value)
    (positive : Bool) (place : Path) :
    countConstraint (place.join binding) comparator operand positive =
      (countConstraint binding comparator operand positive).under place := by
  unfold countConstraint
  cases positive with
  | true => rfl
  | false => cases inverseComparator? comparator <;> rfl

/-! ## Collections -/

/-- The same element, at a place inside another one. -/
def MovedTo (outer : Path) (element moved : Path × Value) : Prop :=
  moved = (outer.join element.1, element.2)

theorem placedElements_moved (outer binding : Path) (elements : List (Value × Value)) :
    List.Forall₂ (MovedTo outer) (placedElements binding elements)
      (placedElements (outer.join binding) elements) := by
  unfold placedElements
  rw [List.forall₂_map_left_iff, List.forall₂_map_right_iff]
  refine List.forall₂_same.mpr fun keyed _ => ?_
  rw [MovedTo, Path.join_child]

/-! ## The walk -/

namespace Policy

/-- An evaluation at a place inside another one reports what one at the inner place reports, relocated. -/
theorem evaluateAt_relocates (p : Policy) (document : Value) (positive : Bool) :
    Alike (Residual.Relocates outer) (p.evaluateAt registry document inner positive)
      (p.evaluateAt registry document (outer.join inner) positive) := by
  have filtering {filter : Option Policy}
      (ih : ∀ f ∈ filter, ∀ {inner : Path} (v : Value) (positive : Bool),
        Alike (Residual.Relocates outer) (f.evaluateAt registry v inner positive)
          (f.evaluateAt registry v (outer.join inner) positive)) :
      AtPlace.Relates (MovedTo outer) (Residual.Relocates outer) (evaluateFilter registry filter)
        (evaluateFilter registry filter) := by
    rintro element _ rfl
    cases filter with
    | none =>
      rw [evaluateFilter, evaluateFilter]
      exact .ok .satisfied
    | some f =>
      rw [evaluateFilter, evaluateFilter]
      exact ih f rfl element.2 true
  have congruence := Filed.congruence_relocate outer
  induction p generalizing inner document positive with
  | leaf c =>
    rw [evaluateAt, evaluateAt]
    exact c.evaluate_relocates document positive
  | connected connective parts ih =>
    have each : List.Forall₂ (fun p q => Alike (Residual.Relocates outer)
        (p.evaluateAt registry document inner positive)
        (q.evaluateAt registry document (outer.join inner) positive)) parts parts :=
      List.forall₂_same.mpr fun p member => ih p member document positive
    rw [evaluateAt, evaluateAt]
    cases connective.withPolarity positive with
    | conjunction => exact (evaluateAll_related each).map fun _ _ => congruence.conjoin
    | disjunction =>
      exact (evaluateSome_related (fun _ _ => Residual.Related.isSatisfied) each).map
        fun _ _ => congruence.disjoin
  | negation p ih =>
    rw [evaluateAt, evaluateAt]
    exact ih document !positive
  | quantified quantifier path filter body ihFilter ihBody =>
    rw [evaluateAt, evaluateAt, Path.join_assoc]
    cases path.find? document with
    | none => exact .ok (Residual.relocates_iff.mpr rfl)
    | some collection =>
      dsimp only
      cases collection.elements? with
      | none => exact .ok (Residual.relocates_iff.mpr rfl)
      | some elements =>
        refine Quantifier.survey_related _ congruence (filtering ihFilter) ?_
          (Residual.relocates_iff.mpr rfl) (placedElements_moved outer _ elements) rfl rfl
        rintro element _ rfl
        exact ihBody element.2 positive
  | counted path filter comparator operand ih =>
    rw [evaluateAt, evaluateAt, Path.join_assoc, countConstraint_under (inner.join path) _ _ _ outer]
    cases path.find? document with
    | none => exact .ok (Residual.relocates_iff.mpr rfl)
    | some collection =>
      dsimp only
      cases collection.elements? with
      | none => exact .ok (Residual.relocates_iff.mpr rfl)
      | some elements =>
        refine (countPassing_related (fun _ _ => Residual.Related.isSatisfied) (filtering ih)
          (placedElements_moved outer _ elements)).bind ?_
        rintro count _ rfl
        refine (registry.lookup_alike comparator).bind ?_
        rintro op _ ⟨rfl, -⟩
        apply Alike.ite
        · exact .ok .satisfied
        · exact .ok (Residual.relocates_iff.mpr rfl)

/-- Evaluating at a place is evaluating at the root and relocating what is reported. -/
theorem evaluateAt_eq_map (registry : Registry) (p : Policy) (document : Value) (place : Path)
    (positive : Bool) :
    p.evaluateAt registry document place positive =
      (p.evaluateAt registry document .root positive).map (Residual.under place) := by
  have moved : Alike (Residual.Relocates place) (p.evaluateAt registry document .root positive)
      (p.evaluateAt registry document (place.join .root) positive) :=
    evaluateAt_relocates p document positive
  rw [Path.join_root] at moved
  generalize p.evaluateAt registry document .root positive = x,
    p.evaluateAt registry document place positive = y at moved
  cases moved with
  | error e => rfl
  | ok relocates => exact congrArg Except.ok (Residual.relocates_iff.mp relocates)

theorem evaluateFilter_eq_map (registry : Registry) (filter : Option Policy) (element : Value)
    (place : Path) :
    evaluateFilter registry filter element place =
      (evaluateFilter registry filter element .root).map (Residual.under place) := by
  cases filter with
  | none =>
    rw [evaluateFilter, evaluateFilter]
    rfl
  | some f =>
    rw [evaluateFilter, evaluateFilter]
    exact evaluateAt_eq_map registry f element place true

/-! ## Elements as documents -/

/-- The filter selects an element as a document of its own, and the body is in conflict with it. -/
def IsOffending (registry : Registry) (filter : Option Policy) (body : Policy) (positive : Bool)
    (element : Value) : Prop :=
  evaluateFilter registry filter element .root = .ok .satisfied ∧
    ∃ violations, body.evaluateAt registry element .root positive = .ok (.conflict violations)

theorem map_under_eq_ok_satisfied {outcome : Outcome} {place : Path}
    (h : outcome.map (Residual.under place) = .ok .satisfied) : outcome = .ok .satisfied := by
  obtain ⟨r, rfl, moved⟩ := map_eq_ok h
  cases r with
  | satisfied => rfl
  | pending constraints => exact nomatch moved
  | conflict violations => exact nomatch moved

theorem map_under_eq_ok_conflict {outcome : Outcome} {place : Path} {violations : Filed Violation}
    (h : outcome.map (Residual.under place) = .ok (.conflict violations)) :
    ∃ reported, outcome = .ok (.conflict reported) ∧
      Residual.conflict violations = (Residual.conflict reported).under place := by
  obtain ⟨r, rfl, moved⟩ := map_eq_ok h
  cases r with
  | satisfied => exact nomatch moved
  | pending constraints => exact nomatch moved
  | conflict reported => exact ⟨reported, rfl, moved.symm⟩

/-- An offending element decides at its place. -/
theorem IsOffending.decides {filter : Option Policy} {body : Policy} {positive : Bool}
    {element : Value} (h : IsOffending registry filter body positive element) (place : Path) :
    Quantifier.universal.Decides (evaluateFilter registry filter)
      (fun v here => body.evaluateAt registry v here positive) (place, element) := by
  obtain ⟨selected, violations, violated⟩ := h
  constructor
  · rw [evaluateFilter_eq_map, selected]
    rfl
  · refine ⟨(Residual.conflict violations).under place, ?_, .universal _⟩
    dsimp only
    rw [evaluateAt_eq_map, violated]
    rfl

/-- A universal quantifier reports what the body reports on the first offending element. -/
theorem conflict_of_universal {quantifier : Quantifier} {path : Path} {filter : Option Policy}
    {body : Policy} {document collection : Value} {elements : List (Value × Value)} {place : Path}
    {positive : Bool} {violations : Filed Violation}
    (universal : quantifier.withPolarity positive = .universal)
    (there : path.find? document = some collection) (listed : collection.elements? = some elements)
    (evaluated : (quantified quantifier path filter body).evaluateAt registry document place positive =
      .ok (.conflict violations)) :
    ∃ before element after reported, elements = before ++ element :: after ∧
      evaluateFilter registry filter element.2 .root = .ok .satisfied ∧
      body.evaluateAt registry element.2 .root positive = .ok (.conflict reported) ∧
      Residual.conflict violations =
        (Residual.conflict reported).under ((place.join path).child element.1) ∧
      ∀ other ∈ before, ¬IsOffending registry filter body positive other.2 := by
  rw [evaluateAt_quantified there listed, universal] at evaluated
  have surveyed := Quantifier.surveyed_of_survey evaluated
  obtain ⟨before, element, after, split, judged, passed⟩ :=
    surveyed.exists_first_of_decision (.universal violations)
  obtain ⟨filtered, violated⟩ := judged.eq_of_decides
  -- The survey is of placed elements, so both lists are split at the same element.
  rw [placedElements, List.map_eq_append_iff] at split
  obtain ⟨before, others, rfl, rfl, split⟩ := split
  rw [List.map_eq_cons_iff] at split
  obtain ⟨element, after, rfl, rfl, rfl⟩ := split
  rw [evaluateFilter_eq_map] at filtered
  dsimp only at violated
  rw [evaluateAt_eq_map] at violated
  obtain ⟨reported, violated, moved⟩ := map_under_eq_ok_conflict violated
  refine ⟨before, element, after, reported, rfl, map_under_eq_ok_satisfied filtered, violated, moved, ?_⟩
  intro other member offending
  exact passed _ (List.mem_map_of_mem member) (offending.decides _)

/-- Evaluating a document that stands at a place is evaluating it for itself and putting the place in
front of every path that is reported. So a universal quantifier reports the relocated residual of its
body on the first offending element. -/
theorem evaluateAt_eq_under (registry : Registry) (p : Policy) (document : Value) (place : Path)
    (positive : Bool) :
    p.evaluateAt registry document place positive =
        (p.evaluateAt registry document .root positive).map (Residual.under place) ∧
      ∀ quantifier path filter body collection elements violations,
        p = .quantified quantifier path filter body →
        quantifier.withPolarity positive = .universal →
        path.find? document = some collection → collection.elements? = some elements →
        p.evaluateAt registry document place positive = .ok (.conflict violations) →
        ∃ before element after reported, elements = before ++ element :: after ∧
          evaluateFilter registry filter element.2 .root = .ok .satisfied ∧
          body.evaluateAt registry element.2 .root positive = .ok (.conflict reported) ∧
          Residual.conflict violations =
            (Residual.conflict reported).under ((place.join path).child element.1) ∧
          ∀ other ∈ before, ¬IsOffending registry filter body positive other.2 := by
  refine ⟨evaluateAt_eq_map registry p document place positive, ?_⟩
  rintro quantifier path filter body collection elements violations rfl universal there listed
    evaluated
  exact conflict_of_universal universal there listed evaluated

/-- Active members must have no role but one, and roles are members of a set. The first member is not
active, the second one has a role too many. -/
theorem evaluateAt_eq_under_of_roles :
    let members : Path := ⟨[.string "members"]⟩
    let roles : Path := ⟨[.string "roles"]⟩
    let active : Policy :=
      .leaf { path := ⟨[.string "active"]⟩, operator := "=", operand := .bool true }
    let reader : Policy := .leaf { path := .root, operator := "=", operand := .string "reader" }
    let body : Policy := .quantified .universal roles none reader
    let p : Policy := .quantified .universal members (some active) body
    let member (isActive : Bool) (names : List Value) : Value :=
      .object [(.string "active", .bool isActive), (.string "roles", .set names)]
    let first := member false [.string "owner"]
    let second := member true [.string "owner", .string "reader"]
    let elements : List (Value × Value) := [(.ofNat 0, first), (.ofNat 1, second)]
    let document : Value := .object [(.string "members", .array [first, second])]
    let place : Path := ⟨[.string "teams", .ofNat 7]⟩
    let owner : Path := ⟨[.string "teams", .ofNat 7, .string "members", .ofNat 1, .string "roles",
      .string "owner"]⟩
    let violations : Filed Violation :=
      [(owner, [⟨{ path := owner, operator := "=", operand := .string "reader" }, .string "owner"⟩])]
    p.evaluateAt .builtins document place true = .ok (.conflict violations) ∧
      p.evaluateAt .builtins document place true =
        (p.evaluateAt .builtins document .root true).map (Residual.under place) ∧
      ∃ before element after reported, elements = before ++ element :: after ∧
        evaluateFilter .builtins (some active) element.2 .root = .ok .satisfied ∧
        body.evaluateAt .builtins element.2 .root true = .ok (.conflict reported) ∧
        Residual.conflict violations =
          (Residual.conflict reported).under ((place.join members).child element.1) ∧
        ∀ other ∈ before, ¬IsOffending .builtins (some active) body true other.2 := by
  intro members roles active reader body p member first second elements document place owner violations
  have evaluated : p.evaluateAt .builtins document place true = .ok (.conflict violations) := rfl
  obtain ⟨moved, offending⟩ := evaluateAt_eq_under .builtins p document place true
  exact ⟨evaluated, moved,
    offending .universal members (some active) body _ elements violations rfl rfl rfl rfl evaluated⟩

end Policy

end ResidualPolicy
