import ResidualPolicy.Proofs.Evaluation.Congruence
import ResidualPolicy.Proofs.Policy.Negation

/-!
# Negating a policy twice

A policy that is negated twice need not be the policy again. Where the first negation meets a negation
it drops it, and the second one is pushed down to the leaves instead. So other constraints may be
reported, but it is values at the same paths that violate them, and the residuals are of one kind
(`Residual.SameWitnesses`).

Negating a second time and evaluating the negation under the other polarity come to the same
(`Policy.evaluateAt_negate`), so it remains to compare that evaluation with the one of the policy. Of
open residuals it is enough to know that something waits: which alternative of a disjunction is
reported depends on how many constraints wait, the kind of the residual does not.
-/

namespace ResidualPolicy

/-! ## The same witnesses -/

/-- Violations by the same values, whatever the constraints are. -/
def Violation.SameWitnesses (xs ys : List Violation) : Prop :=
  ∀ value, (xs.map witness).contains value = (ys.map witness).contains value

namespace Filed

/-- Filings are the same, or something waits in both. -/
def WaitTogether (a b : Filed Constraint) : Prop :=
  a = b ∨ 0 < a.count ∧ 0 < b.count

theorem appends_sameWitnesses : Appends Violation.SameWitnesses where
  nil _ := rfl
  append {xs ys more others} h added value := by
    have respects (x y : Violation) (same : (x == y) = true) : (x.witness == y.witness) = true :=
      (Bool.and_eq_true_iff.mp same).2
    rw [contains_map_appendNew respects, contains_map_appendNew respects, h, added]

theorem count_fewer_pos {a b : Filed Constraint} (ha : 0 < a.count) (hb : 0 < b.count) :
    0 < (if b.count < a.count then b else a).count := by
  split
  · exact hb
  · exact ha

theorem WaitTogether.merge {a a' b b' : Filed Constraint} (ha : WaitTogether a a')
    (hb : WaitTogether b b') : WaitTogether (a.merge b) (a'.merge b') := by
  rcases ha with rfl | ⟨left, right⟩
  · rcases hb with rfl | ⟨left, right⟩
    · exact .inl rfl
    · exact .inr ⟨count_merge_pos_iff.mpr (.inr left), count_merge_pos_iff.mpr (.inr right)⟩
  · exact .inr ⟨count_merge_pos_iff.mpr (.inl left), count_merge_pos_iff.mpr (.inl right)⟩

/-- A filing in which nothing waits has the fewest constraints, however many there are in others. -/
theorem WaitTogether.fewer {a a' b b' : Filed Constraint} (ha : WaitTogether a a')
    (hb : WaitTogether b b') :
    WaitTogether (if b.count < a.count then b else a) (if b'.count < a'.count then b' else a') := by
  rcases ha with rfl | ⟨left, left'⟩
  · rcases hb with rfl | ⟨right, right'⟩
    · exact .inl rfl
    · by_cases none : a.count = 0
      · rw [if_neg (by omega), if_neg (by omega)]
        exact .inl rfl
      · exact .inr ⟨count_fewer_pos (by omega) right, count_fewer_pos (by omega) right'⟩
  · rcases hb with rfl | ⟨right, right'⟩
    · by_cases none : b.count = 0
      · rw [if_pos (by omega), if_pos (by omega)]
        exact .inl rfl
      · exact .inr ⟨count_fewer_pos left (by omega), count_fewer_pos left' (by omega)⟩
    · exact .inr ⟨count_fewer_pos left right, count_fewer_pos left' right'⟩

theorem congruence_witnesses :
    Congruence WaitTogether (List.Forall₂ (Under Violation.SameWitnesses)) where
  waiting_nil := .inl rfl
  waiting_merge := .merge
  waiting_fewer := .fewer
  waiting_empty {a a'} h := by
    have occupied {a : Filed Constraint} (some : 0 < a.count) : a ≠ [] := by
      rintro rfl
      exact Nat.lt_irrefl 0 some
    rcases h with rfl | ⟨left, right⟩
    · exact Iff.rfl
    · exact iff_of_false (occupied left) (occupied right)
  failing_nil := .nil
  failing_merge := appends_sameWitnesses.merge
  failing_first := compare_first?_related
  failing_empty := eq_nil_iff_of_forall₂

end Filed

namespace Residual

/-- Residuals of one kind. Conflicts list the same paths, and under each the same witnesses. -/
abbrev SameWitnesses : Residual → Residual → Prop :=
  Related Filed.WaitTogether (List.Forall₂ (Filed.Under Violation.SameWitnesses))

theorem sameWitnesses_self (r : Residual) : r.SameWitnesses r := by
  cases r with
  | satisfied => exact .satisfied
  | pending waiting => exact .pending (.inl rfl)
  | conflict failed => exact .conflict (List.forall₂_same.mpr fun under _ => ⟨BEq.rfl, fun _ => rfl⟩)

theorem waitFor_sameWitnesses (c d : Constraint) : (waitFor c).SameWitnesses (waitFor d) :=
  .pending (.inr ⟨Nat.one_pos, Nat.one_pos⟩)

theorem violated_sameWitnesses {c d : Constraint} (paths : c.path = d.path) (witness : Value) :
    (violated c witness).SameWitnesses (violated d witness) :=
  .conflict (.cons ⟨paths ▸ BEq.rfl, fun _ => rfl⟩ .nil)

end Residual

theorem alike_self (outcome : Outcome) : Alike Residual.SameWitnesses outcome outcome := by
  cases outcome with
  | error e => exact .error e
  | ok r => exact .ok r.sameWitnesses_self

/-! ## Negations under the other polarity -/

variable {registry : Registry}

/-- The inverse of a constraint, under a negation, has the same witness as the constraint. -/
theorem Constraint.evaluate_inverse_false [PatternEngine] {c : Constraint}
    (builtins : registry.HasBuiltins)
    (known : registry.contains c.operator = true) (document : Value) (place : Path) :
    Alike Residual.SameWitnesses (c.inverse.evaluate registry document place false)
      (c.evaluate registry document place true) := by
  obtain ⟨op, registered⟩ := Registry.find?_of_contains known
  obtain ⟨op', registered', opposite⟩ := exists_admits_inverse (fun _ => builtins) registered
  have paths : ((c.inverse.under place).withPolarity false).path =
      ((c.under place).withPolarity true).path := by
    rw [path_withPolarity, path_withPolarity, under, under, path_inverse]
  cases there : c.path.find? document with
  | none =>
    have there' : c.inverse.path.find? document = none := by rw [path_inverse, there]
    rw [evaluate_missing there, evaluate_missing there']
    exact .ok (Residual.waitFor_sameWitnesses _ _)
  | some found =>
    have there' : c.inverse.path.find? document = some found := by rw [path_inverse, there]
    rw [evaluate_found there registered, evaluate_found there' registered', opposite]
    cases c.admits op.holds found with
    | true => exact .ok .satisfied
    | false => exact .ok (Residual.violated_sameWitnesses paths found)

namespace Policy

variable {document : Value} {place : Path}

theorem evaluateAt_connected_dual (connective : Connective) {ps qs : List Policy}
    (each : List.Forall₂ (fun p q => Alike Residual.SameWitnesses
      (p.evaluateAt registry document place false) (q.evaluateAt registry document place true)) ps qs) :
    Alike Residual.SameWitnesses
      ((connected connective.dual ps).evaluateAt registry document place false)
      ((connected connective qs).evaluateAt registry document place true) := by
  rw [evaluateAt, evaluateAt, connective.withPolarity_dual, Bool.not_false]
  cases connective.withPolarity true with
  | conjunction =>
    exact (evaluateAll_related each).map fun _ _ => Filed.congruence_witnesses.conjoin
  | disjunction =>
    exact (evaluateSome_related (fun _ _ => Residual.Related.isSatisfied) each).map
      fun _ _ => Filed.congruence_witnesses.disjoin

/-- Filters are evaluated under the positive polarity, so only the bodies have to be compared. -/
theorem evaluateAt_quantified_dual (quantifier : Quantifier) (path : Path) (filter : Option Policy)
    {body other : Policy}
    (inner : ∀ v here, Alike Residual.SameWitnesses (other.evaluateAt registry v here false)
      (body.evaluateAt registry v here true)) :
    Alike Residual.SameWitnesses
      ((quantified quantifier.dual path filter other).evaluateAt registry document place false)
      ((quantified quantifier path filter body).evaluateAt registry document place true) := by
  have filters : AtPlace.Relates Eq Residual.SameWitnesses (evaluateFilter registry filter)
      (evaluateFilter registry filter) := by
    rintro element _ rfl
    exact alike_self _
  have bodies : AtPlace.Relates Eq Residual.SameWitnesses
      (fun v here => other.evaluateAt registry v here false)
      (fun v here => body.evaluateAt registry v here true) := by
    rintro element _ rfl
    exact inner element.2 element.1
  have paths : (standIn (.quantified quantifier.dual path filter other) (place.join path)
      false).path = (standIn (.quantified quantifier path filter body) (place.join path) true).path :=
    rfl
  rw [evaluateAt, evaluateAt, quantifier.withPolarity_dual, Bool.not_false]
  cases path.find? document with
  | none => exact .ok (Residual.waitFor_sameWitnesses _ _)
  | some collection =>
    have unmatched := Residual.violated_sameWitnesses paths collection
    dsimp only
    cases collection.elements? with
    | none => exact .ok unmatched
    | some elements =>
      exact Quantifier.survey_related _ Filed.congruence_witnesses filters bodies unmatched
        (List.forall₂_same.mpr fun _ _ => rfl) (.inl rfl) .nil

/-- A negation under the other polarity evaluates like the policy, but for the constraints that are
reported. -/
theorem evaluateAt_negate_false [PatternEngine] (builtins : registry.HasBuiltins) {p : Policy}
    (known : registry.Knows p) (numbers : p.ComparesNumbers) (document : Value) (place : Path) :
    Alike Residual.SameWitnesses (p.negate.evaluateAt registry document place false)
      (p.evaluateAt registry document place true) := by
  induction p generalizing document place with
  | leaf c =>
    cases exact : c.inverse? with
    | none =>
      have kept : (leaf c).negate = .negation (.leaf c) := by rw [negate, exact]
      rw [kept, evaluateAt]
      exact alike_self _
    | some d =>
      have rewritten : (leaf c).negate = .leaf d := by rw [negate, exact]
      rw [rewritten, evaluateAt, evaluateAt, ← Constraint.inverse_of_inverse? exact]
      exact Constraint.evaluate_inverse_false builtins (Registry.knows_leaf.mp known) document place
  | connected connective parts ih =>
    rw [negate, negateParts_eq_map]
    refine evaluateAt_connected_dual connective ?_
    rw [List.forall₂_map_left_iff, List.forall₂_same]
    intro p member
    exact ih p member (Registry.knows_connected.mp known p member) (numbers.part member) document place
  | negation p ih =>
    -- Here the negation is gone: both sides evaluate the policy below it.
    rw [negate, evaluateAt]
    exact alike_self _
  | quantified quantifier path filter body ihFilter ihBody =>
    rw [negate]
    exact evaluateAt_quantified_dual quantifier path filter
      (ihBody (Registry.knows_quantified.mp known).2 numbers.body)
  | counted path filter comparator operand ih =>
    cases paired : inverseComparator? comparator with
    | none =>
      have kept : (counted path filter comparator operand).negate =
          .negation (.counted path filter comparator operand) := by rw [negate, paired]
      rw [kept, evaluateAt]
      exact alike_self _
    | some inverse =>
      -- Inverse comparators come in pairs, so the count is the negation of its negation.
      have rewritten : (counted path filter comparator operand).negate =
          .counted path filter inverse operand := by rw [negate, paired]
      rw [rewritten, ← evaluateAt_counted_inverse builtins (inverseComparator?_symm paired)
        (rewritten ▸ numbers.negate)]
      exact alike_self _

/-- A policy that is negated twice evaluates to a residual of the same kind, and is in conflict with the
same values under the same paths. -/
theorem evaluate_negate_negate [PatternEngine] (builtins : registry.HasBuiltins) {p : Policy}
    (known : registry.Knows p) (numbers : p.ComparesNumbers) (document : Value) :
    ∃ r s, p.evaluate registry document = .ok r ∧
      p.negate.negate.evaluate registry document = .ok s ∧ s.kindText = r.kindText ∧
      ∀ violations, r = .conflict violations → ∃ others, s = .conflict others ∧
        List.Forall₂ (Filed.Under Violation.SameWitnesses) others violations := by
  obtain ⟨r, evaluated⟩ := evaluateAt_ok known document .root true
  obtain ⟨s, again⟩ := evaluateAt_ok (knows_negate builtins (knows_negate builtins known)) document
    .root true
  have alike := evaluateAt_negate_false builtins known numbers document .root
  rw [← evaluateAt_negate builtins (knows_negate builtins known) numbers.negate, again,
    evaluated] at alike
  cases alike with
  | ok same =>
    refine ⟨r, s, evaluated, again, same.kindText, ?_⟩
    rintro violations rfl
    cases same with
    | conflict failing => exact ⟨_, rfl, failing⟩

/-- A count and a quantifier over a number. Of the latter another form is reported after two
negations. -/
theorem evaluate_negate_negate_of_members :
    let members : Path := ⟨[.string "members"]⟩
    let senior : Policy :=
      .leaf { path := ⟨[.string "age"]⟩, operator := ">", operand := .ofNat 40 }
    let p : Policy := .connected .disjunction
      [.counted members (some senior) ">" (.ofNat 1),
        .quantified .existential ⟨[.string "limit"]⟩ none
          (.negation (.connected .conjunction [senior]))]
    let document : Value := .object
      [(.string "limit", .ofNat 3), (.string "members", .array
        [.object [(.string "age", .ofNat 50)], .object [(.string "age", .ofNat 30)]])]
    Registry.builtins.HasBuiltins ∧ Registry.builtins.Knows p ∧ p.ComparesNumbers ∧
      ∃ r s, p.evaluate .builtins document = .ok r ∧
        p.negate.negate.evaluate .builtins document = .ok s ∧ s.kindText = r.kindText ∧
        ∀ violations, r = .conflict violations → ∃ others, s = .conflict others ∧
          List.Forall₂ (Filed.Under Violation.SameWitnesses) others violations := by
  intro members senior p document
  have known : Registry.builtins.Knows p := by decide +kernel
  have numbers : p.ComparesNumbers := by decide +kernel
  exact ⟨Registry.hasBuiltins_builtins, known, numbers,
    evaluate_negate_negate Registry.hasBuiltins_builtins known numbers document⟩

end Policy

end ResidualPolicy
