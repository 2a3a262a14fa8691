import ResidualPolicy.Proofs.Evaluation.Congruence
import ResidualPolicy.Proofs.Policy.Operands
import ResidualPolicy.Proofs.Policy.Sameness
import ResidualPolicy.Proofs.Residual.Sameness
import ResidualPolicy.Proofs.Value.Parts

/-!
# Policies that are the same evaluate to the same

Evaluations of policies that are the same fail with the same error or return residuals that are the
same (`Policy.evaluateAt_same`), provided that operators do not distinguish equal operands of theirs
and that arrays are short enough for every index to be a number. The documents need not be equal, only
alike in what evaluations make of them (`Likeness`).
-/

namespace ResidualPolicy

/-! ## Documents that are alike -/

/-- Places that are the same, with documents that are alike. -/
def LikeAt (like : Value → Value → Prop) (a b : Path × Value) : Prop :=
  (a.1 == b.1) = true ∧ like a.2 b.2

/-- Documents are alike: they are equal as witnesses, the same stands in them under paths that are
the same, their elements are alike, and operators do not distinguish them, given operands that are
equal. -/
structure Likeness (registry : Registry) (operands : List Value) (like : Value → Value → Prop) :
    Prop where
  equal : ∀ v w, like v w → (v == w) = true
  count : ∀ n, like (.ofNat n) (.ofNat n)
  find : ∀ v w, like v w → ∀ p q : Path, (p == q) = true → Option.Rel like (p.find? v) (q.find? w)
  elements : ∀ v w, like v w → Option.Rel
    (List.Forall₂ fun a b => (a.1 == b.1) = true ∧ like a.2 b.2) v.elements? w.elements?
  holds : ∀ id op, registry.find? id = some op → ∀ v w, like v w → ∀ o ∈ operands, ∀ u ∈ operands,
    (o == u) = true → op.holds v o = op.holds w u

/-- Documents with short arrays are like themselves. -/
theorem Likeness.ofShort {registry : Registry} {operands : List Value}
    (respects : registry.RespectsOperands operands) :
    Likeness registry operands fun v w => v = w ∧ v.HasShortArrays where
  equal v w h := h.1 ▸ BEq.rfl
  count n := ⟨rfl, List.forall_mem_singleton.mpr trivial⟩
  find v w h p q same := by
    obtain ⟨rfl, short⟩ := h
    have there : p.find? v = q.find? v := Path.find?_congr short.arraysFit same
    cases found : q.find? v with
    | none =>
      rw [there, found]
      exact .none
    | some w =>
      rw [there, found]
      exact .some ⟨rfl, Value.forall_parts_lookup? short found⟩
  elements v w h := by
    obtain ⟨rfl, short⟩ := h
    cases elements : v.elements? with
    | none => exact .none
    | some elements =>
      refine .some (List.forall₂_same.mpr fun element member => ⟨BEq.rfl, rfl, ?_⟩)
      exact Value.forall_parts_elements? short ‹_› element member
  holds id op registered v w h o ho u hu same := h.1 ▸ respects id op registered v o ho u hu same

variable {registry : Registry} {operands : List Value} {like : Value → Value → Prop} {v w : Value}
  {place place' : Path}

theorem Constraint.evaluate_same (likeness : Likeness registry operands like) {c d : Constraint}
    (hc : c.operand ∈ operands) (hd : d.operand ∈ operands) (h : (c == d) = true) (docs : like v w)
    (places : (place == place') = true) (positive : Bool) :
    Alike Residual.SameAs (c.evaluate registry v place positive)
      (d.evaluate registry w place' positive) := by
  obtain ⟨paths, operator, operand, negated⟩ := beq_iff.mp h
  have reported := withPolarity_same (under_same h places) positive
  have there := likeness.find v w docs c.path d.path paths
  unfold evaluate
  generalize c.path.find? v = found?, d.path.find? w = found?' at there ⊢
  cases there with
  | none => exact .ok (Residual.waitFor_same reported)
  | @some found found' alike =>
    dsimp only
    rw [← operator]
    refine (registry.lookup_alike c.operator).bind ?_
    rintro op _ ⟨rfl, registered⟩
    have judged : c.admits op.holds found = d.admits op.holds found' := by
      rw [admits, admits, likeness.holds _ op registered found found' alike _ hc _ hd operand,
        negated]
    rw [judged]
    exact .ite (.ok .satisfied)
      (.ok (Residual.violated_sameAs reported (likeness.equal _ _ alike))) _

/-! ## Collections -/

theorem placedElements_same {elements elements' : List (Value × Value)}
    (h : List.Forall₂ (fun a b => (a.1 == b.1) = true ∧ like a.2 b.2) elements elements')
    (places : (place == place') = true) :
    List.Forall₂ (LikeAt like) (placedElements place elements)
      (placedElements place' elements') := by
  unfold placedElements
  rw [List.forall₂_map_left_iff, List.forall₂_map_right_iff]
  exact h.imp fun a b both => ⟨Path.child_same places both.1, both.2⟩

/-- Evaluations that are the same on elements that are alike. -/
def AtPlace.SameAs (like : Value → Value → Prop) (f g : AtPlace) : Prop :=
  ∀ a b, LikeAt like a b → Alike Residual.SameAs (f a.2 a.1) (g b.2 b.1)

theorem Quantifier.survey_same (quantifier : Quantifier) {filter filter' body body' : AtPlace}
    (filters : filter.SameAs like filter') (bodies : body.SameAs like body')
    {unmatched unmatched' : Residual} (others : unmatched.SameAs unmatched')
    {elements elements' : List (Path × Value)}
    (each : List.Forall₂ (LikeAt like) elements elements') :
    Alike Residual.SameAs (quantifier.survey filter body unmatched [] [] elements)
      (quantifier.survey filter' body' unmatched' [] [] elements') := by
  unfold AtPlace.SameAs at filters bodies
  rw [Residual.sameAs_eq_related] at filters bodies others ⊢
  exact quantifier.survey_related Filed.congruence_same filters bodies others each .nil .nil

/-! ## The walk -/

namespace Policy

theorem standIn_same {p q : Policy} (h : same p q = true) (places : (place == place') = true)
    (positive : Bool) :
    (p.standIn place positive == q.standIn place' positive) = true :=
  Constraint.beq_iff.mpr ⟨places, tag_same (withPolarity_same h positive),
    expr_same (withPolarity_same h positive), rfl⟩

theorem countConstraint_same (comparator : String) {operand operand' : Value}
    (places : (place == place') = true) (operands : (operand == operand') = true)
    (positive : Bool) :
    (countConstraint place comparator operand positive ==
      countConstraint place' comparator operand' positive) = true := by
  unfold countConstraint
  cases positive with
  | true => exact Constraint.beq_iff.mpr ⟨places, rfl, operands, rfl⟩
  | false =>
    cases inverseComparator? comparator with
    | none => exact Constraint.beq_iff.mpr ⟨places, rfl, operands, rfl⟩
    | some inverse => exact Constraint.beq_iff.mpr ⟨places, rfl, operands, rfl⟩

/-- Evaluations of policies that are the same, on documents that are alike, are the same. -/
theorem evaluateAt_same (likeness : Likeness registry operands like) {p q : Policy}
    (hp : p.IsOver operands) (hq : q.IsOver operands) (h : same p q = true) (docs : like v w)
    (places : (place == place') = true) (positive : Bool) :
    Alike Residual.SameAs (p.evaluateAt registry v place positive)
      (q.evaluateAt registry w place' positive) := by
  refine same_induct (motive := fun p q => p.IsOver operands → q.IsOver operands →
    ∀ {v w : Value} {place place' : Path}, like v w → (place == place') = true → ∀ positive,
      Alike Residual.SameAs (p.evaluateAt registry v place positive)
        (q.evaluateAt registry w place' positive))
    (fun p q whole form => ?_) h hp hq docs places positive
  intro hp hq v w place place' docs places positive
  have filtering {f? g? : Option Policy} (hf : ∀ f ∈ f?, f.IsOver operands)
      (hg : ∀ g ∈ g?, g.IsOver operands)
      (filters : Option.Rel (fun p q => same p q = true ∧ (p.IsOver operands → q.IsOver operands →
        ∀ {v w : Value} {place place' : Path}, like v w → (place == place') = true → ∀ positive,
          Alike Residual.SameAs (p.evaluateAt registry v place positive)
            (q.evaluateAt registry w place' positive))) f? g?) :
      AtPlace.SameAs like (evaluateFilter registry f?) (evaluateFilter registry g?) := by
    intro a b alike
    cases filters with
    | none =>
      rw [evaluateFilter, evaluateFilter]
      exact .ok .satisfied
    | some both =>
      rw [evaluateFilter, evaluateFilter]
      exact both.2 (hf _ rfl) (hg _ rfl) alike.2 alike.1 true
  cases form with
  | leaf h =>
    rw [evaluateAt, evaluateAt]
    exact Constraint.evaluate_same likeness (isOver_leaf.mp hp) (isOver_leaf.mp hq) h docs places
      positive
  | @connected connective ps qs parts =>
    have each : List.Forall₂ (fun p q => Alike Residual.SameAs
        (evaluateAt registry p v place positive) (evaluateAt registry q w place' positive)) ps qs :=
      forall₂_imp_of_mem parts fun p hp' q hq' both =>
        both.2 (isOver_connected.mp hp p hp') (isOver_connected.mp hq q hq') docs places positive
    rw [evaluateAt, evaluateAt]
    cases connective.withPolarity positive with
    | conjunction => exact (evaluateAll_related each).map fun _ _ => Residual.conjoin_same
    | disjunction =>
      exact (evaluateSome_related (fun _ _ => Residual.SameAs.isSatisfied) each).map
        fun _ _ => Residual.disjoin_same
  | negation h =>
    rw [evaluateAt, evaluateAt]
    exact h.2 hp hq docs places !positive
  | @quantified quantifier path path' filter filter' body body' paths filters bodies =>
    obtain ⟨hf, hb⟩ := isOver_quantified.mp hp
    obtain ⟨hf', hb'⟩ := isOver_quantified.mp hq
    have bindings := Path.join_same places paths
    have standIns := standIn_same whole bindings positive
    have there := likeness.find v w docs path path' paths
    rw [evaluateAt, evaluateAt]
    generalize path.find? v = found?, path'.find? w = found?' at there ⊢
    cases there with
    | none => exact .ok (Residual.waitFor_same standIns)
    | @some found found' alike =>
      have unmatched := Residual.violated_sameAs standIns (likeness.equal _ _ alike)
      have elements := likeness.elements found found' alike
      dsimp only
      generalize found.elements? = elements?, found'.elements? = elements?' at elements ⊢
      cases elements with
      | none => exact .ok unmatched
      | some elements =>
        exact Quantifier.survey_same _ (filtering hf hf' filters)
          (fun a b alike => bodies.2 hb hb' alike.2 alike.1 positive) unmatched
          (placedElements_same elements bindings)
  | @counted path path' filter filter' comparator operand operand' paths filters equal =>
    obtain ⟨hf, ho⟩ := isOver_counted.mp hp
    obtain ⟨hf', ho'⟩ := isOver_counted.mp hq
    have bindings := Path.join_same places paths
    have counts := countConstraint_same comparator bindings equal positive
    have there := likeness.find v w docs path path' paths
    rw [evaluateAt, evaluateAt]
    generalize path.find? v = found?, path'.find? w = found?' at there ⊢
    cases there with
    | none => exact .ok (Residual.waitFor_same counts)
    | @some found found' alike =>
      have elements := likeness.elements found found' alike
      dsimp only
      generalize found.elements? = elements?, found'.elements? = elements?' at elements ⊢
      cases elements with
      | none => exact .ok (Residual.violated_sameAs counts (likeness.equal _ _ alike))
      | some elements =>
        refine (countPassing_related (fun _ _ => Residual.SameAs.isSatisfied)
          (filtering hf hf' filters) (placedElements_same elements bindings)).bind
            fun count count' counted => ?_
        refine (registry.lookup_alike comparator).bind ?_
        rintro op _ ⟨rfl, registered⟩
        rw [counted,
          likeness.holds _ op registered _ _ (likeness.count count') _ ho _ ho' equal]
        exact .ite (.ok .satisfied) (.ok (Residual.violated_sameAs counts BEq.rfl)) _

end Policy

end ResidualPolicy
