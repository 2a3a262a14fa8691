import ResidualPolicy.Proofs.Policy.Sameness
import ResidualPolicy.Proofs.Sameness

/-!
# Residuals that are the same

Sameness is one of the relations that all ways of combining residuals keep (`Filed.congruence_same`), so
what is made of residuals that are the same is the same.
-/

namespace ResidualPolicy

universe u

/-! ## Filed entries -/

namespace Filed

variable {α : Type} [BEq α]

/-- Lists of entries that are the same, entry by entry. -/
theorem beq_iff_forall₂ {xs ys : List α} :
    (xs == ys) = true ↔ List.Forall₂ (fun x y => (x == y) = true) xs ys := by
  refine ⟨forall₂_of_beq, fun h => ?_⟩
  induction h with
  | nil => rfl
  | cons first _ ih =>
    rw [List.cons_beq_cons, first, ih]
    rfl

theorem count_same {filed more : Filed α} (h : List.Forall₂ SameUnder filed more) :
    filed.count = more.count := by
  have units := congrArg List.length (map_toList_of_same (f := fun _ => ()) (fun _ _ _ => rfl) h)
  simp only [List.length_map] at units
  exact units

theorem compare_first?_same {a a' b b' : Filed α} (ha : List.Forall₂ SameUnder a a')
    (hb : List.Forall₂ SameUnder b b') :
    compare a.first? b.first? = compare a'.first? b'.first? := by
  rw [sameUnder_eq] at ha hb
  exact compare_first?_related ha hb

variable [EquivBEq α]

theorem contains_same {xs ys : List α} (h : (xs == ys) = true) {x y : α} (same : (x == y) = true) :
    xs.contains x = ys.contains y := by
  have related := forall₂_of_beq h
  clear h
  induction related with
  | nil => rfl
  | cons first _ ih =>
    rw [List.contains_cons, List.contains_cons, ih, BEq.congr_left same, BEq.congr_right first]

theorem appendNew_same {entries entries' more more' : List α} (h : (entries == entries') = true)
    (added : (more == more') = true) :
    (appendNew entries more == appendNew entries' more') = true := by
  have related := forall₂_of_beq added
  clear added
  induction related generalizing entries entries' with
  | nil => exact h
  | @cons x y more more' first _ ih =>
    rw [appendNew_cons, appendNew_cons, contains_same h first]
    refine ih ?_
    split
    · exact h
    · exact beq_iff_forall₂.mpr (List.rel_append (forall₂_of_beq h) (.cons first .nil))

theorem appends_same : Appends fun xs ys : List α => (xs == ys) = true where
  nil := rfl
  append := appendNew_same

/-- Sameness is kept by all ways of combining residuals. -/
theorem congruence_same : Congruence (List.Forall₂ SameUnder) (List.Forall₂ SameUnder) where
  waiting_nil := .nil
  waiting_merge ha hb := appends_same.merge ha hb
  waiting_fewer ha hb := by
    rw [count_same ha, count_same hb]
    split
    · exact hb
    · exact ha
  waiting_empty := eq_nil_iff_of_forall₂
  failing_nil := .nil
  failing_merge hv hw := appends_same.merge hv hw
  failing_first := compare_first?_same
  failing_empty := eq_nil_iff_of_forall₂

end Filed

/-! ## Residuals -/

namespace Residual

/-- Residuals of one kind that list the same. -/
inductive SameAs : Residual → Residual → Prop where
  | satisfied : SameAs .satisfied .satisfied
  | pending {a b : Filed Constraint} (h : List.Forall₂ Filed.SameUnder a b) :
      SameAs (.pending a) (.pending b)
  | conflict {v w : Filed Violation} (h : List.Forall₂ Filed.SameUnder v w) :
      SameAs (.conflict v) (.conflict w)

theorem beq_iff_sameAs {r s : Residual} : (r == s) = true ↔ SameAs r s := by
  show same r s = true ↔ _
  constructor
  · intro h
    unfold same at h
    split at h
    · exact .satisfied
    · exact .pending (Filed.same_iff_forall₂.mp h)
    · exact .conflict (Filed.same_iff_forall₂.mp h)
    · exact nomatch h
  · intro h
    cases h with
    | satisfied => rfl
    | pending h => exact Filed.same_iff_forall₂.mpr h
    | conflict h => exact Filed.same_iff_forall₂.mpr h

theorem waitFor_same {c d : Constraint} (h : (c == d) = true) : SameAs (waitFor c) (waitFor d) :=
  .pending (.cons ⟨(Constraint.beq_iff.mp h).1, Filed.beq_iff_forall₂.mpr (.cons h .nil)⟩ .nil)

theorem violated_sameAs {c d : Constraint} (h : (c == d) = true) {v w : Value}
    (values : (v == w) = true) : SameAs (violated c v) (violated d w) :=
  beq_iff_sameAs.mp (violated_same h values)

theorem SameAs.isSatisfied {r s : Residual} (h : SameAs r s) : r.isSatisfied = s.isSatisfied := by
  cases h <;> rfl

theorem sameAs_eq_related :
    SameAs = Related (List.Forall₂ Filed.SameUnder) (List.Forall₂ Filed.SameUnder) := by
  funext r s
  refine propext ⟨fun h => ?_, fun h => ?_⟩
  · cases h with
    | satisfied => exact .satisfied
    | pending h => exact .pending h
    | conflict h => exact .conflict h
  · cases h with
    | satisfied => exact .satisfied
    | pending h => exact .pending h
    | conflict h => exact .conflict h

theorem conjoin_same {rs ss : List Residual} (h : List.Forall₂ SameAs rs ss) :
    SameAs (conjoin rs) (conjoin ss) := by
  rw [sameAs_eq_related] at h ⊢
  exact Filed.congruence_same.conjoin h

theorem disjoin_same {rs ss : List Residual} (h : List.Forall₂ SameAs rs ss) :
    SameAs (disjoin rs) (disjoin ss) := by
  rw [sameAs_eq_related] at h ⊢
  exact Filed.congruence_same.disjoin h

end Residual

end ResidualPolicy
