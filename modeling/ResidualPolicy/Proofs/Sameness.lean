import ResidualPolicy.Proofs.Plan
import ResidualPolicy.Proofs.Residual.Congruence

/-!
# Normal forms that are the same

Sameness is coarser than equality: `1` and `1.0` are the same operand and the same key of a path.
Normal forms that are the same use the same operators (`ConstraintSet.operators_of_same`), and their
plans run to residuals that are the same (`Plan.run_ofFiled_same`).
-/

namespace ResidualPolicy

universe u v

theorem forall₂_of_beq {α : Type u} [BEq α] {xs ys : List α} (h : (xs == ys) = true) :
    List.Forall₂ (fun x y => (x == y) = true) xs ys := by
  induction xs generalizing ys with
  | nil =>
    cases ys with
    | nil => exact .nil
    | cons y ys => exact nomatch h
  | cons x xs ih =>
    cases ys with
    | nil => exact nomatch h
    | cons y ys =>
      rw [List.cons_beq_cons, Bool.and_eq_true] at h
      exact .cons h.1 (ih h.2)

theorem map_eq_of_beq {α : Type u} {β : Type v} [BEq α] {f : α → β}
    (respects : ∀ x y, (x == y) = true → f x = f y) {xs ys : List α} (h : (xs == ys) = true) :
    xs.map f = ys.map f := by
  have related := forall₂_of_beq h
  clear h
  induction related with
  | nil => rfl
  | cons first _ ih => rw [List.map_cons, List.map_cons, respects _ _ first, ih]

/-! ## Filed entries -/

namespace Filed

variable {α : Type} [BEq α]

/-- Sameness of entries under a path. -/
def SameUnder (under other : Path × List α) : Prop :=
  (under.1 == other.1) = true ∧ (under.2 == other.2) = true

theorem same_iff_forall₂ {filed more : Filed α} :
    filed.same more = true ↔ List.Forall₂ SameUnder filed more := by
  rw [List.forall₂_iff_zip, same, Bool.and_eq_true, beq_iff_eq, List.all_eq_true]
  refine and_congr_right fun _ => ⟨fun h a b member => ?_, fun h pair member => ?_⟩
  · exact Bool.and_eq_true_iff.mp (h (a, b) member)
  · exact Bool.and_eq_true_iff.mpr (h member)

theorem same_self [ReflBEq α] (filed : Filed α) : filed.same filed = true :=
  same_iff_forall₂.mpr (List.forall₂_same.mpr fun _ _ => ⟨BEq.rfl, BEq.rfl⟩)

theorem map_toList_of_same {β : Type} {f : α → β} (respects : ∀ a b, (a == b) = true → f a = f b)
    {filed more : Filed α} (h : List.Forall₂ SameUnder filed more) :
    (filed.toList.map Prod.snd).map f = (more.toList.map Prod.snd).map f := by
  induction h with
  | nil => rfl
  | @cons a b filed more first _ ih =>
    have split (under : Path × List α) (rest : Filed α) :
        (toList (under :: rest)).map Prod.snd = under.2 ++ rest.toList.map Prod.snd := by
      simp [toList, Function.comp_def]
    rw [split, split, List.map_append, List.map_append, ih, map_eq_of_beq respects first.2]

theorem sameUnder_eq : SameUnder = Under fun xs ys : List α => (xs == ys) = true := rfl

/-- Storing the same under the same path keeps filings the same. -/
theorem SameUnder.put {under other : Path × List α} (same : SameUnder under other)
    {filed more : Filed α} (h : List.Forall₂ SameUnder filed more) :
    List.Forall₂ SameUnder (Ascending.put under.1 under.2 filed)
      (Ascending.put other.1 other.2 more) := by
  rw [sameUnder_eq] at h ⊢
  exact alter_related same.1 same.2 (fun _ _ _ => same.2) h

end Filed

/-! ## Normal forms -/

namespace ConstraintSet

instance : ReflBEq ConstraintSet where
  rfl {set} := by
    show set.same set = true
    rw [same, Filed.same_self, BEq.rfl]
    rfl

/-- Normal forms that are the same use the same operators. -/
theorem operators_of_same {a b : ConstraintSet} (h : (a == b) = true) :
    a.operators = b.operators := by
  obtain ⟨constraints, complex⟩ := Bool.and_eq_true_iff.mp h
  have leaves : a.constraintList.map Constraint.operator =
      b.constraintList.map Constraint.operator := by
    refine Filed.map_toList_of_same (fun c d same => ?_) (Filed.same_iff_forall₂.mp constraints)
    change Constraint.same c d = true at same
    simp only [Constraint.same, Bool.and_eq_true] at same
    exact beq_iff_eq.mp same.1.1.2
  have parts : a.complex.flatMap Policy.operatorList = b.complex.flatMap Policy.operatorList := by
    rw [List.flatMap_def, List.flatMap_def,
      map_eq_of_beq (fun _ _ same => Policy.operatorList_of_same same) complex]
  rw [operators, operators, leaves, parts]

theorem isBuiltinOnly_of_same {a b : ConstraintSet} (h : (a == b) = true) :
    a.isBuiltinOnly = b.isBuiltinOnly := by
  rw [isBuiltinOnly, customOperators, operators_of_same h]
  rfl

theorem complex_eq_nil_iff_of_same {a b : ConstraintSet} (h : (a == b) = true) :
    a.complex = [] ↔ b.complex = [] :=
  eq_nil_iff_of_forall₂ (forall₂_of_beq (Bool.and_eq_true_iff.mp h).2)

theorem hasComplex_of_same {a b : ConstraintSet} (h : (a == b) = true) :
    a.hasComplex = b.hasComplex := by
  refine congrArg not (Bool.eq_iff_iff.mpr ?_)
  rw [List.isEmpty_iff, List.isEmpty_iff]
  exact complex_eq_nil_iff_of_same h

end ConstraintSet

instance : ReflBEq Residual where
  rfl {r} := by
    cases r with
    | satisfied => rfl
    | pending constraints => exact Filed.same_self constraints
    | conflict violations => exact Filed.same_self violations

theorem Residual.violated_same {c d : Constraint} (h : (c == d) = true) {found found' : Value}
    (values : (found == found') = true) : (violated c found == violated d found') = true := by
  have paths : (c.path == d.path) = true := by
    change Constraint.same c d = true at h
    simp only [Constraint.same, Bool.and_eq_true] at h
    exact h.1.1.1
  have entries : ([⟨c, found⟩] == [(⟨d, found'⟩ : Violation)]) = true := by
    rw [List.cons_beq_cons, Bool.and_eq_true]
    exact ⟨Bool.and_eq_true_iff.mpr ⟨h, values⟩, rfl⟩
  exact Filed.same_iff_forall₂.mpr (.cons ⟨paths, entries⟩ .nil)

/-! ## Plans -/

namespace Plan

variable {judge : Constraint → Value → Bool} {document : Value}

theorem find?_same (judges : JudgesSame judge) (found : Value) {cs ds : List Constraint}
    (h : (cs == ds) = true) :
    Option.Rel (fun c d => (c == d) = true) (cs.find? fun c => !judge c found)
      (ds.find? fun d => !judge d found) := by
  have related := forall₂_of_beq h
  clear h
  induction related with
  | nil => exact .none
  | @cons c d cs ds first _ ih =>
    rw [List.find?_cons, List.find?_cons, judges c d first found]
    cases judge d found with
    | false => exact .some first
    | true => exact ih

theorem ofPending_same {pending waiting : Filed Constraint}
    (h : List.Forall₂ Filed.SameUnder pending waiting) :
    (Residual.ofPending pending == Residual.ofPending waiting) = true := by
  cases h with
  | nil => rfl
  | cons first rest => exact Filed.same_iff_forall₂.mpr (.cons first rest)

/-- The plans of filings that are the same run to residuals that are the same. -/
theorem runFrom_ofFiled_same (fit : document.ArraysFit) (judges : JudgesSame judge)
    {filed more pending waiting : Filed Constraint} (h : List.Forall₂ Filed.SameUnder filed more)
    (before : List.Forall₂ Filed.SameUnder pending waiting) :
    ((ofFiled judge filed).runFrom document pending ==
      (ofFiled judge more).runFrom document waiting) = true := by
  induction h generalizing pending waiting with
  | nil => exact ofPending_same before
  | @cons a b filed more first _ ih =>
    -- Both runs find the same value here, and go on or stop together.
    have there : a.1.find? document = b.1.find? document := Path.find?_congr fit first.1
    rw [runFrom_ofFiled_cons, runFrom_ofFiled_cons, there]
    cases b.1.find? document with
    | none => exact ih (first.put before)
    | some found =>
      dsimp only
      have failing := find?_same judges found first.2
      generalize (a.2.find? fun c => !judge c found) = c?, (b.2.find? fun c => !judge c found) = d?
        at failing ⊢
      cases failing with
      | none => exact ih before
      | some same => exact Residual.violated_same same BEq.rfl

/-- The plans of normal forms that are the same run to residuals that are the same. -/
theorem run_ofFiled_same (fit : document.ArraysFit) (judges : JudgesSame judge)
    {a b : ConstraintSet} (h : (a == b) = true) :
    ((ofFiled judge a.constraints).run document ==
      (ofFiled judge b.constraints).run document) = true :=
  runFrom_ofFiled_same fit judges
    (Filed.same_iff_forall₂.mp (Bool.and_eq_true_iff.mp h).1) .nil

end Plan

end ResidualPolicy
