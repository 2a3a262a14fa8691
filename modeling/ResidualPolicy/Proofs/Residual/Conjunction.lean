import ResidualPolicy.Proofs.Residual.Filing

/-!
# The algebra of conjunction and disjunction

On well-formed residuals `also` is associative with `satisfied` as its unit, so a conjunction means
the same however its parts are grouped. Residuals that report on different paths also commute. These
laws carry the comparison of policies that are evaluated in the order in which they are written with
plans that go through the paths in ascending order.

`otherwise` is associative, too, with the conflict without violations as its unit. Neither of the two is
commutative, but a part that has been weighed already makes no difference when it comes again
(`also_also_self`, `otherwise_otherwise_self`).
-/

namespace ResidualPolicy

/-! ## The lower of two -/

section Pick

variable {α κ : Type} [Ord κ] {rank : α → κ}

/-- The one of lower rank, and the first one of two of the same rank. -/
def pick (rank : α → κ) (x y : α) : α :=
  if compare (rank y) (rank x) = .lt then y else x

@[simp]
theorem pick_self (x : α) : pick rank x x = x :=
  ite_self x

variable [Std.TransOrd κ]

theorem pick_assoc (x y z : α) : pick rank (pick rank x y) z = pick rank x (pick rank y z) := by
  unfold pick
  by_cases yx : compare (rank y) (rank x) = .lt
  · by_cases zy : compare (rank z) (rank y) = .lt
    · simp [yx, zy, Std.TransCmp.lt_trans zy yx]
    · simp [yx, zy]
  · by_cases zy : compare (rank z) (rank y) = .lt
    · simp [yx, zy]
    · -- `x` is not above `y`, which is not above `z`.
      have xy : (compare (rank x) (rank y)).isLE :=
        Std.OrientedCmp.isLE_of_isGE (Ordering.isGE_iff_ne_lt.mpr yx)
      have zx : ¬ compare (rank z) (rank x) = .lt := fun zx =>
        zy (Std.TransCmp.lt_of_lt_of_isLE zx xy)
      simp [yx, zy, zx]

/-- What has been compared once is not picked over the one that was picked then. -/
theorem pick_pick_self (x y : α) : pick rank (pick rank x y) x = pick rank x y := by
  unfold pick
  by_cases yx : compare (rank y) (rank x) = .lt
  · simp [yx, Std.OrientedCmp.gt_of_lt yx]
  · simp [yx]

end Pick

/-! ## Sameness of entries -/

instance : EquivBEq Constraint where
  rfl {c} := by
    show Constraint.same c c = true
    simp [Constraint.same]
  symm {c d} h := by
    change Constraint.same c d = true at h
    show Constraint.same d c = true
    simp only [Constraint.same, Bool.and_eq_true] at h ⊢
    obtain ⟨⟨⟨path, operator⟩, operand⟩, negated⟩ := h
    exact ⟨⟨⟨BEq.symm path, BEq.symm operator⟩, BEq.symm operand⟩, BEq.symm negated⟩
  trans {c d e} h h' := by
    change Constraint.same c d = true at h
    change Constraint.same d e = true at h'
    show Constraint.same c e = true
    simp only [Constraint.same, Bool.and_eq_true] at h h' ⊢
    obtain ⟨⟨⟨path, operator⟩, operand⟩, negated⟩ := h
    obtain ⟨⟨⟨path', operator'⟩, operand'⟩, negated'⟩ := h'
    exact ⟨⟨⟨BEq.trans path path', BEq.trans operator operator'⟩, BEq.trans operand operand'⟩,
      BEq.trans negated negated'⟩

instance : EquivBEq Violation where
  rfl {v} := by
    show (v.constraint == v.constraint && v.witness == v.witness) = true
    simp
  symm {v w} h := by
    change (v.constraint == w.constraint && v.witness == w.witness) = true at h
    show (w.constraint == v.constraint && w.witness == v.witness) = true
    simp only [Bool.and_eq_true] at h ⊢
    exact ⟨BEq.symm h.1, BEq.symm h.2⟩
  trans {u v w} h h' := by
    change (u.constraint == v.constraint && u.witness == v.witness) = true at h
    change (v.constraint == w.constraint && v.witness == w.witness) = true at h'
    show (u.constraint == w.constraint && u.witness == w.witness) = true
    simp only [Bool.and_eq_true] at h h' ⊢
    exact ⟨BEq.trans h.1 h'.1, BEq.trans h.2 h'.2⟩

/-- The path that a violation is filed under. -/
def Violation.path (v : Violation) : Path :=
  v.constraint.path

namespace Residual

/-! ## Well-formed residuals -/

/-- The shape of the residuals that evaluations return: entries are filed well, and something is
open in a pending one. -/
inductive WellFormed : Residual → Prop where
  | satisfied : WellFormed .satisfied
  | pending {constraints : Filed Constraint} (filed : constraints.WellFormed Constraint.path)
      (occupied : constraints ≠ []) : WellFormed (.pending constraints)
  | conflict {violations : Filed Violation} (filed : violations.WellFormed Violation.path) :
      WellFormed (.conflict violations)

theorem wellFormed_waitFor (c : Constraint) : (waitFor c).WellFormed :=
  .pending (Filed.wellFormed_singleton (Filed.kept_single c)) (List.cons_ne_nil _ _)

theorem wellFormed_violated (c : Constraint) (witness : Value) : (violated c witness).WellFormed :=
  .conflict (Filed.wellFormed_singleton (Filed.kept_single (⟨c, witness⟩ : Violation)))

/-! ## The lower of several conflicts -/

theorem beginsLower_eq (a b : Filed Violation) :
    beginsLower a b = (compare a.first? b.first? == .lt) := by
  unfold beginsLower
  cases a.first? <;> cases b.first? <;> rfl

theorem lowerOf_eq (a b : Filed Violation) :
    lowerOf a b = if compare b.first? a.first? = .lt then b else a := by
  rw [lowerOf, beginsLower_eq]
  simp only [beq_iff_eq]

theorem lowerOf_eq_pick : lowerOf = pick Filed.first? := by
  funext a b
  exact lowerOf_eq a b

theorem lowerOf_assoc (a b c : Filed Violation) :
    lowerOf (lowerOf a b) c = lowerOf a (lowerOf b c) := by
  rw [lowerOf_eq_pick]
  exact pick_assoc a b c

theorem lowerOf_self (a : Filed Violation) : lowerOf a a = a := by
  rw [lowerOf_eq_pick, pick_self]

theorem lowerOf_lowerOf_self (a b : Filed Violation) : lowerOf (lowerOf a b) a = lowerOf a b := by
  rw [lowerOf_eq_pick]
  exact pick_pick_self a b

/-- Of conflicts that begin at different paths the lower one does not depend on the order. -/
theorem lowerOf_comm {a b : Filed Violation} (apart : compare a.first? b.first? ≠ .eq) :
    lowerOf a b = lowerOf b a := by
  rw [lowerOf_eq, lowerOf_eq]
  cases ab : compare a.first? b.first? with
  | lt => rw [if_neg (by rw [Std.OrientedCmp.gt_of_lt ab]; decide), if_pos rfl]
  | eq => exact absurd ab apart
  | gt => rw [if_pos (Std.OrientedCmp.lt_of_gt ab), if_neg (by decide)]

/-! ## Conjunction -/

theorem WellFormed.also {r s : Residual} (hr : r.WellFormed) (hs : s.WellFormed) :
    (r.also s).WellFormed := by
  cases hr with
  | satisfied =>
    rw [satisfied_also]
    exact hs
  | pending filed occupied =>
    cases hs with
    | satisfied => exact .pending filed occupied
    | pending filed' occupied' =>
      exact .pending (filed.merge filed') fun empty => occupied (Filed.merge_eq_nil_iff.mp empty).1
    | conflict filed' => exact .conflict filed'
  | conflict filed =>
    cases hs with
    | satisfied => exact .conflict filed
    | pending filed' occupied' => exact .conflict filed
    | conflict filed' =>
      show WellFormed (.conflict (lowerOf _ _))
      rw [lowerOf_eq]
      split
      · exact .conflict filed'
      · exact .conflict filed

theorem also_assoc {r s t : Residual} (hr : r.WellFormed) (hs : s.WellFormed)
    (ht : t.WellFormed) : (r.also s).also t = r.also (s.also t) := by
  cases hr with
  | satisfied => rw [satisfied_also, satisfied_also]
  | pending filed occupied =>
    cases hs with
    | satisfied => rw [also_satisfied, satisfied_also]
    | pending filed' occupied' =>
      cases ht with
      | satisfied => rfl
      | pending filed'' occupied'' =>
        exact congrArg pending
          (Filed.merge_assoc filed.ascending filed'.ascending filed''.ascending)
      | conflict filed'' => rfl
    | conflict filed' => cases ht <;> rfl
  | conflict filed =>
    cases hs with
    | satisfied => rw [also_satisfied, satisfied_also]
    | pending filed' occupied' => cases ht <;> rfl
    | conflict filed' =>
      cases ht with
      | satisfied => rfl
      | pending filed'' occupied'' => rfl
      | conflict filed'' => exact congrArg conflict (lowerOf_assoc _ _ _)

/-- A part that has been weighed makes no difference when it comes again. -/
theorem also_also_self {r s : Residual} (hr : r.WellFormed) (hs : s.WellFormed) :
    (r.also s).also r = r.also s := by
  cases hr with
  | satisfied => exact also_satisfied _
  | pending filed occupied =>
    cases hs with
    | satisfied => exact congrArg pending (Filed.merge_merge_self (b := []) filed.ascending .nil)
    | pending filed' occupied' =>
      exact congrArg pending (Filed.merge_merge_self filed.ascending filed'.ascending)
    | conflict filed' => rfl
  | conflict filed =>
    cases hs with
    | satisfied => exact congrArg conflict (lowerOf_self _)
    | pending filed' occupied' => exact congrArg conflict (lowerOf_self _)
    | conflict filed' => exact congrArg conflict (lowerOf_lowerOf_self _ _)

theorem WellFormed.foldl_also {rs : List Residual} {r : Residual} (hr : r.WellFormed)
    (hrs : ∀ s ∈ rs, s.WellFormed) : (rs.foldl Residual.also r).WellFormed := by
  induction rs generalizing r with
  | nil => exact hr
  | cons s rs ih =>
    obtain ⟨hs, hrs⟩ := List.forall_mem_cons.mp hrs
    exact ih (hr.also hs) hrs

theorem WellFormed.conjoin {rs : List Residual} (hrs : ∀ s ∈ rs, s.WellFormed) :
    (conjoin rs).WellFormed :=
  WellFormed.satisfied.foldl_also hrs

theorem foldl_also {rs : List Residual} {r : Residual} (hr : r.WellFormed)
    (hrs : ∀ s ∈ rs, s.WellFormed) : rs.foldl also r = r.also (conjoin rs) := by
  induction rs generalizing r with
  | nil => exact (also_satisfied r).symm
  | cons s rs ih =>
    obtain ⟨hs, hrs⟩ := List.forall_mem_cons.mp hrs
    have whole : conjoin (s :: rs) = s.also (conjoin rs) := by
      rw [conjoin, List.foldl_cons, satisfied_also, ih hs hrs]
    rw [List.foldl_cons, ih (hr.also hs) hrs, whole, also_assoc hr hs (.conjoin hrs)]

theorem conjoin_cons {s : Residual} {rs : List Residual} (hs : s.WellFormed)
    (hrs : ∀ s ∈ rs, s.WellFormed) : conjoin (s :: rs) = s.also (conjoin rs) := by
  rw [conjoin, List.foldl_cons, satisfied_also, foldl_also hs hrs]

theorem conjoin_append {rs ss : List Residual} (hrs : ∀ s ∈ rs, s.WellFormed)
    (hss : ∀ s ∈ ss, s.WellFormed) : conjoin (rs ++ ss) = (conjoin rs).also (conjoin ss) := by
  rw [conjoin, List.foldl_append, ← conjoin, foldl_also (.conjoin hrs) hss]

@[simp]
theorem conjoin_singleton (r : Residual) : conjoin [r] = r :=
  satisfied_also r

/-- What commutes with every part commutes with the conjunction. -/
theorem conjoin_also_comm {rs : List Residual} {r : Residual} (hr : r.WellFormed)
    (hrs : ∀ s ∈ rs, s.WellFormed) (comm : ∀ s ∈ rs, s.also r = r.also s) :
    (conjoin rs).also r = r.also (conjoin rs) := by
  induction rs with
  | nil => rw [conjoin, List.foldl_nil, satisfied_also, also_satisfied]
  | cons s rs ih =>
    obtain ⟨hs, hrs⟩ := List.forall_mem_cons.mp hrs
    obtain ⟨first, rest⟩ := List.forall_mem_cons.mp comm
    calc (conjoin (s :: rs)).also r
        = s.also ((conjoin rs).also r) := by
          rw [conjoin_cons hs hrs, also_assoc hs (.conjoin hrs) hr]
      _ = (s.also r).also (conjoin rs) := by
          rw [ih hrs rest, also_assoc hs hr (.conjoin hrs)]
      _ = r.also (conjoin (s :: rs)) := by
          rw [first, also_assoc hr hs (.conjoin hrs), conjoin_cons hs hrs]

/-- What absorbs every part absorbs the conjunction. -/
theorem also_conjoin_absorb {rs : List Residual} {r : Residual} (hr : r.WellFormed)
    (hrs : ∀ s ∈ rs, s.WellFormed) (absorbs : ∀ s ∈ rs, r.also s = r) :
    r.also (conjoin rs) = r := by
  induction rs with
  | nil => exact also_satisfied r
  | cons s rs ih =>
    obtain ⟨hs, hrs⟩ := List.forall_mem_cons.mp hrs
    obtain ⟨first, rest⟩ := List.forall_mem_cons.mp absorbs
    rw [conjoin_cons hs hrs, ← also_assoc hr hs (.conjoin hrs), first, ih hrs rest]

/-! ## Residuals about one path -/

/-- A residual that reports on nothing but one path. -/
inductive IsAt (path : Path) : Residual → Prop where
  | satisfied : IsAt path .satisfied
  | pending {q : Path} (constraints : List Constraint) (same : Ascending.sameKey q path = true) :
      IsAt path (.pending [(q, constraints)])
  | conflict {q : Path} (violations : List Violation) (same : Ascending.sameKey q path = true) :
      IsAt path (.conflict [(q, violations)])

/-- A violation outweighs whatever is reported about the same path or a higher one. -/
theorem violated_also {c : Constraint} {found : Value} {q : Path} {s : Residual} (hs : s.IsAt q)
    (low : compare c.path q ≠ .gt) : (violated c found).also s = violated c found := by
  cases hs with
  | satisfied => rfl
  | pending constraints same => rfl
  | @conflict q' violations same =>
    refine congrArg Residual.conflict ?_
    rw [lowerOf_eq, if_neg]
    show ¬ compare q' c.path = .lt
    rw [Std.TransCmp.congr_left (Ascending.sameKey_iff.mp same)]
    exact fun below => low (Std.OrientedCmp.gt_of_lt below)

/-- Residuals about different paths commute. -/
theorem IsAt.also_comm {p q : Path} {r s : Residual} (hr : r.IsAt p) (hs : s.IsAt q)
    (wr : r.WellFormed) (ws : s.WellFormed) (apart : Ascending.sameKey p q = false) :
    r.also s = s.also r := by
  have different {p' q' : Path} (samep : Ascending.sameKey p' p = true)
      (sameq : Ascending.sameKey q' q = true) : Ascending.sameKey p' q' = false := by
    rw [Ascending.sameKey_congr samep, Bool.eq_false_iff]
    intro h
    have h := Ascending.sameKey_symm h
    rw [Ascending.sameKey_congr sameq] at h
    rw [Ascending.sameKey_symm h] at apart
    exact Bool.noConfusion apart
  -- Only two open parts or two conflicts have to be weighed. A conflict outweighs an open part.
  cases hr with
  | satisfied => rw [satisfied_also, also_satisfied]
  | pending constraints samep =>
    cases hs with
    | satisfied => rfl
    | pending constraints' sameq =>
      cases wr with
      | pending filed occupied =>
        cases ws with
        | pending filed' occupied' =>
          refine congrArg Residual.pending (Filed.merge_comm filed filed' ?_)
          intro p' memberP q' memberQ
          rw [List.mem_singleton.mp memberP, List.mem_singleton.mp memberQ]
          exact different samep sameq
    | conflict violations' sameq => rfl
  | conflict violations samep =>
    cases hs with
    | satisfied => rfl
    | pending constraints' sameq => rfl
    | conflict violations' sameq =>
      -- Each conflict begins at its only path, so one of the two begins lower.
      refine congrArg Residual.conflict (lowerOf_comm fun same => ?_)
      have same := Ascending.sameKey_iff.mpr same
      exact Bool.noConfusion ((different samep sameq).symm.trans same)

/-! ## Disjunction -/

theorem WellFormed.otherwise {r s : Residual} (hr : r.WellFormed) (hs : s.WellFormed) :
    (r.otherwise s).WellFormed := by
  cases hr with
  | satisfied => exact .satisfied
  | pending filed occupied =>
    cases hs with
    | satisfied => exact .satisfied
    | pending filed' occupied' =>
      show WellFormed (.pending (if _ then _ else _))
      split
      · exact .pending filed' occupied'
      · exact .pending filed occupied
    | conflict filed' => exact .pending filed occupied
  | conflict filed =>
    cases hs with
    | satisfied => exact .satisfied
    | pending filed' occupied' => exact .pending filed' occupied'
    | conflict filed' => exact .conflict (filed.merge filed')

theorem WellFormed.foldl_otherwise {rs : List Residual} {r : Residual} (hr : r.WellFormed)
    (hrs : ∀ s ∈ rs, s.WellFormed) : (rs.foldl Residual.otherwise r).WellFormed := by
  induction rs generalizing r with
  | nil => exact hr
  | cons s rs ih =>
    obtain ⟨hs, hrs⟩ := List.forall_mem_cons.mp hrs
    exact ih (hr.otherwise hs) hrs

theorem WellFormed.disjoin {rs : List Residual} (hrs : ∀ s ∈ rs, s.WellFormed) :
    (disjoin rs).WellFormed :=
  (WellFormed.conflict Filed.wellFormed_nil).foldl_otherwise hrs

theorem satisfied_otherwise (r : Residual) : Residual.satisfied.otherwise r = .satisfied := by
  cases r <;> rfl

theorem otherwise_satisfied (r : Residual) : r.otherwise .satisfied = .satisfied := by
  cases r <;> rfl

theorem otherwise_eq_satisfied_iff {r s : Residual} :
    r.otherwise s = .satisfied ↔ r = .satisfied ∨ s = .satisfied := by
  cases r <;> cases s <;> simp [Residual.otherwise]

theorem foldl_otherwise_eq_satisfied_iff {rs : List Residual} {r : Residual} :
    rs.foldl Residual.otherwise r = .satisfied ↔ r = .satisfied ∨ ∃ s ∈ rs, s = .satisfied := by
  induction rs generalizing r with
  | nil => simp
  | cons s rs ih =>
    rw [List.foldl_cons, ih, otherwise_eq_satisfied_iff, or_assoc, List.exists_mem_cons_iff]

theorem otherwise_unit (r : Residual) : r.otherwise (.conflict []) = r := by
  cases r <;> rfl

theorem WellFormed.unit_otherwise {r : Residual} (hr : r.WellFormed) :
    Residual.otherwise (.conflict []) r = r := by
  cases hr with
  | satisfied => rfl
  | pending filed occupied => rfl
  | conflict filed => exact congrArg Residual.conflict (Filed.nil_merge filed)

theorem pending_otherwise_pending (a b : Filed Constraint) :
    Residual.otherwise (.pending a) (.pending b) = .pending (pick Filed.count a b) := by
  rw [Residual.otherwise, pick]
  simp only [Nat.compare_eq_lt]

theorem otherwise_assoc {r s t : Residual} (hr : r.WellFormed) (hs : s.WellFormed)
    (ht : t.WellFormed) : (r.otherwise s).otherwise t = r.otherwise (s.otherwise t) := by
  cases hr with
  | satisfied => simp only [satisfied_otherwise]
  | pending filed occupied =>
    cases hs with
    | satisfied => exact satisfied_otherwise t
    | pending filed' occupied' =>
      cases ht with
      | satisfied => rfl
      | pending filed'' occupied'' =>
        simp only [pending_otherwise_pending]
        exact congrArg pending (pick_assoc _ _ _)
      | conflict filed'' => rfl
    | conflict filed' => cases ht <;> rfl
  | conflict filed =>
    cases hs with
    | satisfied => exact satisfied_otherwise t
    | pending filed' occupied' => cases ht <;> rfl
    | conflict filed' =>
      cases ht with
      | satisfied => rfl
      | pending filed'' occupied'' => rfl
      | conflict filed'' =>
        exact congrArg conflict
          (Filed.merge_assoc filed.ascending filed'.ascending filed''.ascending)

/-- A part that has been weighed makes no difference when it comes again. -/
theorem otherwise_otherwise_self {r s : Residual} (hr : r.WellFormed) (hs : s.WellFormed) :
    (r.otherwise s).otherwise r = r.otherwise s := by
  cases hr with
  | satisfied => simp only [satisfied_otherwise]
  | pending filed occupied =>
    cases hs with
    | satisfied => rfl
    | pending filed' occupied' =>
      simp only [pending_otherwise_pending]
      exact congrArg pending (pick_pick_self _ _)
    | conflict filed' => exact (pending_otherwise_pending _ _).trans (congrArg pending (pick_self _))
  | conflict filed =>
    cases hs with
    | satisfied => rfl
    | pending filed' occupied' => rfl
    | conflict filed' =>
      exact congrArg conflict (Filed.merge_merge_self filed.ascending filed'.ascending)

/-- A disjunction of one part is that part. -/
theorem WellFormed.disjoin_singleton {r : Residual} (hr : r.WellFormed) :
    Residual.disjoin [r] = r :=
  hr.unit_otherwise

end Residual

end ResidualPolicy
