import ResidualPolicy.Proofs.Residual.Conjunction

/-!
# What a conjunction reports, whatever the order of its parts

One residual is below another if it reports nothing that the other does not: fewer open constraints,
or a conflict that begins no lower. A conjunction is the least residual above its parts
(`Residual.conjoin_below_iff`), so conjunctions of the same parts in different order, or with parts
repeated, are below each other. Well-formed residuals that are below each other correspond
(`Residual.corresponds_of_below`): they are of one kind, and list the same open constraints under the
same paths or conflicts that begin at the same path.
-/

namespace ResidualPolicy

/-! ## Entries, whatever the path -/

namespace Filed

variable {α : Type} [BEq α]

/-- Whether an entry is filed under some path. -/
def lists (filed : Filed α) (entry : α) : Bool :=
  filed.any fun under => under.2.contains entry

theorem lists_cons (u : Path × List α) (a : Filed α) (entry : α) :
    lists (u :: a) entry = (u.2.contains entry || a.lists entry) := rfl

variable [EquivBEq α]

theorem lists_file (path : Path) (more : List α) (filed : Filed α) (entry : α) :
    (file path more filed).lists entry = (filed.lists entry || more.contains entry) := by
  induction filed with
  | nil => simp [file, Ascending.alter, lists, contains_appendNew]
  | cons head rest ih =>
    obtain ⟨q, entries⟩ := head
    rw [file_cons]
    unfold lists at ih ⊢
    cases compare path q with
    | lt => simp [contains_appendNew, Bool.or_comm]
    | eq => simp [contains_appendNew, Bool.or_assoc, Bool.or_comm]
    | gt => simp [ih, Bool.or_assoc]

theorem lists_merge (filed more : Filed α) (entry : α) :
    (filed.merge more).lists entry = (filed.lists entry || more.lists entry) := by
  induction more generalizing filed with
  | nil => exact (Bool.or_false _).symm
  | cons under more ih =>
    rw [merge_cons, ih, lists_file, Bool.or_assoc]
    rfl

theorem count_pos_iff {filed : Filed α} :
    0 < filed.count ↔ ∃ entry, filed.lists entry = true := by
  unfold count toList lists
  simp only [List.length_pos_iff_exists_mem, List.mem_flatMap, List.mem_map, List.any_eq_true]
  constructor
  · rintro ⟨_, under, member, entry, among, rfl⟩
    exact ⟨entry, under, member, List.contains_iff_exists_mem_beq.mpr ⟨entry, among, BEq.rfl⟩⟩
  · rintro ⟨entry, under, member, present⟩
    obtain ⟨other, among, -⟩ := List.contains_iff_exists_mem_beq.mp present
    exact ⟨(under.1, other), under, member, other, among, rfl⟩

/-- Something is filed in a merge if it is in one of its parts. -/
theorem count_merge_pos_iff {filed more : Filed α} :
    0 < (filed.merge more).count ↔ 0 < filed.count ∨ 0 < more.count := by
  simp only [count_pos_iff, lists_merge, Bool.or_eq_true, exists_or]

/-! ## Filings of the same entries -/

/-- Without repetitions, erasing an entry leaves all others. -/
theorem contains_erase {xs : List α} (distinct : xs.Pairwise fun a b => (b == a) = false)
    (x entry : α) : (xs.erase x).contains entry = (xs.contains entry && !(entry == x)) := by
  induction xs with
  | nil => rfl
  | cons y xs ih =>
    obtain ⟨apart, distinct⟩ := List.pairwise_cons.mp distinct
    rw [List.erase_cons, List.contains_cons]
    by_cases same : (y == x) = true
    · rw [if_pos same, BEq.congr_right same]
      by_cases erased : (entry == x) = true
      · have gone : xs.contains entry = false := by
          rw [Bool.eq_false_iff, ne_eq, List.contains_iff_exists_mem_beq]
          rintro ⟨z, member, equal⟩
          have other := apart z member
          rw [← BEq.congr_left equal, BEq.congr_right same, erased] at other
          exact Bool.noConfusion other
        rw [gone, erased]
        rfl
      · rw [Bool.not_eq_true] at erased
        rw [erased]
        simp
    · rw [if_neg same, List.contains_cons, ih distinct]
      by_cases head : (entry == y) = true
      · have kept : (entry == x) = false := by
          rw [BEq.congr_left head]
          exact Bool.not_eq_true _ ▸ same
        rw [head, kept]
        rfl
      · rw [Bool.not_eq_true] at head
        rw [head]
        rfl

/-- Lists without repetitions that hold the same entries are permutations of each other. -/
theorem isPerm_of_contains {xs ys : List α} (hx : xs.Pairwise fun a b => (b == a) = false)
    (hy : ys.Pairwise fun a b => (b == a) = false)
    (same : ∀ entry, xs.contains entry = ys.contains entry) : xs.isPerm ys = true := by
  induction xs generalizing ys with
  | nil =>
    cases ys with
    | nil => rfl
    | cons y ys =>
      have absent := same y
      rw [List.contains_cons, BEq.rfl] at absent
      exact nomatch absent
  | cons x xs ih =>
    obtain ⟨apart, distinct⟩ := List.pairwise_cons.mp hx
    have present : ys.contains x = true := by rw [← same x, List.contains_cons, BEq.rfl, Bool.true_or]
    rw [List.isPerm, present, Bool.true_and]
    refine ih distinct (hy.sublist List.erase_sublist) fun entry => ?_
    have head : (x :: xs).erase x = xs := by rw [List.erase_cons, if_pos BEq.rfl]
    rw [contains_erase hy, ← same, ← contains_erase hx, head]

/-- Entries that are the same belong to the same path. -/
def Placing (pathOf : α → Path) : Prop :=
  ∀ x y, (x == y) = true → Ascending.sameKey (pathOf x) (pathOf y) = true

section Comparison

variable {pathOf : α → Path} {u v : Path × List α} {a b : Filed α}

omit [EquivBEq α] in
/-- An entry of the first path belongs to it. -/
theorem WellFormed.sameKey_of_contains
    (respects : Placing pathOf)
    (whole : WellFormed pathOf (u :: a)) {entry : α} (h : u.2.contains entry = true) :
    Ascending.sameKey (pathOf entry) u.1 = true := by
  obtain ⟨other, member, same⟩ := List.contains_iff_exists_mem_beq.mp h
  rw [Ascending.sameKey_congr (respects _ _ same)]
  exact (whole.kept u List.mem_cons_self).placed other member

omit [EquivBEq α] in
theorem WellFormed.tail (whole : WellFormed pathOf (u :: a)) : WellFormed pathOf a :=
  whole.sublist (List.sublist_cons_self u a)

omit [EquivBEq α] in
/-- An entry of a later path belongs to a higher one. -/
theorem WellFormed.lt_of_lists
    (respects : Placing pathOf)
    (whole : WellFormed pathOf (u :: a)) {entry : α} (h : a.lists entry = true) :
    compare u.1 (pathOf entry) = .lt := by
  obtain ⟨under, member, present⟩ := List.any_eq_true.mp h
  obtain ⟨other, among, same⟩ := List.contains_iff_exists_mem_beq.mp present
  have placed := (whole.tail.kept under member).placed other among
  rw [← Ascending.sameKey_congr (respects _ _ same)] at placed
  rw [Std.TransCmp.congr_right (Ascending.sameKey_iff.mp placed)]
  exact whole.ascending.head_lt member

/-- A filing that lists the entries of another begins no higher. -/
theorem WellFormed.not_lt_of_lists
    (respects : Placing pathOf)
    (hu : WellFormed pathOf (u :: a)) (hv : WellFormed pathOf (v :: b))
    (sub : ∀ entry, lists (u :: a) entry = true → lists (v :: b) entry = true) :
    compare u.1 v.1 ≠ .lt := by
  intro lower
  obtain ⟨entry, member⟩ := List.exists_mem_of_ne_nil _ (hu.kept u List.mem_cons_self).occupied
  have own : u.2.contains entry = true :=
    List.contains_iff_exists_mem_beq.mpr ⟨entry, member, BEq.rfl⟩
  have placed := Ascending.sameKey_iff.mp (hu.sameKey_of_contains respects own)
  rw [← Std.TransCmp.congr_left placed] at lower
  have listed := sub entry (by rw [lists_cons, own, Bool.true_or])
  rw [lists_cons, Bool.or_eq_true] at listed
  rcases listed with here | later
  · rw [Ascending.sameKey_iff.mp (hv.sameKey_of_contains respects here)] at lower
    exact nomatch lower
  · rw [Std.OrientedCmp.gt_of_lt (hv.lt_of_lists respects later)] at lower
    exact nomatch lower

omit [EquivBEq α] in
/-- Filings that begin at the same path are compared path by path. -/
theorem WellFormed.lists_heads
    (respects : Placing pathOf)
    (hu : WellFormed pathOf (u :: a)) (hv : WellFormed pathOf (v :: b))
    (first : compare u.1 v.1 = .eq)
    (sub : ∀ entry, lists (u :: a) entry = true → lists (v :: b) entry = true) :
    (∀ entry, u.2.contains entry = true → v.2.contains entry = true) ∧
      ∀ entry, a.lists entry = true → b.lists entry = true := by
  constructor
  · intro entry here
    have placed := Ascending.sameKey_iff.mp (hu.sameKey_of_contains respects here)
    have listed := sub entry (by rw [lists_cons, here, Bool.true_or])
    rw [lists_cons, Bool.or_eq_true] at listed
    refine listed.resolve_right fun later => ?_
    have higher := hv.lt_of_lists respects later
    rw [Std.TransCmp.congr_right placed, Std.OrientedCmp.eq_symm first] at higher
    exact nomatch higher
  · intro entry later
    have higher := hu.lt_of_lists respects later
    have listed := sub entry (by rw [lists_cons, later, Bool.or_true])
    rw [lists_cons, Bool.or_eq_true] at listed
    refine listed.resolve_left fun here => ?_
    have placed := Ascending.sameKey_iff.mp (hv.sameKey_of_contains respects here)
    rw [Std.TransCmp.congr_right placed, first] at higher
    exact nomatch higher

/-- Entries under one path, in any order and numbers held in any way. -/
def PermutedUnder (under other : Path × List α) : Prop :=
  (under.1 == other.1) = true ∧ under.2.isPerm other.2 = true

/-- Well-formed filings that list the same entries differ only in the order under each path. -/
theorem WellFormed.forall₂_of_lists
    (respects : Placing pathOf)
    (ha : WellFormed pathOf a) (hb : WellFormed pathOf b)
    (sub : ∀ entry, a.lists entry = true → b.lists entry = true)
    (sup : ∀ entry, b.lists entry = true → a.lists entry = true) :
    List.Forall₂ PermutedUnder a b := by
  have empty {u : Path × List α} {a : Filed α} (whole : WellFormed pathOf (u :: a))
      (none : ∀ entry, lists (u :: a) entry = true → lists [] entry = true) : False := by
    obtain ⟨entry, member⟩ :=
      List.exists_mem_of_ne_nil _ (whole.kept u List.mem_cons_self).occupied
    have own : u.2.contains entry = true :=
      List.contains_iff_exists_mem_beq.mpr ⟨entry, member, BEq.rfl⟩
    exact nomatch none entry (by rw [lists_cons, own, Bool.true_or])
  induction a generalizing b with
  | nil =>
    cases b with
    | nil => exact .nil
    | cons v b => exact (empty hb sup).elim
  | cons u a ih =>
    cases b with
    | nil => exact (empty ha sub).elim
    | cons v b =>
      have first : compare u.1 v.1 = .eq := by
        cases order : compare u.1 v.1 with
        | lt => exact absurd order (ha.not_lt_of_lists respects hb sub)
        | eq => rfl
        | gt => exact absurd (Std.OrientedCmp.lt_of_gt order) (hb.not_lt_of_lists respects ha sup)
      obtain ⟨subHere, subLater⟩ := ha.lists_heads respects hb first sub
      obtain ⟨supHere, supLater⟩ :=
        hb.lists_heads respects ha (Std.OrientedCmp.eq_symm first) sup
      refine .cons ⟨Std.LawfulBEqCmp.compare_eq_iff_beq.mp first, ?_⟩
        (ih ha.tail hb.tail subLater supLater)
      exact isPerm_of_contains (ha.kept u List.mem_cons_self).distinct
        (hb.kept v List.mem_cons_self).distinct fun entry =>
          Bool.eq_iff_iff.mpr ⟨subHere entry, supHere entry⟩

end Comparison

end Filed

namespace Residual

/-! ## Reporting no more -/

/-- Whether all that a residual reports is reported by another one, too. A conflict outweighs
everything that is open, and of conflicts the lower one is reported. -/
def Below : Residual → Residual → Prop
  | .satisfied, _ => True
  | .pending a, .pending b => ∀ c, a.lists c = true → b.lists c = true
  | .pending _, .conflict _ => True
  | .conflict v, .conflict w => (compare w.first? v.first?).isLE = true
  | _, _ => False

theorem Below.refl (r : Residual) : r.Below r := by
  cases r with
  | satisfied => trivial
  | pending a => exact fun _ listed => listed
  | conflict v => exact Std.ReflOrd.isLE_rfl

theorem lowerOf_above_iff (v w others : Filed Violation) :
    (compare others.first? (lowerOf v w).first?).isLE = true ↔
      (compare others.first? v.first?).isLE = true ∧
        (compare others.first? w.first?).isLE = true := by
  rw [lowerOf_eq]
  split
  · next lower =>
    have below : (compare w.first? v.first?).isLE = true := by rw [lower]; rfl
    exact ⟨fun h => ⟨Std.TransCmp.isLE_trans h below, h⟩, And.right⟩
  · next higher =>
    have below : (compare v.first? w.first?).isLE = true :=
      Std.OrientedCmp.isLE_of_isGE (Ordering.isGE_iff_ne_lt.mpr higher)
    exact ⟨fun h => ⟨h, Std.TransCmp.isLE_trans h below⟩, And.left⟩

/-- A further part of a conjunction adds what it reports and nothing else. -/
theorem also_below_iff (r s t : Residual) : (r.also s).Below t ↔ r.Below t ∧ s.Below t := by
  cases r with
  | satisfied => simp [Below]
  | pending a =>
    cases s with
    | satisfied => simp [Below]
    | pending b => cases t <;> simp [also, Below, Filed.lists_merge, or_imp, forall_and]
    | conflict w => cases t <;> simp [also, Below]
  | conflict v =>
    cases s with
    | satisfied => simp [Below]
    | pending b => cases t <;> simp [also, Below]
    | conflict w => cases t <;> simp [also, Below, lowerOf_above_iff]

theorem foldl_also_below_iff {rs : List Residual} {r t : Residual} :
    (rs.foldl also r).Below t ↔ r.Below t ∧ ∀ s ∈ rs, s.Below t := by
  induction rs generalizing r with
  | nil => simp
  | cons s rs ih => rw [List.foldl_cons, ih, also_below_iff, List.forall_mem_cons, and_assoc]

/-- A conjunction reports what its parts report and nothing else. -/
theorem conjoin_below_iff {rs : List Residual} {t : Residual} :
    (conjoin rs).Below t ↔ ∀ r ∈ rs, r.Below t :=
  foldl_also_below_iff.trans (and_iff_right trivial)

/-! ## Residuals that correspond -/

/-- Residuals of one kind that list the same open constraints under the same paths, in any order
under each, or conflicts that begin at the same path. -/
inductive Corresponds : Residual → Residual → Prop where
  | satisfied : Corresponds .satisfied .satisfied
  | pending {a b : Filed Constraint} (constraints : List.Forall₂ Filed.PermutedUnder a b) :
      Corresponds (.pending a) (.pending b)
  | conflict {v w : Filed Violation}
      (lowest : Option.Rel (fun p q => (p == q) = true) v.first? w.first?) :
      Corresponds (.conflict v) (.conflict w)

theorem placing_path : Filed.Placing Constraint.path := by
  intro c d h
  change Constraint.same c d = true at h
  simp only [Constraint.same, Bool.and_eq_true] at h
  exact h.1.1.1

theorem rel_of_compare_eq {p q : Option Path} (h : compare p q = .eq) :
    Option.Rel (fun p q => (p == q) = true) p q := by
  cases p with
  | none =>
    cases q with
    | none => exact .none
    | some q => exact nomatch h
  | some p =>
    cases q with
    | none => exact nomatch h
    | some q =>
      have same : compare p q = .eq := h
      exact .some (Std.LawfulBEqCmp.compare_eq_iff_beq.mp same)

theorem corresponds_of_below {r s : Residual} (hr : r.WellFormed) (hs : s.WellFormed)
    (below : r.Below s) (above : s.Below r) : r.Corresponds s := by
  cases hr with
  | satisfied => cases hs <;> first | exact .satisfied | exact above.elim
  | pending filed =>
    cases hs with
    | satisfied => exact below.elim
    | pending filed' =>
      exact .pending (filed.forall₂_of_lists placing_path filed' below above)
    | conflict filed' => exact above.elim
  | conflict filed =>
    cases hs with
    | satisfied => exact below.elim
    | pending filed' => exact below.elim
    | conflict filed' =>
      exact .conflict (rel_of_compare_eq (Std.OrientedCmp.isLE_antisymm above below))

end Residual

end ResidualPolicy
