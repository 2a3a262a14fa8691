import Mathlib.Data.List.Forall2
import ResidualPolicy.Path

/-!
# The order of values

Numbers, values and paths are totally preordered: comparing the other way round swaps the outcome,
and comparing is transitive. Equality is the equivalence that belongs to the order.

Values are compared by kind, then by contents, and contents are compared piece by piece. `Fits` says
how the three comparisons of three things go together, in a form that is kept by `Ordering.then`, so
that transitivity is proved along the structure of values without a case for each pair of outcomes.
-/

namespace ResidualPolicy

universe u

/-! ## Three comparisons -/

/-- Outcomes of comparing `a` with `b`, `b` with `c` and `a` with `c` that go together. -/
structure Fits (ab bc ac : Ordering) : Prop where
  left : ab = .eq → ac = bc
  right : bc = .eq → ac = ab
  both : ab = bc → ac = ab

theorem Fits.of_transOrd {α : Type u} [Ord α] [Std.TransOrd α] (a b c : α) :
    Fits (compare a b) (compare b c) (compare a c) where
  left h := Std.TransCmp.congr_left h
  right h := (Std.TransCmp.congr_right h).symm
  both h := by
    cases ab : compare a b with
    | lt => exact Std.TransCmp.lt_trans ab (h ▸ ab)
    | eq => exact Std.TransCmp.eq_trans ab (h ▸ ab)
    | gt => exact Std.TransCmp.gt_trans ab (h ▸ ab)

/-- The second comparisons matter only where the first ones are equal. -/
theorem Fits.then {ab bc ac ab' bc' ac' : Ordering} (first : Fits ab bc ac)
    (second : ab = .eq → bc = .eq → Fits ab' bc' ac') :
    Fits (ab.then ab') (bc.then bc') (ac.then ac') := by
  obtain ⟨left, right, both⟩ := first
  cases ab <;> cases bc <;> simp_all [Ordering.then] <;> constructor <;> simp_all

theorem Fits.isLE_trans {ab bc ac : Ordering} (fits : Fits ab bc ac) (hab : ab.isLE)
    (hbc : bc.isLE) : ac.isLE := by
  obtain ⟨left, right, both⟩ := fits
  cases ab <;> cases bc <;> simp_all

/-! ## Numbers -/

instance : Std.TransCmp Number.Place.compare :=
  inferInstanceAs (Std.TransCmp
    (compareLex (compareOn Number.Place.stretch) (compareOn Number.Place.units)))

instance : Std.TransOrd Number where
  eq_swap {a b} := by
    show a.compare b = (b.compare a).swap
    rw [Number.compare_eq_place, Number.compare_eq_place b a]
    exact Std.OrientedCmp.eq_swap
  isLE_trans {a b c} := by
    show (a.compare b).isLE → (b.compare c).isLE → (a.compare c).isLE
    simp only [Number.compare_eq_place]
    exact Std.TransCmp.isLE_trans

instance : Std.LawfulBEqOrd Number where
  compare_eq_iff_beq := beq_iff_eq.symm

/-! ## Values -/

namespace Value

/-- Kinds decide first. -/
theorem compare_eq_rank_then (a b : Value) :
    compare a b = (Ord.compare a.kind.rank b.kind.rank).then (compare a b) := by
  cases a <;> cases b <;> rfl

mutual

theorem swap_compare (a b : Value) : (compare a b).swap = compare b a := by
  cases a with
  | null => cases b <;> rfl
  | bool x =>
    cases b with
    | bool y => exact Std.OrientedOrd.eq_swap.symm
    | _ => rfl
  | number m =>
    cases b with
    | number n => exact (Std.OrientedOrd.eq_swap : Ord.compare n m = _).symm
    | _ => rfl
  | string s =>
    cases b with
    | string t => exact Std.OrientedOrd.eq_swap.symm
    | _ => rfl
  | array xs =>
    cases b with
    | array ys => exact swap_compareItems xs ys
    | _ => rfl
  | set xs =>
    cases b with
    | set ys => exact swap_compareItems xs ys
    | _ => rfl
  | object xs =>
    cases b with
    | object ys => exact swap_compareEntries xs ys
    | _ => rfl

theorem swap_compareItems (xs ys : List Value) :
    (compareItems xs ys).swap = compareItems ys xs := by
  cases xs with
  | nil => cases ys <;> rfl
  | cons x xs =>
    cases ys with
    | nil => rfl
    | cons y ys =>
      rw [compareItems, compareItems, Ordering.swap_then, swap_compare x y, swap_compareItems xs ys]

theorem swap_compareEntries (xs ys : List (Value × Value)) :
    (compareEntries xs ys).swap = compareEntries ys xs := by
  cases xs with
  | nil => cases ys <;> rfl
  | cons x xs =>
    obtain ⟨k, v⟩ := x
    cases ys with
    | nil => rfl
    | cons y ys =>
      obtain ⟨l, w⟩ := y
      rw [compareEntries, compareEntries, Ordering.swap_then, Ordering.swap_then, swap_compare k l,
        swap_compare v w, swap_compareEntries xs ys]

end

mutual

theorem fits_compare (a b c : Value) : Fits (compare a b) (compare b c) (compare a c) := by
  rw [compare_eq_rank_then a b, compare_eq_rank_then b c, compare_eq_rank_then a c]
  refine (Fits.of_transOrd a.kind.rank b.kind.rank c.kind.rank).then fun hab hbc => ?_
  -- Only values of one kind are left.
  have hb : a.kind.rank = b.kind.rank := Nat.compare_eq_eq.mp hab
  have hc : b.kind.rank = c.kind.rank := Nat.compare_eq_eq.mp hbc
  cases a with
  | null =>
    cases b <;> cases hb
    cases c <;> cases hc
    exact ⟨fun _ => rfl, fun _ => rfl, fun _ => rfl⟩
  | bool x => cases b <;> cases hb; cases c <;> cases hc; exact .of_transOrd _ _ _
  | number m => cases b <;> cases hb; cases c <;> cases hc; exact .of_transOrd (m : Number) _ _
  | string s => cases b <;> cases hb; cases c <;> cases hc; exact .of_transOrd _ _ _
  | array xs => cases b <;> cases hb; cases c <;> cases hc; exact fits_compareItems xs _ _
  | set xs => cases b <;> cases hb; cases c <;> cases hc; exact fits_compareItems xs _ _
  | object xs => cases b <;> cases hb; cases c <;> cases hc; exact fits_compareEntries xs _ _

theorem fits_compareItems (xs ys zs : List Value) :
    Fits (compareItems xs ys) (compareItems ys zs) (compareItems xs zs) := by
  cases xs with
  | nil => cases ys <;> cases zs <;> constructor <;> simp [compareItems]
  | cons x xs =>
    cases ys with
    | nil => cases zs <;> constructor <;> simp [compareItems]
    | cons y ys =>
      cases zs with
      | nil => constructor <;> simp [compareItems, eq_comm]
      | cons z zs => exact (fits_compare x y z).then fun _ _ => fits_compareItems xs ys zs

theorem fits_compareEntries (xs ys zs : List (Value × Value)) :
    Fits (compareEntries xs ys) (compareEntries ys zs) (compareEntries xs zs) := by
  cases xs with
  | nil => cases ys <;> cases zs <;> constructor <;> simp [compareEntries]
  | cons x xs =>
    obtain ⟨k, v⟩ := x
    cases ys with
    | nil => cases zs <;> constructor <;> simp [compareEntries]
    | cons y ys =>
      cases zs with
      | nil => constructor <;> simp [compareEntries, eq_comm]
      | cons z zs =>
        exact ((fits_compare k y.1 z.1).then fun _ _ => fits_compare v y.2 z.2).then fun _ _ =>
          fits_compareEntries xs ys zs

end

instance : Std.TransOrd Value where
  eq_swap := (swap_compare _ _).symm
  isLE_trans := (fits_compare _ _ _).isLE_trans

instance : Std.LawfulBEqOrd Value where
  compare_eq_iff_beq := beq_iff_eq.symm

/-- Lists of values are equal when they are as long as each other and equal item by item. -/
theorem compareItems_eq_eq_iff {xs ys : List Value} :
    compareItems xs ys = .eq ↔ List.Forall₂ (fun x y => compare x y = .eq) xs ys := by
  induction xs generalizing ys with
  | nil => cases ys <;> simp [compareItems]
  | cons x xs ih =>
    cases ys with
    | nil => simp [compareItems]
    | cons y ys => rw [compareItems, Ordering.then_eq_eq, ih, List.forall₂_cons]

/-- Lists of entries are equal when they are as long as each other and equal entry by entry. -/
theorem compareEntries_eq_eq_iff {xs ys : List (Value × Value)} :
    compareEntries xs ys = .eq ↔
      List.Forall₂ (fun x y => compare x.1 y.1 = .eq ∧ compare x.2 y.2 = .eq) xs ys := by
  induction xs generalizing ys with
  | nil => cases ys <;> simp [compareEntries]
  | cons x xs ih =>
    cases ys with
    | nil => simp [compareEntries]
    | cons y ys =>
      rw [compareEntries, Ordering.then_eq_eq, Ordering.then_eq_eq, ih, List.forall₂_cons]

/-! ## Equal values -/

theorem Kind.rank_injective {k l : Kind} (h : k.rank = l.rank) : k = l := by
  revert h
  cases k <;> cases l <;> decide

theorem kind_eq_of_beq {v w : Value} (h : (v == w) = true) : v.kind = w.kind := by
  have same : compare v w = .eq := beq_iff_eq.mp h
  rw [compare_eq_rank_then, Ordering.then_eq_eq] at same
  exact Kind.rank_injective (Nat.compare_eq_eq.mp same.1)

theorem eq_of_string_beq {s : String} {v : Value} (h : (Value.string s == v) = true) :
    v = .string s := by
  cases v with
  | string t =>
    have same : Ord.compare s t = .eq := beq_iff_eq.mp h
    rw [Std.LawfulEqOrd.compare_eq_iff_eq.mp same]
  | _ => exact nomatch kind_eq_of_beq h

end Value

/-! ## Paths -/

instance : Std.TransOrd Path where
  eq_swap := (Value.swap_compareItems _ _).symm
  isLE_trans := (Value.fits_compareItems _ _ _).isLE_trans

instance : Std.LawfulBEqOrd Path where
  compare_eq_iff_beq := beq_iff_eq.symm

end ResidualPolicy
