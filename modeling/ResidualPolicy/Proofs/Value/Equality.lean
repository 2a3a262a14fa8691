import ResidualPolicy.Proofs.Policy.Sameness
import ResidualPolicy.Proofs.Value.Parts

/-!
# Equal values are navigated alike

Equality of values does not tell an integer from a double of the same value, at any depth. Nor does
navigation: under a key that leads somewhere in one of two equal values, something equal stands in
the other (`get?_of_equal`), and equal collections have equal elements with equal keys
(`elements?_of_equal`).
-/

namespace ResidualPolicy

universe u v

theorem getElem?_of_forall₂ {α : Type u} {β : Type v} {related : α → β → Prop} {xs : List α}
    {ys : List β} (h : List.Forall₂ related xs ys) (index : Nat) :
    Option.Rel related xs[index]? ys[index]? := by
  induction h generalizing index with
  | nil => exact .none
  | cons first _ ih =>
    cases index with
    | zero => exact .some first
    | succ index => exact ih index

theorem forall₂_zipIdx {α : Type u} {β : Type v} {related : α → β → Prop} {xs : List α}
    {ys : List β} (h : List.Forall₂ related xs ys) (start : Nat) :
    List.Forall₂ (fun a b => a.2 = b.2 ∧ related a.1 b.1) (xs.zipIdx start) (ys.zipIdx start) := by
  induction h generalizing start with
  | nil => exact .nil
  | cons first _ ih => exact .cons ⟨rfl, first⟩ (ih (start + 1))

namespace Value

variable {v w : Value}

/-- Under a key of equal values stands the same, or nothing. -/
theorem get?_of_equal (h : (v == w) = true) (key : Value) :
    Option.Rel (fun x y => (x == y) = true) (v.get? key) (w.get? key) := by
  have kind := kind_eq_of_beq h
  have same : v.compare w = .eq := beq_iff.mp h
  simp only [beq_iff]
  cases v with
  | object xs =>
    cases w <;> cases kind
    exact Ascending.get?_of_forall₂ (compareEntries_eq_eq_iff.mp same) key
  | set xs =>
    cases w <;> cases kind
    exact Ascending.member?_of_forall₂ (compareItems_eq_eq_iff.mp same) key
  | array xs =>
    cases w <;> cases kind
    next ys =>
    cases key with
    | number n =>
      show Option.Rel _ (n.toNat?.bind fun index => xs[index]?)
        (n.toNat?.bind fun index => ys[index]?)
      cases n.toNat? with
      | none => exact .none
      | some index => exact getElem?_of_forall₂ (compareItems_eq_eq_iff.mp same) index
    | _ => exact .none
  | _ =>
    cases w <;> cases kind
    cases key <;> exact .none

/-- What a path leads to in equal values is equal. -/
theorem lookup?_of_equal (h : (v == w) = true) (path : List Value) :
    Option.Rel (fun x y => (x == y) = true) (v.lookup? path) (w.lookup? path) := by
  induction path generalizing v w with
  | nil => exact .some h
  | cons key rest ih =>
    have there := get?_of_equal h key
    rw [lookup?, lookup?]
    generalize v.get? key = next?, w.get? key = next?' at there ⊢
    cases there with
    | none => exact .none
    | some same => exact ih same

/-- Equal values have the same elements, or none has any. -/
theorem elements?_of_equal (h : (v == w) = true) :
    Option.Rel (List.Forall₂ fun a b => (a.1 == b.1) = true ∧ (a.2 == b.2) = true) v.elements?
      w.elements? := by
  have kind := kind_eq_of_beq h
  have same : v.compare w = .eq := beq_iff.mp h
  cases v with
  | array xs =>
    cases w <;> cases kind
    next ys =>
    refine .some (List.forall₂_map_left_iff.mpr (List.forall₂_map_right_iff.mpr ?_))
    refine (forall₂_zipIdx (compareItems_eq_eq_iff.mp same) 0).imp ?_
    rintro ⟨x, index⟩ ⟨y, _⟩ ⟨rfl, items⟩
    exact ⟨BEq.rfl, beq_iff.mpr items⟩
  | set xs =>
    cases w <;> cases kind
    refine .some (List.forall₂_map_left_iff.mpr (List.forall₂_map_right_iff.mpr ?_))
    exact (compareItems_eq_eq_iff.mp same).imp fun a b same => ⟨beq_iff.mpr same, beq_iff.mpr same⟩
  | _ =>
    cases w <;> cases kind
    exact .none

end Value

end ResidualPolicy
