import ResidualPolicy.Proofs.Ascending
import ResidualPolicy.Proofs.Value.Order

/-!
# Growing documents

A value grows when keys are added to the objects in it: to the object that it is, or to objects that
are reached through the fields of objects and the items of arrays. Nothing is taken away, arrays
keep their lengths, and sets and scalars stay as they are.

A path that leads to a value leads, in a grown document, to what that value has grown to.
-/

namespace ResidualPolicy.Value

/-! ## Growth -/

/-- `v.GrowsTo w` when `w` results from `v` by adding keys to objects in it. -/
inductive GrowsTo : Value → Value → Prop where
  | same (v : Value) : GrowsTo v v
  | array {xs ys : List Value} (length : xs.length = ys.length)
      (items : ∀ (i : Nat) x y, xs[i]? = some x → ys[i]? = some y → GrowsTo x y) :
      GrowsTo (.array xs) (.array ys)
  | object {xs ys : List (Value × Value)}
      (keys : ∀ key, Ascending.hasKey key xs = true → Ascending.hasKey key ys = true)
      (fields : ∀ key x y, Ascending.get? key xs = some x → Ascending.get? key ys = some y →
        GrowsTo x y) :
      GrowsTo (.object xs) (.object ys)

/-- Storing a value under a key that is not there yet is growth, and so is replacing what stands
under a key by something that it grows to. -/
theorem growsTo_put {entries : List (Value × Value)} {key value : Value}
    (grown : ∀ old, Ascending.get? key entries = some old → old.GrowsTo value) :
    (Value.object entries).GrowsTo (.object (Ascending.put key value entries)) := by
  refine .object (fun k h => ?_) fun k x y hx hy => ?_
  · rw [Ascending.hasKey_put, h, Bool.or_true]
  · rw [Ascending.get?_put] at hy
    split at hy
    · next same =>
      rw [Ascending.get?_congr same] at hx
      exact Option.some.inj hy ▸ grown x hx
    · rw [hx] at hy
      exact Option.some.inj hy ▸ .same x

/-- An array grows with any of its items. -/
theorem growsTo_set {items : List Value} {i : Nat} {value : Value}
    (grown : ∀ old, items[i]? = some old → old.GrowsTo value) :
    (Value.array items).GrowsTo (.array (items.set i value)) := by
  refine .array List.length_set.symm fun j x y hx hy => ?_
  by_cases same : i = j
  · subst same
    have inside : i < items.length := (List.getElem?_eq_some_iff.mp hx).1
    rw [List.getElem?_set_self inside] at hy
    exact Option.some.inj hy ▸ grown x hx
  · rw [List.getElem?_set_ne same, hx] at hy
    exact Option.some.inj hy ▸ .same x

/-! ## Look-ups -/

theorem GrowsTo.get? {v w key x : Value} (grown : v.GrowsTo w) (found : v.get? key = some x) :
    ∃ y, w.get? key = some y ∧ x.GrowsTo y := by
  cases grown with
  | same => exact ⟨x, found, .same x⟩
  | @array xs ys length items =>
    cases key with
    | number n =>
      obtain ⟨index, known, there⟩ := Option.bind_eq_some_iff.mp found
      have inside : index < ys.length := by
        rw [← length]
        exact (List.getElem?_eq_some_iff.mp there).1
      have there' : ys[index]? = some ys[index] := List.getElem?_eq_getElem inside
      refine ⟨ys[index], ?_, items index x ys[index] there there'⟩
      show (n.toNat?.bind fun index => ys[index]?) = some ys[index]
      rw [known]
      exact there'
    | _ => exact nomatch found
  | @object xs ys keys fields =>
    obtain ⟨y, there⟩ := Option.isSome_iff_exists.mp (keys key (Option.isSome_of_eq_some found))
    exact ⟨y, there, fields key x y found there⟩

/-- What a path leads to is still there when the document has grown, and has grown itself. -/
theorem GrowsTo.lookup? {v w x : Value} {path : List Value} (grown : v.GrowsTo w)
    (found : v.lookup? path = some x) : ∃ y, w.lookup? path = some y ∧ x.GrowsTo y := by
  induction path generalizing v w with
  | nil =>
    rw [← Option.some.inj found]
    exact ⟨w, rfl, grown⟩
  | cons key rest ih =>
    obtain ⟨next, here, later⟩ := Option.bind_eq_some_iff.mp found
    obtain ⟨next', here', grown'⟩ := grown.get? here
    obtain ⟨y, later', grownY⟩ := ih grown' later
    refine ⟨y, ?_, grownY⟩
    rw [Value.lookup?, here']
    exact later'

/-! ## Elements of collections -/

/-- Elements with the same key, of which one is grown. -/
def GrownElement (a b : Value × Value) : Prop :=
  a.1 = b.1 ∧ a.2.GrowsTo b.2

theorem forall₂_grownElement_self (elements : List (Value × Value)) :
    List.Forall₂ GrownElement elements elements :=
  List.forall₂_same.mpr fun _ _ => ⟨rfl, .same _⟩

/-- What is no collection does not become one by growing. -/
theorem GrowsTo.elements?_eq_none {v w : Value} (grown : v.GrowsTo w) (none : v.elements? = none) :
    w.elements? = Option.none := by
  cases grown with
  | same => exact none
  | array length items => exact nomatch none
  | object keys fields => rfl

/-- A grown collection has the same number of elements, with the same keys, each of them grown. -/
theorem GrowsTo.elements? {v w : Value} (grown : v.GrowsTo w) {elements : List (Value × Value)}
    (found : v.elements? = some elements) :
    ∃ elements', w.elements? = some elements' ∧ List.Forall₂ GrownElement elements elements' := by
  cases grown with
  | same => exact ⟨elements, found, forall₂_grownElement_self elements⟩
  | @array xs ys length items =>
    refine ⟨_, rfl, ?_⟩
    rw [← Option.some.inj found, List.forall₂_iff_get]
    refine ⟨by simp [length], fun i hx hy => ?_⟩
    have insideX : i < xs.length := by simpa using hx
    have insideY : i < ys.length := by simpa using hy
    simp only [List.get_eq_getElem, List.getElem_map, List.getElem_zipIdx]
    exact ⟨rfl, items i _ _ (List.getElem?_eq_getElem insideX) (List.getElem?_eq_getElem insideY)⟩
  | object keys fields => exact nomatch found

end ResidualPolicy.Value
