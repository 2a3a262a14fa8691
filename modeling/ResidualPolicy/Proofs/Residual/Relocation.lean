import ResidualPolicy.Proofs.Residual.Congruence

/-!
# Residuals of a document inside another one

A document may stand at a place of another one. What is reported about it is then filed under paths that
begin with that place, and nothing else about a report changes (`Residual.under`).

The order of paths and the sameness of entries do not look at what all paths begin with. So all ways of
combining residuals commute with relocating them (`Filed.congruence_relocate`): merging, finding the
conflict that begins lowest, and finding the alternative with the fewest open constraints.
-/

namespace ResidualPolicy

/-! ## Paths that begin alike -/

theorem Value.compareItems_append (xs ys zs : List Value) :
    compareItems (xs ++ ys) (xs ++ zs) = compareItems ys zs := by
  induction xs with
  | nil => rfl
  | cons x xs ih =>
    have self : Value.compare x x = .eq := (Std.ReflOrd.compare_self : Ord.compare x x = .eq)
    rw [List.cons_append, List.cons_append, compareItems, self, ih]
    rfl

theorem Path.compare_join (place p q : Path) :
    Ord.compare (place.join p) (place.join q) = Ord.compare p q :=
  Value.compareItems_append place.keys p.keys q.keys

/-! ## Entries -/

/-- The same violation in a document in which the present one is found at a place. -/
def Violation.under (v : Violation) (place : Path) : Violation :=
  { v with constraint := v.constraint.under place }

theorem Constraint.under_beq (c d : Constraint) (place : Path) :
    (c.under place == d.under place) = (c == d) := by
  have paths : (place.join c.path == place.join d.path) = (c.path == d.path) :=
    congrArg (· == .eq) (Path.compare_join place c.path d.path)
  show Constraint.same _ _ = Constraint.same c d
  unfold Constraint.same Constraint.under
  rw [paths]

theorem Violation.under_beq (v w : Violation) (place : Path) :
    (v.under place == w.under place) = (v == w) :=
  congrArg (· && (v.witness == w.witness)) (Constraint.under_beq v.constraint w.constraint place)

/-! ## Filed entries -/

namespace Filed

variable {α : Type} {move : α → α} {place : Path}

/-- Filed entries, each moved, under paths that begin with a place. -/
def relocate (move : α → α) (place : Path) (filed : Filed α) : Filed α :=
  filed.map fun under => (place.join under.1, under.2.map move)

theorem first?_relocate (filed : Filed α) :
    (filed.relocate move place).first? = filed.first?.map place.join := by
  cases filed <;> rfl

theorem compare_first?_relocate (a b : Filed α) :
    compare (a.relocate move place).first? (b.relocate move place).first? =
      compare a.first? b.first? := by
  rw [first?_relocate, first?_relocate]
  cases a.first? with
  | none => cases b.first? <;> rfl
  | some p =>
    cases b.first? with
    | none => rfl
    | some q => exact Path.compare_join place p q

theorem relocate_eq_nil_iff {filed : Filed α} : filed.relocate move place = [] ↔ filed = [] :=
  List.map_eq_nil_iff

theorem count_relocate (filed : Filed α) : (filed.relocate move place).count = filed.count := by
  simp [count, toList, relocate, List.flatMap_map, List.length_flatMap]

variable [BEq α] (faithful : ∀ x y, (move x == move y) = (x == y))

include faithful

theorem contains_map (entries : List α) (entry : α) :
    (entries.map move).contains (move entry) = entries.contains entry := by
  induction entries with
  | nil => rfl
  | cons head rest ih => rw [List.map_cons, List.contains_cons, List.contains_cons, faithful, ih]

theorem appendNew_map (entries more : List α) :
    appendNew (entries.map move) (more.map move) = (appendNew entries more).map move := by
  induction more generalizing entries with
  | nil => rfl
  | cons head more ih =>
    rw [List.map_cons, appendNew_cons, appendNew_cons, contains_map faithful, ← ih]
    split
    · rfl
    · rw [List.map_append, List.map_singleton]

theorem file_relocate (path : Path) (more : List α) (filed : Filed α) :
    file (place.join path) (more.map move) (filed.relocate move place) =
      (file path more filed).relocate move place := by
  have fresh : appendNew [] (more.map move) = (appendNew [] more).map move :=
    appendNew_map faithful [] more
  induction filed with
  | nil => exact congrArg (fun entries => [(place.join path, entries)]) fresh
  | cons head rest ih =>
    obtain ⟨q, entries⟩ := head
    show file _ _ ((place.join q, entries.map move) :: relocate move place rest) = _
    rw [file_cons, file_cons, Path.compare_join]
    cases compare path q with
    | lt => simp only [relocate, List.map_cons, fresh]
    | eq => simp only [relocate, List.map_cons, appendNew_map faithful]
    | gt => exact congrArg ((place.join q, entries.map move) :: ·) ih

theorem merge_relocate (filed more : Filed α) :
    (filed.relocate move place).merge (more.relocate move place) =
      (filed.merge more).relocate move place := by
  induction more generalizing filed with
  | nil => rfl
  | cons under more ih =>
    show merge (file (place.join under.1) (under.2.map move) (filed.relocate move place))
      (relocate move place more) = _
    rw [file_relocate faithful, ih, merge_cons]

end Filed

/-! ## Residuals -/

namespace Residual

/-- The same residual in a document in which the present one is found at a place. -/
def under (place : Path) : Residual → Residual
  | .satisfied => .satisfied
  | .pending constraints => .pending (constraints.relocate (·.under place) place)
  | .conflict violations => .conflict (violations.relocate (·.under place) place)

theorem waitFor_under (c : Constraint) (place : Path) :
    waitFor (c.under place) = (waitFor c).under place := rfl

theorem violated_under (c : Constraint) (witness : Value) (place : Path) :
    violated (c.under place) witness = (violated c witness).under place := rfl

/-- One residual is another one in a larger document. -/
abbrev Relocates (place : Path) : Residual → Residual → Prop :=
  Related (fun a b => b = a.relocate (·.under place) place)
    fun v w => w = v.relocate (·.under place) place

theorem relocates_iff {place : Path} {r s : Residual} : r.Relocates place s ↔ s = r.under place := by
  constructor
  · intro h
    cases h with
    | satisfied => rfl
    | pending same => exact congrArg pending same
    | conflict same => exact congrArg conflict same
  · rintro rfl
    cases r with
    | satisfied => exact .satisfied
    | pending constraints => exact .pending rfl
    | conflict violations => exact .conflict rfl

end Residual

/-- All ways of combining residuals commute with relocating them. -/
theorem Filed.congruence_relocate (place : Path) :
    Congruence (fun a b => b = a.relocate (·.under place) place)
      fun v w => w = v.relocate (·.under place) place where
  waiting_nil := rfl
  waiting_merge {a _ b _} ha hb := by
    rw [ha, hb]
    exact merge_relocate (Constraint.under_beq · · place) a b
  waiting_fewer {a _ b _} ha hb := by
    rw [ha, hb, count_relocate, count_relocate]
    split <;> rfl
  waiting_empty h := h ▸ relocate_eq_nil_iff.symm
  failing_nil := rfl
  failing_merge {v _ w _} hv hw := by
    rw [hv, hw]
    exact merge_relocate (Violation.under_beq · · place) v w
  failing_first {v _ w _} hv hw := by
    rw [hv, hw, compare_first?_relocate]
  failing_empty h := h ▸ relocate_eq_nil_iff.symm

end ResidualPolicy
