import ResidualPolicy.Proofs.Value.Navigation

/-!
# Parts of values

The parts of a value are the value itself and all values in it at any depth, keys of objects
included. What holds of all parts is stated over that list: that sets and objects are ascending
(`Value.IsOrdered`), that arrays are short enough for every index to be a number
(`Value.HasShortArrays`), or at least an integer (`Value.HasIndexableArrays`), and which numbers occur
(`Value.numbers`).
-/

namespace ResidualPolicy.Value

mutual

/-- A value and all values in it. -/
def parts : Value → List Value
  | .array items => .array items :: partsOf items
  | .set members => .set members :: partsOf members
  | .object entries => .object entries :: partsOfEntries entries
  | v => [v]

/-- The parts of several values. -/
def partsOf : List Value → List Value
  | [] => []
  | v :: rest => parts v ++ partsOf rest

/-- The parts of the keys and the fields of an object. -/
def partsOfEntries : List (Value × Value) → List Value
  | [] => []
  | (key, field) :: rest => parts key ++ parts field ++ partsOfEntries rest

end

theorem forall_partsOf {P : Value → Prop} {items : List Value} :
    (∀ part ∈ partsOf items, P part) ↔ ∀ v ∈ items, ∀ part ∈ v.parts, P part := by
  induction items with
  | nil => exact ⟨fun _ => nofun, fun _ => nofun⟩
  | cons v rest ih => rw [partsOf, List.forall_mem_append, List.forall_mem_cons, ih]

theorem forall_partsOfEntries {P : Value → Prop} {entries : List (Value × Value)} :
    (∀ part ∈ partsOfEntries entries, P part) ↔ ∀ entry ∈ entries,
      (∀ part ∈ entry.1.parts, P part) ∧ ∀ part ∈ entry.2.parts, P part := by
  induction entries with
  | nil => exact ⟨fun _ => nofun, fun _ => nofun⟩
  | cons entry rest ih =>
    rw [partsOfEntries, List.forall_mem_append, List.forall_mem_append, List.forall_mem_cons, ih]

theorem forall_parts_array {P : Value → Prop} {items : List Value} :
    (∀ part ∈ (array items).parts, P part) ↔
      P (.array items) ∧ ∀ v ∈ items, ∀ part ∈ v.parts, P part := by
  rw [parts, List.forall_mem_cons, forall_partsOf]

theorem forall_parts_set {P : Value → Prop} {members : List Value} :
    (∀ part ∈ (set members).parts, P part) ↔
      P (.set members) ∧ ∀ v ∈ members, ∀ part ∈ v.parts, P part := by
  rw [parts, List.forall_mem_cons, forall_partsOf]

theorem forall_parts_object {P : Value → Prop} {entries : List (Value × Value)} :
    (∀ part ∈ (object entries).parts, P part) ↔ P (.object entries) ∧ ∀ entry ∈ entries,
      (∀ part ∈ entry.1.parts, P part) ∧ ∀ part ∈ entry.2.parts, P part := by
  rw [parts, List.forall_mem_cons, forall_partsOfEntries]

theorem self_mem_parts (v : Value) : v ∈ v.parts := by
  cases v <;> exact List.mem_cons_self

theorem mem_parts_array {part v : Value} {items : List Value} (member : v ∈ items)
    (among : part ∈ v.parts) : part ∈ (array items).parts :=
  (forall_parts_array (P := (· ∈ (array items).parts)).mp fun _ => id).2 v member part among

section Reached

variable {P : Value → Prop} {v : Value}

/-- What holds of all parts of a value holds of all parts of what a key leads to. -/
theorem forall_parts_get? {key w : Value} (each : ∀ part ∈ v.parts, P part)
    (h : v.get? key = some w) : ∀ part ∈ w.parts, P part := by
  cases v with
  | array items =>
    cases key with
    | number n =>
      obtain ⟨index, -, there⟩ := Option.bind_eq_some_iff.mp h
      exact (forall_parts_array.mp each).2 w (List.mem_of_getElem? there)
    | _ => exact nomatch h
  | set members => exact (forall_parts_set.mp each).2 w (List.mem_of_find?_eq_some h)
  | object entries =>
    obtain ⟨k, member⟩ := Ascending.mem_of_get? h
    exact ((forall_parts_object.mp each).2 _ member).2
  | _ => cases key <;> exact nomatch h

theorem forall_parts_lookup? {w : Value} {path : List Value} (each : ∀ part ∈ v.parts, P part)
    (h : v.lookup? path = some w) : ∀ part ∈ w.parts, P part := by
  induction path generalizing v with
  | nil => exact Option.some.inj h ▸ each
  | cons key rest ih =>
    obtain ⟨next, here, later⟩ := Option.bind_eq_some_iff.mp h
    exact ih (forall_parts_get? each here) later

theorem forall_parts_elements? {elements : List (Value × Value)}
    (each : ∀ part ∈ v.parts, P part) (h : v.elements? = some elements) :
    ∀ element ∈ elements, ∀ part ∈ element.2.parts, P part := by
  cases v with
  | array items =>
    rw [← Option.some.inj h]
    refine List.forall_mem_map.mpr fun (item, index) member => ?_
    exact (forall_parts_array.mp each).2 item (List.fst_mem_of_mem_zipIdx member)
  | set members =>
    rw [← Option.some.inj h]
    exact List.forall_mem_map.mpr (forall_parts_set.mp each).2
  | _ => exact nomatch h

end Reached

/-! ## Order -/

/-- The members of a set and the keys of an object are ascending. -/
def Ascends : Value → Prop
  | .set members => Ascending.IsAscending members
  | .object entries => Ascending.IsAscending (Ascending.keys entries)
  | _ => True

instance : DecidablePred Ascends
  | .set members => inferInstanceAs (Decidable (members.Pairwise _))
  | .object entries => inferInstanceAs (Decidable ((Ascending.keys entries).Pairwise _))
  | .null | .bool _ | .number _ | .string _ | .array _ => .isTrue trivial

/-- Every set and every object in a value is ascending, as sets and objects are kept. -/
def IsOrdered (v : Value) : Prop :=
  ∀ part ∈ v.parts, part.Ascends

instance (v : Value) : Decidable v.IsOrdered :=
  inferInstanceAs (Decidable (∀ part ∈ v.parts, part.Ascends))

theorem isOrdered_array {items : List Value} :
    (array items).IsOrdered ↔ ∀ v ∈ items, v.IsOrdered :=
  forall_parts_array.trans (and_iff_right trivial)

theorem isOrdered_set {members : List Value} :
    (set members).IsOrdered ↔ Ascending.IsAscending members ∧ ∀ v ∈ members, v.IsOrdered :=
  forall_parts_set

theorem isOrdered_object {entries : List (Value × Value)} :
    (object entries).IsOrdered ↔ Ascending.IsAscending (Ascending.keys entries) ∧
      ∀ entry ∈ entries, entry.1.IsOrdered ∧ entry.2.IsOrdered :=
  forall_parts_object

/-! ## Lengths of arrays -/

/-- An array is short enough for every index to be a number. -/
def IsShort : Value → Prop
  | .array items => items.length < Nat.pow 2 53
  | _ => True

instance : DecidablePred IsShort
  | .array items => inferInstanceAs (Decidable (items.length < Nat.pow 2 53))
  | .null | .bool _ | .number _ | .string _ | .set _ | .object _ => .isTrue trivial

/-- Every array in a value is short. -/
def HasShortArrays (v : Value) : Prop :=
  ∀ part ∈ v.parts, part.IsShort

instance (v : Value) : Decidable v.HasShortArrays :=
  inferInstanceAs (Decidable (∀ part ∈ v.parts, part.IsShort))

theorem HasShortArrays.arraysFit {v : Value} (short : v.HasShortArrays) : v.ArraysFit :=
  fun _ _ found => (forall_parts_array.mp (forall_parts_lookup? short found)).1

/-- Every index of an array is an integer of 64 bits. -/
def IsIndexable : Value → Prop
  | .array items => items.length ≤ Nat.pow 2 63
  | _ => True

instance : DecidablePred IsIndexable
  | .array items => inferInstanceAs (Decidable (items.length ≤ Nat.pow 2 63))
  | .null | .bool _ | .number _ | .string _ | .set _ | .object _ => .isTrue trivial

/-- Every array in a value is indexable, as all arrays are that fit into a memory. -/
def HasIndexableArrays (v : Value) : Prop :=
  ∀ part ∈ v.parts, part.IsIndexable

instance (v : Value) : Decidable v.HasIndexableArrays :=
  inferInstanceAs (Decidable (∀ part ∈ v.parts, part.IsIndexable))

/-! ## Numbers -/

/-- The number that a value is. -/
def number? : Value → Option Number
  | .number n => some n
  | _ => none

/-- The numbers in a value. -/
def numbers (v : Value) : List Number :=
  v.parts.filterMap number?

theorem forall_numbers {P : Number → Prop} {v : Value} :
    (∀ n ∈ v.numbers, P n) ↔ ∀ part ∈ v.parts, ∀ n ∈ part.number?, P n := by
  simp only [numbers, List.mem_filterMap, forall_exists_index, and_imp, Option.mem_def]
  exact ⟨fun h part among n found => h n part among found,
    fun h n part among found => h part among n found⟩

theorem forall_numbers_array {P : Number → Prop} {items : List Value} :
    (∀ n ∈ (array items).numbers, P n) ↔ ∀ v ∈ items, ∀ n ∈ v.numbers, P n := by
  simp only [forall_numbers]
  exact forall_parts_array.trans (and_iff_right nofun)

theorem forall_numbers_set {P : Number → Prop} {members : List Value} :
    (∀ n ∈ (set members).numbers, P n) ↔ ∀ v ∈ members, ∀ n ∈ v.numbers, P n := by
  simp only [forall_numbers]
  exact forall_parts_set.trans (and_iff_right nofun)

theorem forall_numbers_object {P : Number → Prop} {entries : List (Value × Value)} :
    (∀ n ∈ (object entries).numbers, P n) ↔ ∀ entry ∈ entries,
      (∀ n ∈ entry.1.numbers, P n) ∧ ∀ n ∈ entry.2.numbers, P n := by
  simp only [forall_numbers]
  exact forall_parts_object.trans (and_iff_right nofun)

/-- All numbers in a value are held as integers. -/
def HoldsIntegers (v : Value) : Prop :=
  ∀ n ∈ v.numbers, ∃ word, n = .int word

end ResidualPolicy.Value
