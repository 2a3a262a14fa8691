import ResidualPolicy.Proofs.Ascending
import ResidualPolicy.Proofs.Json.Library
import ResidualPolicy.Proofs.Value.Induction
import ResidualPolicy.Proofs.Value.Parts

/-!
# JSON text of documents is read back

A document is a value that JSON can hold as it is: no sets, names as keys, integers of 64 bits. It tells a
writer events without doubles, nested as deep as itself, and these events make the document again
(`ofEvent_event`), with or without signs on natural numbers. So whatever library stands in between, as long
as it is standard, both texts of a document are read back (`read?_text`).
-/

namespace ResidualPolicy.Json

/-! ## Documents -/

/-- A part of a document is no set, and all its keys are names. -/
def IsFormed : Value → Prop
  | .set _ => False
  | .object entries => ∀ entry ∈ entries, entry.1.kind = .string
  | _ => True

instance : DecidablePred IsFormed
  | .set _ => .isFalse id
  | .object entries => inferInstanceAs (Decidable (∀ entry ∈ entries, entry.1.kind = .string))
  | .null | .bool _ | .number _ | .string _ | .array _ => .isTrue trivial

/-- The value is one that JSON can hold as it is. -/
structure IsDocument (v : Value) : Prop where
  ordered : v.IsOrdered
  integers : v.HoldsIntegers
  formed : ∀ part ∈ v.parts, IsFormed part

theorem isDocument_array {items : List Value} (h : IsDocument (.array items)) :
    ∀ v ∈ items, IsDocument v :=
  fun v member => ⟨Value.isOrdered_array.mp h.ordered v member,
    Value.forall_numbers_array.mp h.integers v member,
    (Value.forall_parts_array.mp h.formed).2 v member⟩

theorem isDocument_object {entries : List (Value × Value)} (h : IsDocument (.object entries)) :
    ∀ entry ∈ entries, (∃ name, entry.1 = .string name) ∧ IsDocument entry.2 := by
  obtain ⟨names, parts⟩ := Value.forall_parts_object.mp h.formed
  refine fun entry member => ⟨?_, ((Value.isOrdered_object.mp h.ordered).2 entry member).2,
    (Value.forall_numbers_object.mp h.integers entry member).2, (parts entry member).2⟩
  have kind := names entry member
  cases key : entry.1 with
  | string name => exact ⟨name, rfl⟩
  | _ =>
    rw [key] at kind
    exact nomatch kind

mutual

/-- How deep arrays, sets and objects are nested in a value. -/
def depth : Value → Nat
  | .array items => depthOf items + 1
  | .set members => depthOf members + 1
  | .object entries => depthOfEntries entries + 1
  | .null | .bool _ | .number _ | .string _ => 0

/-- The depth of the deepest of some values. -/
def depthOf : List Value → Nat
  | [] => 0
  | v :: rest => max (depth v) (depthOf rest)

/-- The depth of the deepest field of an object. -/
def depthOfEntries : List (Value × Value) → Nat
  | [] => 0
  | (_, field) :: rest => max (depth field) (depthOfEntries rest)

end

/-! ## Events of documents -/

section
variable [Library]

theorem itemEvents_eq_map (items : List Value) :
    Value.itemEvents items = items.map Value.event := by
  induction items with
  | nil => rfl
  | cons v rest ih => rw [Value.itemEvents, ih, List.map_cons]

/-- Each entry of an object gives one entry to a writer, whatever its key is. -/
theorem exists_entryEvents_cons (entry : Value × Value) (rest : List (Value × Value)) :
    ∃ s, Value.entryEvents (entry :: rest) = (s, entry.2.event) :: Value.entryEvents rest := by
  obtain ⟨key, field⟩ := entry
  cases key <;> exact ⟨_, rfl⟩

theorem mem_entryEvents {entries : List (Value × Value)} {e : String × Event}
    (member : e ∈ Value.entryEvents entries) : ∃ entry ∈ entries, e.2 = entry.2.event := by
  induction entries with
  | nil => exact absurd member List.not_mem_nil
  | cons entry rest ih =>
    obtain ⟨s, events⟩ := exists_entryEvents_cons entry rest
    rw [events] at member
    rcases List.mem_cons.mp member with rfl | later
    · exact ⟨entry, List.mem_cons_self, rfl⟩
    · obtain ⟨other, found, same⟩ := ih later
      exact ⟨other, List.mem_cons_of_mem _ found, same⟩

/-- A value tells a writer events that are nested as deep as itself. -/
theorem depth_event (v : Value) : v.event.depth = depth v := by
  have items {items : List Value} (each : ∀ v ∈ items, v.event.depth = depth v) :
      Event.depthOf (Value.itemEvents items) = depthOf items := by
    induction items with
    | nil => rfl
    | cons v rest ih =>
      obtain ⟨here, there⟩ := List.forall_mem_cons.mp each
      rw [Value.itemEvents, Event.depthOf, depthOf, here, ih there]
  induction v with
  | null | bool | string => rfl
  | number n =>
    rw [Value.event, Number.event.eq_def]
    split
    · rfl
    · split <;> rfl
  | array _ ih | set _ ih => rw [Value.event, Event.depth, depth, items ih]
  | object entries each =>
    have fields : Event.depthOfEntries (Value.entryEvents entries) = depthOfEntries entries := by
      induction entries with
      | nil => rfl
      | cons entry rest ih =>
        obtain ⟨here, there⟩ := List.forall_mem_cons.mp each
        obtain ⟨s, events⟩ := exists_entryEvents_cons entry rest
        rw [events, Event.depthOfEntries, depthOfEntries, here.2, ih there]
    rw [Value.event, Event.depth, depth, fields]

theorem isPlain_event {v : Value} (document : IsDocument v) : v.event.IsPlain := by
  induction v with
  | null => exact .unit
  | bool b => exact .bool b
  | number n =>
    obtain ⟨word, rfl⟩ := document.integers n (List.mem_singleton_self n)
    exact .int64 word
  | string s => exact .string s
  | array items ih =>
    rw [Value.event, itemEvents_eq_map]
    refine .seq (List.forall_mem_map.mpr fun v member => ?_)
    exact ih v member (isDocument_array document v member)
  | set members => exact (document.formed _ (Value.self_mem_parts _)).elim
  | object entries ih =>
    refine .map fun e member => ?_
    obtain ⟨entry, found, same⟩ := mem_entryEvents member
    rw [same]
    exact (ih entry found).2 (isDocument_object document entry found).2

/-- Entries under names are given as they are. -/
theorem ofEntryEvents_entryEvents {entries : List (Value × Value)}
    (named : ∀ entry ∈ entries, ∃ name, entry.1 = .string name)
    (fields : ∀ entry ∈ entries, Value.ofEvent entry.2.event = entry.2) :
    Value.ofEntryEvents (Value.entryEvents entries) = entries := by
  induction entries with
  | nil => rfl
  | cons entry rest ih =>
    obtain ⟨⟨name, here⟩, otherNames⟩ := List.forall_mem_cons.mp named
    obtain ⟨field, otherFields⟩ := List.forall_mem_cons.mp fields
    obtain ⟨key, v⟩ := entry
    cases here
    rw [Value.entryEvents, Value.ofEntryEvents, field, ih otherNames otherFields]

/-- What a document tells a writer makes the document. -/
theorem ofEvent_event {v : Value} (document : IsDocument v) : Value.ofEvent v.event = v := by
  induction v with
  | null | bool | string => rfl
  | number n =>
    obtain ⟨word, rfl⟩ := document.integers n (List.mem_singleton_self n)
    rfl
  | array items ih =>
    have each (v : Value) (member : v ∈ items) : (Value.ofEvent ∘ Value.event) v = id v :=
      ih v member (isDocument_array document v member)
    rw [Value.event, Value.ofEvent, itemEvents_eq_map, Value.ofItemEvents_eq_map, List.map_map,
      List.map_congr_left each, List.map_id]
  | set members => exact (document.formed _ (Value.self_mem_parts _)).elim
  | object entries ih =>
    have fields := isDocument_object document
    rw [Value.event, Value.ofEvent, Value.ofEntries,
      ofEntryEvents_entryEvents (fun entry member => (fields entry member).1)
        fun entry member => (ih entry member).2 (fields entry member).2,
      Ascending.ofEntries_of_ascending (Value.isOrdered_object.mp document.ordered).1]

/-! ## Reading undoes writing -/

/-- Both texts of a document that is nested no deeper than reading allows are read as the document. -/
theorem read?_text (standard : Library.IsStandard) {v : Value} (document : IsDocument v)
    (shallow : depth v ≤ depthLimit) :
    read? (compact v) = some v ∧ read? (pretty v) = some v := by
  have plain := isPlain_event document
  have fits : v.event.depth ≤ depthLimit := by
    rw [depth_event]
    exact shallow
  have whole {cs : List Char} (text : IsText cs v.event) : read? cs = some v := by
    rw [read?, standard.read? text fits, Option.map_some, Value.ofEvent_asRead,
      ofEvent_event document]
  exact ⟨whole (standard.compact plain), whole (standard.pretty plain)⟩

end

/-- Both ends of the integers, a name with escapes, and nothing in an array and in an object. -/
theorem read?_text_of_object :
    let v : Value := .object
      [(.string "", .array []),
        (.string "\n\"é\"\\", .array [.object [], .null, .string "\x7f"]),
        (.string "n", .array [.number (.int Int64.minValue), .number (.int Int64.maxValue)])]
    Library.IsStandard ∧ IsDocument v ∧ depth v ≤ depthLimit ∧ read? (compact v) = some v ∧
      read? (pretty v) = some v := by
  intro v
  have integers : v.HoldsIntegers := by
    have numbers : v.numbers = [.int Int64.minValue, .int Int64.maxValue] := rfl
    rw [Value.HoldsIntegers, numbers]
    exact List.forall_mem_cons.mpr ⟨⟨_, rfl⟩, List.forall_mem_singleton.mpr ⟨_, rfl⟩⟩
  have document : IsDocument v := ⟨by decide +kernel, integers, by decide +kernel⟩
  have shallow : depth v ≤ depthLimit := by decide +kernel
  exact ⟨isStandard_library, document, shallow, read?_text isStandard_library document shallow⟩

end ResidualPolicy.Json
