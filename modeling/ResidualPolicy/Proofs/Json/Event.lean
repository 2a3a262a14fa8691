import ResidualPolicy.Json.Event

/-!
# Events

Induction on events, and what becomes of an event between writing and reading. A text does not say whether
an integer had a sign, so a reader reports it as unsigned if it can (`Event.asRead`). The value that the
events make is the same (`Value.ofEvent_asRead`).
-/

namespace ResidualPolicy

namespace Json.Event

/-- Induction with one case for each kind of event. -/
@[elab_as_elim, induction_eliminator]
theorem induct {motive : Event → Prop} (unit : motive .unit) (bool : ∀ b, motive (.bool b))
    (int64 : ∀ i, motive (.int64 i)) (uint64 : ∀ n, motive (.uint64 n))
    (double : ∀ d, motive (.double d)) (string : ∀ s, motive (.string s))
    (seq : ∀ items, (∀ e ∈ items, motive e) → motive (.seq items))
    (map : ∀ entries, (∀ entry ∈ entries, motive entry.2) → motive (.map entries))
    (e : Event) : motive e := by
  refine @Event.rec motive (fun items => ∀ e ∈ items, motive e)
    (fun entries => ∀ entry ∈ entries, motive entry.2) (fun entry => motive entry.2) unit bool int64
    uint64 double string seq map ?_ ?_ ?_ ?_ ?_ e
  · exact fun _ member => absurd member List.not_mem_nil
  · exact fun e rest here there => List.forall_mem_cons.mpr ⟨here, there⟩
  · exact fun _ member => absurd member List.not_mem_nil
  · exact fun entry rest here there => List.forall_mem_cons.mpr ⟨here, there⟩
  · exact fun _ _ here => here

/-! ## Depth -/

mutual

/-- How deep sequences and maps are nested in an event. -/
def depth : Event → Nat
  | .seq items => depthOf items + 1
  | .map entries => depthOfEntries entries + 1
  | _ => 0

/-- The depth of the deepest of some events. -/
def depthOf : List Event → Nat
  | [] => 0
  | e :: rest => max (depth e) (depthOf rest)

/-- The depth of the deepest event under some keys. -/
def depthOfEntries : List (String × Event) → Nat
  | [] => 0
  | (_, e) :: rest => max (depth e) (depthOfEntries rest)

end

theorem depth_le_depthOf {items : List Event} {e : Event} (member : e ∈ items) :
    depth e ≤ depthOf items := by
  induction items with
  | nil => exact absurd member List.not_mem_nil
  | cons first rest ih =>
    rw [depthOf]
    rcases List.mem_cons.mp member with rfl | later
    · exact Nat.le_max_left ..
    · exact Nat.le_trans (ih later) (Nat.le_max_right ..)

theorem depth_le_depthOfEntries {entries : List (String × Event)} {entry : String × Event}
    (member : entry ∈ entries) : depth entry.2 ≤ depthOfEntries entries := by
  induction entries with
  | nil => exact absurd member List.not_mem_nil
  | cons first rest ih =>
    rw [depthOfEntries]
    rcases List.mem_cons.mp member with rfl | later
    · exact Nat.le_max_left ..
    · exact Nat.le_trans (ih later) (Nat.le_max_right ..)

/-! ## Integers without a sign -/

mutual

/-- The event as a reader reports it. -/
def asRead : Event → Event
  | .int64 i => if i.toInt < 0 then .int64 i else .uint64 i.toUInt64
  | .seq items => .seq (asReadItems items)
  | .map entries => .map (asReadEntries entries)
  | e => e

/-- Some events as a reader reports them. -/
def asReadItems : List Event → List Event
  | [] => []
  | e :: rest => asRead e :: asReadItems rest

/-- The events under some keys as a reader reports them. -/
def asReadEntries : List (String × Event) → List (String × Event)
  | [] => []
  | (s, e) :: rest => (s, asRead e) :: asReadEntries rest

end

theorem asReadItems_eq_map (items : List Event) : asReadItems items = items.map asRead := by
  induction items with
  | nil => rfl
  | cons e rest ih => rw [asReadItems, ih, List.map_cons]

theorem asReadEntries_eq_map (entries : List (String × Event)) :
    asReadEntries entries = entries.map fun entry => (entry.1, entry.2.asRead) := by
  induction entries with
  | nil => rfl
  | cons entry rest ih => rw [asReadEntries, ih, List.map_cons]

end Json.Event

/-! ## Values of events -/

/-- A natural number is the same with and without a sign. -/
theorem Json.toNat_toUInt64 {i : Int64} (natural : ¬i.toInt < 0) :
    ((i.toUInt64.toNat : Nat) : Int) = i.toInt := by
  have natural := Int.not_lt.mp natural
  rw [Int64.toNat_toUInt64_of_le (Int64.le_iff_toInt_le.mpr natural)]
  exact Int.toNat_of_nonneg natural

theorem Number.ofNat_toUInt64 {i : Int64} (natural : ¬i.toInt < 0) :
    ofNat i.toUInt64.toNat = .int i := by
  rw [ofNat, Json.toNat_toUInt64 natural, ofInt, int64?, if_pos ⟨i.minValue_le_toInt, i.toInt_le⟩,
    Int64.ofInt_toInt]

namespace Value

theorem ofItemEvents_eq_map (items : List Json.Event) : ofItemEvents items = items.map ofEvent := by
  induction items with
  | nil => rfl
  | cons e rest ih => rw [ofItemEvents, ih, List.map_cons]

theorem ofEntryEvents_eq_map (entries : List (String × Json.Event)) :
    ofEntryEvents entries = entries.map fun entry => (.string entry.1, ofEvent entry.2) := by
  induction entries with
  | nil => rfl
  | cons entry rest ih => rw [ofEntryEvents, ih, List.map_cons]

/-- It does not matter to a value whether integers are reported with or without a sign. -/
theorem ofEvent_asRead (e : Json.Event) : ofEvent e.asRead = ofEvent e := by
  induction e with
  | unit | bool | uint64 | double | string => rfl
  | int64 i =>
    rw [Json.Event.asRead]
    split
    · rfl
    · next natural => exact congrArg Value.number (Number.ofNat_toUInt64 natural)
  | seq items ih =>
    rw [Json.Event.asRead, Json.Event.asReadItems_eq_map, ofEvent, ofEvent, ofItemEvents_eq_map,
      ofItemEvents_eq_map, List.map_map]
    exact congrArg Value.array (List.map_congr_left ih)
  | map entries ih =>
    rw [Json.Event.asRead, Json.Event.asReadEntries_eq_map, ofEvent, ofEvent, ofEntryEvents_eq_map,
      ofEntryEvents_eq_map, List.map_map]
    refine congrArg Value.ofEntries (List.map_congr_left fun entry member => ?_)
    exact congrArg (Prod.mk _) (ih entry member)

end Value

end ResidualPolicy
