import Mathlib.Data.List.TakeDrop
import ResidualPolicy.Evaluation
import ResidualPolicy.Pattern.Reader
import ResidualPolicy.Proofs.Registry
import ResidualPolicy.Registry.Shared

/-!
# What readers of a shared registry see

A call of `register` changes the table in force for those who look now, and nothing for those who hold a
snapshot: the operator goes into a copy, and the copy has a new address. Through `resolve` a snapshot stays
the registry that it was taken from (`resolve_after`). As long as the counter has room, the calls are through
`view` those of the registry that is a value (`HasRoom.view_after`).

The invariant of all calls from a registry at the start puts the parts together. The counter is the number
of successful calls as a word of 64 bits, so it tells the tables apart until it starts over.
-/

namespace ResidualPolicy

/-! ## Memory -/

namespace Memory

theorem read_copy (memory : Memory) {a : Nat} (h : a < memory.tables.length) (source : Nat) :
    (memory.copy source).2.read a = memory.read a := by
  show (memory.tables ++ [memory.read source])[a]?.getD [] = memory.tables[a]?.getD []
  rw [List.getElem?_append_left h]

theorem read_copy_self (memory : Memory) (source : Nat) :
    (memory.copy source).2.read (memory.copy source).1 = memory.read source := by
  show (memory.tables ++ [memory.read source])[memory.tables.length]?.getD [] = _
  rw [List.getElem?_concat_length]
  rfl

theorem read_insert_of_ne (memory : Memory) {a b : Nat} (h : a ≠ b) (op : Operator) :
    (memory.insert a op).read b = memory.read b := by
  show (memory.tables.modify a _)[b]?.getD [] = memory.tables[b]?.getD []
  rw [List.getElem?_modify_ne _ _ h]

theorem read_insert_self (memory : Memory) {a : Nat} (h : a < memory.tables.length)
    (op : Operator) : (memory.insert a op).read a = Ascending.put op.id op (memory.read a) := by
  show (memory.tables.modify a _)[a]?.getD [] = Ascending.put op.id op (memory.tables[a]?.getD [])
  rw [List.getElem?_modify_eq, List.getElem?_eq_getElem h]
  rfl

end Memory

namespace SharedRegistry

variable (registry : SharedRegistry)

/-! ## One call -/

theorem length_publish (op : Operator) :
    (registry.publish op).memory.tables.length = registry.memory.tables.length + 1 := by
  simp [publish, Memory.copy, Memory.insert]

/-- What is in force after an operator has been added. -/
theorem view_publish (op : Operator) :
    (registry.publish op).view =
      ⟨Ascending.put op.id op registry.view.operators, (registry.current.version + 1).toNat⟩ := by
  have made : (registry.memory.copy registry.current.address).1 <
      (registry.memory.copy registry.current.address).2.tables.length := by
    simp [Memory.copy]
  have table := Memory.read_insert_self _ made op
  rw [Memory.read_copy_self] at table
  exact congrArg (fun table => (⟨table, (registry.current.version + 1).toNat⟩ : Registry)) table

/-- A table that exists is not touched by adding an operator. -/
theorem resolve_publish {snapshot : Snapshot}
    (h : snapshot.address < registry.memory.tables.length) (op : Operator) :
    (registry.publish op).resolve snapshot = registry.resolve snapshot := by
  have apart : (registry.memory.copy registry.current.address).1 ≠ snapshot.address :=
    Nat.ne_of_gt h
  show (⟨((registry.memory.copy _).2.insert _ op).read _, _⟩ : Registry) = _
  rw [Memory.read_insert_of_ne _ apart, Memory.read_copy _ h]
  rfl

/-- The two ways in which a call can end. -/
theorem register_cases (op : Operator) :
    ((Registry.isBlankName op.id = true ∨ isBuiltin op.id = true) ∧
        (registry.register op).1.isOk = false ∧ (registry.register op).2 = registry) ∨
      (Registry.isBlankName op.id = false ∧ isBuiltin op.id = false ∧
        registry.register op = (.ok (registry.publish op).version, registry.publish op)) := by
  unfold register
  by_cases blank : Registry.isBlankName op.id = true
  · rw [if_pos blank]
    exact .inl ⟨.inl blank, rfl, rfl⟩
  rw [if_neg blank]
  by_cases reserved : isBuiltin op.id = true
  · rw [if_pos reserved]
    exact .inl ⟨.inr reserved, rfl, rfl⟩
  · rw [if_neg reserved]
    exact .inr ⟨Bool.eq_false_iff.mpr blank, Bool.eq_false_iff.mpr reserved, rfl⟩

theorem isOk_register (op : Operator) :
    (registry.register op).1.isOk = !(Registry.isBlankName op.id || isBuiltin op.id) := by
  rcases registry.register_cases op with ⟨refused, error, -⟩ | ⟨blank, reserved, accepted⟩
  · rw [error, Bool.or_eq_true_iff.mpr refused]
    rfl
  · rw [accepted, blank, reserved]
    rfl

/-- The version in force can be counted up this many times. -/
def HasRoom (count : Nat) : Prop :=
  registry.current.version.toNat + count < UInt64.size

variable {registry} in
theorem HasRoom.mono {count more : Nat} (room : registry.HasRoom more) (h : count ≤ more) :
    registry.HasRoom count :=
  Nat.lt_of_le_of_lt (Nat.add_le_add_left h _) room

variable {registry} in
/-- The word does not start over. -/
theorem HasRoom.toNat_version (room : registry.HasRoom 1) :
    (registry.current.version + 1).toNat = registry.current.version.toNat + 1 := by
  rw [UInt64.toNat_add]
  exact Nat.mod_eq_of_lt room

variable {registry} in
/-- A call answers what the registry in force answers. -/
theorem HasRoom.register_view (room : registry.HasRoom 1) (op : Operator) :
    registry.view.register op =
      (registry.register op).1.map fun _ => (registry.publish op).view := by
  rw [view_publish, room.toNat_version]
  unfold register Registry.register
  split
  · rfl
  split <;> rfl

variable {registry} in
/-- Through `view` a call is the attempt to register in the registry in force. -/
theorem HasRoom.view_register (room : registry.HasRoom 1) (op : Operator) :
    (registry.register op).2.view = registry.view.attempt op := by
  unfold Registry.attempt
  rw [room.register_view]
  rcases registry.register_cases op with ⟨-, error, same⟩ | ⟨-, -, accepted⟩
  · rw [same]
    rcases answer : (registry.register op).1 with e | version
    · rfl
    · rw [answer] at error
      exact nomatch error
  · rw [accepted]
    rfl

variable {registry} in
/-- A call takes the room of one registration at most. -/
theorem HasRoom.register {count : Nat} (room : registry.HasRoom (count + 1)) (op : Operator) :
    (registry.register op).2.HasRoom count := by
  rcases registry.register_cases op with ⟨-, -, same⟩ | ⟨-, -, accepted⟩
  · rw [same]
    exact room.mono (Nat.le_succ count)
  · have once : registry.HasRoom 1 := room.mono (Nat.le_add_left 1 count)
    rw [accepted]
    show (registry.current.version + 1).toNat + count < UInt64.size
    rw [once.toNat_version, Nat.add_assoc, Nat.add_comm 1]
    exact room

theorem length_le_register (op : Operator) :
    registry.memory.tables.length ≤ (registry.register op).2.memory.tables.length := by
  rcases registry.register_cases op with ⟨-, -, same⟩ | ⟨-, -, accepted⟩
  · exact Nat.le_of_eq (congrArg (·.memory.tables.length) same.symm)
  · rw [accepted, length_publish]
    exact Nat.le_succ _

/-- A snapshot reads the same before and after a call. -/
theorem resolve_register {snapshot : Snapshot}
    (h : snapshot.address < registry.memory.tables.length) (op : Operator) :
    (registry.register op).2.resolve snapshot = registry.resolve snapshot := by
  rcases registry.register_cases op with ⟨-, -, same⟩ | ⟨-, -, accepted⟩
  · rw [same]
  · rw [accepted]
    exact registry.resolve_publish h op

/-! ## Several calls -/

theorem after_append (ops more : List Operator) :
    registry.after (ops ++ more) = (registry.after ops).after more :=
  List.foldl_append ..

theorem answers_append (ops more : List Operator) :
    registry.answers (ops ++ more) = registry.answers ops ++ (registry.after ops).answers more := by
  induction ops generalizing registry with
  | nil => rfl
  | cons op rest ih => exact congrArg (_ :: ·) (ih (registry.register op).2)

variable {registry} in
/-- Through `view` the calls are attempts to register in the registry in force. -/
theorem HasRoom.view_after {ops : List Operator} (room : registry.HasRoom ops.length) :
    (registry.after ops).view = registry.view.after ops := by
  induction ops generalizing registry with
  | nil => rfl
  | cons op rest ih =>
    have once : registry.HasRoom 1 := room.mono (Nat.le_add_left 1 rest.length)
    show ((registry.register op).2.after rest).view = (registry.view.attempt op).after rest
    rw [ih (room.register op), once.view_register]

/-- A snapshot stays the registry that it was taken from. -/
theorem resolve_after {snapshot : Snapshot}
    (h : snapshot.address < registry.memory.tables.length) (ops : List Operator) :
    (registry.after ops).resolve snapshot = registry.resolve snapshot := by
  induction ops generalizing registry with
  | nil => rfl
  | cons op rest ih =>
    have kept := Nat.lt_of_lt_of_le h (registry.length_le_register op)
    exact (ih (registry.register op).2 kept).trans (registry.resolve_register h op)

/-- The counter stands at the version in force. -/
def InStep : Prop :=
  registry.version = registry.current.version

variable {registry} in
theorem InStep.register (inStep : registry.InStep) (op : Operator) :
    (registry.register op).2.InStep := by
  rcases registry.register_cases op with ⟨-, -, same⟩ | ⟨-, -, accepted⟩
  · rwa [same]
  · rw [accepted]
    rfl

variable {registry} in
theorem InStep.after (inStep : registry.InStep) (ops : List Operator) :
    (registry.after ops).InStep := by
  induction ops generalizing registry with
  | nil => exact inStep
  | cons op rest ih => exact ih (inStep.register op)

/-- Every call that succeeds counts the version up by one. -/
theorem version_current_after (ops : List Operator) :
    (registry.after ops).current.version =
      registry.current.version + .ofNat ((registry.answers ops).countP Except.isOk) := by
  induction ops generalizing registry with
  | nil => exact (UInt64.add_zero _).symm
  | cons op rest ih =>
    show ((registry.register op).2.after rest).current.version = _
    rw [ih, answers, List.countP_cons]
    rcases registry.register_cases op with ⟨-, error, same⟩ | ⟨-, -, accepted⟩
    · rw [error, same]
      rfl
    · rw [accepted]
      show registry.current.version + 1 + _ = registry.current.version + .ofNat (_ + 1)
      rw [UInt64.ofNat_add, UInt64.add_assoc, UInt64.add_comm 1]
      rfl

/-- Where no call succeeds, nothing changes. -/
theorem after_eq_self {ops : List Operator}
    (none : (registry.answers ops).countP Except.isOk = 0) : registry.after ops = registry := by
  induction ops generalizing registry with
  | nil => rfl
  | cons op rest ih =>
    rw [answers, List.countP_cons] at none
    rcases registry.register_cases op with ⟨-, -, same⟩ | ⟨-, -, accepted⟩
    · have later := ih _ (Nat.add_eq_zero_iff.mp none).1
      show (registry.register op).2.after rest = registry
      rw [later, same]
    · rw [accepted] at none
      exact nomatch none

/-- What a call does to the operators under names. -/
theorem find?_view_register (op : Operator) (id : String) :
    (registry.register op).2.view.find? id =
      if (registry.register op).1.isOk && op.id == id then some op
      else registry.view.find? id := by
  rcases registry.register_cases op with ⟨-, error, same⟩ | ⟨-, -, accepted⟩
  · rw [error, same]
    rfl
  · rw [accepted, view_publish]
    show Ascending.get? id (Ascending.put op.id op _) = if op.id == id then some op else _
    rw [Ascending.get?_put]
    simp only [Registry.sameKey_string, beq_iff_eq, eq_comm (a := id)]
    rfl

theorem registeredAs_cons (id : String) (call : Operator × Except RegistryError UInt64)
    (calls : List (Operator × Except RegistryError UInt64)) :
    registeredAs id (call :: calls) =
      if call.2.isOk && call.1.id == id then call.1 :: registeredAs id calls
      else registeredAs id calls := by
  unfold registeredAs
  rw [List.filter_cons]
  split <;> rfl

/-- The operator under a name is the one that the last successful call under that name registered. -/
theorem find?_view_after (ops : List Operator) (id : String) :
    (registry.after ops).view.find? id =
      (registeredAs id (registry.calls ops)).getLast?.or (registry.view.find? id) := by
  induction ops generalizing registry with
  | nil => rfl
  | cons op rest ih =>
    have first : registry.calls (op :: rest) =
      (op, (registry.register op).1) :: (registry.register op).2.calls rest := rfl
    show ((registry.register op).2.after rest).view.find? id = _
    rw [ih, find?_view_register, first, registeredAs_cons]
    by_cases here : ((registry.register op).1.isOk && op.id == id) = true
    · rw [if_pos here, if_pos here, List.getLast?_cons]
      rcases (registeredAs id ((registry.register op).2.calls rest)).getLast? with _ | other <;> rfl
    · rw [if_neg here, if_neg here]

/-! ## All calls from the registries at the start -/

/-- A registry that starts with the table of another one shows that one. -/
theorem view_ofTable {registry : Registry} (h : registry.version = 0) :
    (ofTable registry.operators).view = registry := by
  obtain ⟨operators, version⟩ := registry
  subst h
  rfl

theorem view_builtins [PatternEngine] : builtins.view = Registry.builtins :=
  view_ofTable rfl

/-- The registries that programs start with. -/
def IsInitial [PatternEngine] : Prop :=
  registry = builtins ∨ registry = empty

variable {registry} in
theorem IsInitial.inStep [PatternEngine] (h : registry.IsInitial) : registry.InStep := by
  rcases h with rfl | rfl <;> rfl

variable {registry} in
/-- No operator that is not built-in is there at the start. -/
theorem IsInitial.find?_view [PatternEngine] (h : registry.IsInitial) {id : String}
    (custom : isBuiltin id = false) : registry.view.find? id = none := by
  rcases h with rfl | rfl
  · have absent := Registry.contains_builtins id
    rw [custom, Registry.contains_eq_isSome, Option.isSome_eq_false_iff, Option.isNone_iff_eq_none]
      at absent
    rw [view_builtins, absent]
  · rfl

variable {registry} in
/-- The counter is the number of successful calls, as far as its word can tell. -/
theorem IsInitial.version_after [PatternEngine] (h : registry.IsInitial) (ops : List Operator) :
    (registry.after ops).version = .ofNat ((registry.answers ops).countP Except.isOk) := by
  have start : registry.current.version = 0 := by rcases h with rfl | rfl <;> rfl
  rw [h.inStep.after ops, version_current_after, start, UInt64.zero_add]

/-- No call registers anything under a reserved name. -/
theorem registeredAs_eq_nil {id : String} (reserved : isBuiltin id = true) (ops : List Operator) :
    registeredAs id (registry.calls ops) = [] := by
  induction ops generalizing registry with
  | nil => rfl
  | cons op rest ih =>
    show registeredAs id ((op, (registry.register op).1) :: (registry.register op).2.calls rest) = []
    have other : ¬ ((registry.register op).1.isOk && op.id == id) = true := by
      intro registered
      obtain ⟨accepted, named⟩ := Bool.and_eq_true_iff.mp registered
      rw [isOk_register, beq_iff_eq.mp named, reserved, Bool.or_true] at accepted
      exact nomatch accepted
    rw [registeredAs_cons, if_neg other, ih]

/-- What stands under a reserved name never changes. -/
theorem find?_view_after_of_isBuiltin {id : String} (reserved : isBuiltin id = true)
    (ops : List Operator) : (registry.after ops).view.find? id = registry.view.find? id := by
  rw [find?_view_after, registeredAs_eq_nil registry reserved]
  rfl

theorem contains_view_after {id : String} (h : registry.view.contains id = true)
    (ops : List Operator) : (registry.after ops).view.contains id = true := by
  rw [Registry.contains_eq_isSome] at h ⊢
  rw [find?_view_after, Option.isSome_or, h, Bool.or_true]

variable {registry} in
/-- As long as the counter has not started over, two moments with the same version are the same. -/
theorem IsInitial.after_take [PatternEngine] (initial : registry.IsInitial) {ops : List Operator}
    (fits : (registry.answers ops).countP Except.isOk < UInt64.size) {i j : Nat}
    (same : (registry.after (ops.take i)).version = (registry.after (ops.take j)).version) :
    registry.after (ops.take i) = registry.after (ops.take j) := by
  wlog order : i ≤ j generalizing i j
  · exact (this same.symm (Nat.le_of_not_le order)).symm
  -- The later moment is reached from the earlier one by calls that must all have failed.
  have split : ops.take j = ops.take i ++ (ops.take j).drop i :=
    calc ops.take j = (ops.take j).take i ++ (ops.take j).drop i := (List.take_append_drop ..).symm
      _ = ops.take i ++ (ops.take j).drop i := by rw [List.take_take, Nat.min_eq_left order]
  have later : (registry.answers (ops.take j)).countP Except.isOk =
      (registry.answers (ops.take i)).countP Except.isOk +
        ((registry.after (ops.take i)).answers ((ops.take j).drop i)).countP Except.isOk := by
    rw [split, answers_append, List.countP_append, ← split]
  have whole : (registry.answers ops).countP Except.isOk =
      (registry.answers (ops.take j)).countP Except.isOk +
        ((registry.after (ops.take j)).answers (ops.drop j)).countP Except.isOk := by
    rw [← List.countP_append, ← answers_append, List.take_append_drop]
  have counts := congrArg UInt64.toNat same
  rw [initial.version_after, initial.version_after, UInt64.toNat_ofNat_of_lt' (by omega),
    UInt64.toNat_ofNat_of_lt' (by omega)] at counts
  have none : ((registry.after (ops.take i)).answers ((ops.take j).drop i)).countP Except.isOk = 0 := by
    omega
  rw [split, after_append, after_eq_self _ none]

variable {registry} in
/-- The invariant of every history of calls. The counter is the version in force and the number of calls that
have succeeded, and tells the tables apart: exactly so until there are more of them than a word of 64 bits
counts. A refused call changes nothing. A custom name stands for what was registered last, a reserved one for
what it stood for at the start, and none goes away. Whatever is evaluated through a snapshot is evaluated with
the table in force when it was taken. -/
theorem IsInitial.after_invariant [PatternEngine] (initial : registry.IsInitial)
    (ops more : List Operator) :
    (registry.after ops).version = .ofNat ((registry.answers ops).countP Except.isOk) ∧
      (registry.after ops).version = (registry.after ops).current.version ∧
      (∀ op, ((registry.after ops).register op).1.isOk =
        !(Registry.isBlankName op.id || isBuiltin op.id)) ∧
      (∀ op, ((registry.after ops).register op).1.isOk = false →
        ((registry.after ops).register op).2 = registry.after ops) ∧
      (∀ id, isBuiltin id = false → (registry.after ops).view.find? id =
        (registeredAs id (registry.calls ops)).getLast?) ∧
      (∀ id, (registry.after ops).view.contains id = true →
        (registry.after (ops ++ more)).view.contains id = true) ∧
      (registry = builtins → ∀ builtin : Builtin,
        (registry.after ops).view.find? builtin.id = some (.ofBuiltin builtin)) ∧
      (registry = empty → ∀ builtin : Builtin,
        (registry.after ops).view.find? builtin.id = none) ∧
      (registry.after (ops ++ more)).resolve (registry.after ops).current =
        (registry.after ops).view ∧
      (∀ (p : Policy) (document : Value),
        p.evaluate ((registry.after (ops ++ more)).resolve (registry.after ops).current) document =
          p.evaluate (registry.after ops).view document) ∧
      ((registry.answers ops).countP Except.isOk < UInt64.size →
        (registry.after ops).version.toNat = (registry.answers ops).countP Except.isOk ∧
          ∀ i j, (registry.after (ops.take i)).version = (registry.after (ops.take j)).version →
            (registry.after (ops.take i)).view = (registry.after (ops.take j)).view) := by
  have snapshot : (registry.after (ops ++ more)).resolve (registry.after ops).current =
      (registry.after ops).view := by
    rw [after_append]
    exact resolve_after _ (registry.after ops).current_lt more
  have counted := initial.version_after ops
  refine ⟨counted, initial.inStep.after ops, isOk_register _, ?refused, ?custom, ?kept, ?reserved,
    ?absent, snapshot, ?evaluated, ?exact⟩
  case refused =>
    intro op error
    rcases (registry.after ops).register_cases op with ⟨-, -, same⟩ | ⟨-, -, accepted⟩
    · exact same
    · rw [accepted] at error
      exact nomatch error
  case custom =>
    intro id custom
    rw [find?_view_after, initial.find?_view custom, Option.or_none]
  case kept =>
    intro id contained
    rw [after_append]
    exact contains_view_after _ contained more
  case reserved =>
    rintro rfl builtin
    rw [find?_view_after_of_isBuiltin _ (isBuiltin_id builtin), view_builtins]
    exact Registry.hasBuiltins_builtins builtin
  case absent =>
    rintro rfl builtin
    rw [find?_view_after_of_isBuiltin _ (isBuiltin_id builtin)]
    rfl
  case evaluated =>
    intro p document
    rw [snapshot]
  case exact =>
    intro fits
    refine ⟨?_, fun i j same => congrArg view (initial.after_take fits same)⟩
    rw [counted]
    exact UInt64.toNat_ofNat_of_lt' fits

/-- A custom operator, another one in its place, a blank name, a reserved name and a second name. -/
def mixedCalls : List Operator :=
  [{ id := "near", holds := fun _ _ => true }, { id := "near", holds := fun _ _ => false },
    { id := " \t", holds := fun _ _ => true }, { id := "=", holds := fun _ _ => true },
    { id := "far", holds := fun v o => v == o }]

/-- Of the mixed calls three succeed, and a snapshot between them keeps the operator that was replaced. -/
theorem after_invariant_mixedCalls :
    (builtins.after mixedCalls).version.toNat = 3 ∧
      (builtins.after (mixedCalls.take 4)).version = (builtins.after (mixedCalls.take 2)).version ∧
      (builtins.after (mixedCalls.take 4)).view = (builtins.after (mixedCalls.take 2)).view ∧
      ((builtins.after mixedCalls).register { id := "<", holds := fun _ _ => true }).2 =
        builtins.after mixedCalls ∧
      (builtins.after mixedCalls).view.find? "=" = some (.ofBuiltin .equal) ∧
      (builtins.after mixedCalls).view.contains "near" = true ∧
      (builtins.after mixedCalls).resolve (builtins.after (mixedCalls.take 1)).current =
        (builtins.after (mixedCalls.take 1)).view := by
  obtain ⟨-, -, -, refused, -, -, reserved, -, -, -, exact⟩ :=
    IsInitial.after_invariant (.inl rfl) mixedCalls []
  obtain ⟨-, -, -, -, custom, kept, -, -, snapshot, -, -⟩ :=
    IsInitial.after_invariant (.inl rfl) (mixedCalls.take 1) (mixedCalls.drop 1)
  have three : (builtins.answers mixedCalls).countP Except.isOk = 3 := by decide +kernel
  obtain ⟨counted, moments⟩ := exact (three ▸ by decide)
  have same : (builtins.after (mixedCalls.take 4)).version =
      (builtins.after (mixedCalls.take 2)).version := by decide +kernel
  have near : (builtins.after (mixedCalls.take 1)).view.contains "near" = true := by
    rw [Registry.contains_eq_isSome, custom "near" (by decide +kernel)]
    decide +kernel
  exact ⟨counted.trans three, same, moments 4 2 same, refused _ (by decide +kernel), reserved rfl .equal,
    kept "near" near, snapshot⟩

end SharedRegistry

end ResidualPolicy
