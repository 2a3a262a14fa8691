import ResidualPolicy.Proofs.Ascending
import ResidualPolicy.Proofs.Operator.Builtin
import ResidualPolicy.Registry

/-!
# Registries over time

What registering an operator does to look-ups, and what no sequence of registrations changes: names
that are registered stay registered, the built-in operators stay what they are, and the version
tells whether anything has happened. A registry that has grown from `builtins` or from `empty` is
`Complete`: it holds all built-in operators if it holds one.
-/

namespace ResidualPolicy

/-- An operator whose predicate does not distinguish equal values. -/
def Operator.RespectsEquality (op : Operator) : Prop :=
  ∀ v w o u : Value, (v == w) = true → (o == u) = true → op.holds v o = op.holds w u

theorem Operator.respectsEquality_ofBuiltin [PatternEngine] (builtin : Builtin) :
    (ofBuiltin builtin).RespectsEquality := fun _ _ _ _ hv ho => builtin.holds_congr hv ho

/-- An operator that only asks whether value and operand are equal. -/
theorem Operator.respectsEquality_of_eq {op : Operator} {f : Bool → Bool}
    (h : ∀ v o, op.holds v o = f (v == o)) : op.RespectsEquality := by
  intro v w o u hv ho
  rw [h, h, BEq.congr_left hv, BEq.congr_right ho]

/-- A property of operator names that does not tell built-in operators apart. -/
def BuiltinsAlike (P : String → Prop) : Prop :=
  ∀ a b : Builtin, P a.id → P b.id

namespace Registry

/-! ## Look-ups -/

theorem sameKey_string {a b : String} : Ascending.sameKey a b = true ↔ a = b :=
  Ascending.sameKey_iff.trans Std.LawfulEqOrd.compare_eq_iff_eq

theorem mem_ofMembers {id : String} {items : List String} :
    id ∈ Ascending.ofMembers items ↔ id ∈ items := by
  have members := Ascending.hasMember_ofMembers id items
  rw [Bool.eq_iff_iff, Ascending.hasMember, List.any_eq_true, List.any_eq_true] at members
  simpa only [sameKey_string, exists_eq_right'] using members

theorem contains_eq_isSome (registry : Registry) (id : String) :
    registry.contains id = (registry.find? id).isSome := rfl

theorem find?_of_contains {registry : Registry} {id : String} (h : registry.contains id = true) :
    ∃ op, registry.find? id = some op :=
  Option.isSome_iff_exists.mp h

theorem lookup_eq_ok {registry : Registry} {id : String} {op : Operator} :
    registry.lookup id = .ok op ↔ registry.find? id = some op := by
  unfold lookup
  cases registry.find? id <;> simp

theorem contains_of_find? {registry : Registry} {id : String} {op : Operator}
    (h : registry.find? id = some op) : registry.contains id = true := by
  rw [contains_eq_isSome, h]
  rfl

/-! ## Built-in operators -/

section

variable [PatternEngine]

/-- The built-in operators are registered with their own predicates. -/
def HasBuiltins (registry : Registry) : Prop :=
  ∀ builtin : Builtin, registry.find? builtin.id = some (.ofBuiltin builtin)

theorem HasBuiltins.lookup {registry : Registry} (h : registry.HasBuiltins) (builtin : Builtin) :
    registry.lookup builtin.id = .ok (.ofBuiltin builtin) :=
  lookup_eq_ok.mpr (h builtin)

/-- The registry of the built-in operators holds nothing else. -/
theorem contains_builtins (id : String) : builtins.contains id = isBuiltin id := by
  unfold isBuiltin Builtin.ofId?
  rw [List.isSome_find?, contains, builtins, Ascending.hasKey_ofEntries, List.any_map,
    Bool.eq_iff_iff, List.any_eq_true, List.any_eq_true]
  simp only [Function.comp, sameKey_string, beq_iff_eq, eq_comm (a := id)]

theorem hasBuiltins_builtins : builtins.HasBuiltins := by
  intro builtin
  obtain ⟨op, found⟩ := find?_of_contains ((contains_builtins _).trans (isBuiltin_id builtin))
  have origin := found
  simp only [find?, builtins, Ascending.get?_ofEntries] at origin
  obtain ⟨entry, first, rfl⟩ := Option.map_eq_some_iff.mp origin
  have named := List.find?_some first
  obtain ⟨other, -, rfl⟩ :=
    List.mem_map.mp (List.mem_reverse.mp (List.mem_of_find?_eq_some first))
  have named : builtin.id = other.id := sameKey_string.mp named
  have same : some builtin = some other := by
    rw [← Builtin.ofId?_id builtin, named, Builtin.ofId?_id other]
  obtain rfl : builtin = other := Option.some.inj same
  exact found

end

/-! ## Registering -/

/-- All that a registration does. -/
theorem register_eq_ok {registry grown : Registry} {op : Operator}
    (h : registry.register op = .ok grown) :
    isBuiltin op.id = false ∧
      grown = ⟨Ascending.put op.id op registry.operators, registry.version + 1⟩ := by
  unfold register at h
  split at h
  · exact nomatch h
  · split at h
    · exact nomatch h
    · next custom => exact ⟨Bool.eq_false_iff.mpr custom, (Except.ok.inj h).symm⟩

theorem find?_register {registry grown : Registry} {op : Operator}
    (h : registry.register op = .ok grown) (id : String) :
    grown.find? id = if id = op.id then some op else registry.find? id := by
  obtain ⟨-, rfl⟩ := register_eq_ok h
  unfold find?
  rw [Ascending.get?_put]
  simp only [sameKey_string]

theorem version_register {registry grown : Registry} {op : Operator}
    (h : registry.register op = .ok grown) : grown.version = registry.version + 1 := by
  obtain ⟨-, rfl⟩ := register_eq_ok h
  rfl

theorem contains_register {registry grown : Registry} {op : Operator}
    (h : registry.register op = .ok grown) (id : String) :
    grown.contains id = (id == op.id || registry.contains id) := by
  rw [contains_eq_isSome, contains_eq_isSome, find?_register h]
  by_cases same : id = op.id <;> simp [same]

theorem HasBuiltins.register [PatternEngine] {registry grown : Registry} {op : Operator}
    (builtins : registry.HasBuiltins) (h : registry.register op = .ok grown) :
    grown.HasBuiltins := by
  intro builtin
  have other : builtin.id ≠ op.id := fun same => by
    have reserved := isBuiltin_id builtin
    rw [same, (register_eq_ok h).1] at reserved
    exact Bool.noConfusion reserved
  rw [find?_register h, if_neg other]
  exact builtins builtin

/-! ## Growing from the registries at the start -/

/-- A registry that holds all built-in operators if it holds one. -/
def Complete [PatternEngine] (registry : Registry) : Prop :=
  ∀ builtin : Builtin, registry.contains builtin.id = true → registry.HasBuiltins

/-- A registry that holds all built-in operators or none does not tell them apart. -/
theorem Complete.builtinsAlike [PatternEngine] {registry : Registry} (complete : registry.Complete) :
    BuiltinsAlike (registry.contains · = true) := fun a b known =>
  contains_of_find? (complete a known b)

/-- A registry whose predicates do not distinguish equal values. -/
def Lawful (registry : Registry) : Prop :=
  ∀ id op, registry.find? id = some op → op.RespectsEquality

section

variable [PatternEngine]

/-- The registries that others grow from. -/
def IsInitial (registry : Registry) : Prop :=
  registry = builtins ∨ registry = empty

theorem IsInitial.complete {registry : Registry} (h : registry.IsInitial) : registry.Complete := by
  rcases h with rfl | rfl
  · exact fun _ _ => hasBuiltins_builtins
  · exact fun _ contained => absurd contained Bool.false_ne_true

theorem IsInitial.lawful {registry : Registry} (h : registry.IsInitial) : registry.Lawful := by
  rcases h with rfl | rfl
  · intro id op found
    simp only [find?, builtins] at found
    obtain ⟨_, member⟩ := Ascending.mem_of_get?_ofEntries found
    obtain ⟨builtin, -, entry⟩ := List.mem_map.mp member
    rw [← (Prod.mk.inj entry).2]
    exact Operator.respectsEquality_ofBuiltin builtin
  · exact fun _ _ found => nomatch found

theorem Complete.register {registry grown : Registry} {op : Operator} (complete : registry.Complete)
    (h : registry.register op = .ok grown) : grown.Complete := by
  intro builtin contained
  rw [contains_register h, Bool.or_eq_true] at contained
  rcases contained with same | contained
  · have reserved := isBuiltin_id builtin
    rw [beq_iff_eq.mp same, (register_eq_ok h).1] at reserved
    exact Bool.noConfusion reserved
  · exact (complete builtin contained).register h

end

theorem Lawful.register {registry grown : Registry} {op : Operator} (lawful : registry.Lawful)
    (respects : op.RespectsEquality) (h : registry.register op = .ok grown) : grown.Lawful := by
  intro id other found
  rw [find?_register h] at found
  split at found
  · exact Option.some.inj found ▸ respects
  · exact lawful id other found

/-! ## Sequences of registrations -/

/-- An attempt to register an operator. If it is refused, nothing changes. -/
def attempt (registry : Registry) (op : Operator) : Registry :=
  (registry.register op).toOption.getD registry

/-- The registry after several attempts to register an operator. -/
def after (registry : Registry) (ops : List Operator) : Registry :=
  ops.foldl attempt registry

theorem attempt_cases (registry : Registry) (op : Operator) :
    registry.attempt op = registry ∨ registry.register op = .ok (registry.attempt op) := by
  unfold attempt
  cases registry.register op with
  | error e => exact .inl rfl
  | ok grown => exact .inr rfl

/-- What every registration keeps is kept by a sequence of attempts. -/
theorem after_induction {motive : Registry → Prop} {registry : Registry} {ops : List Operator}
    (start : motive registry)
    (step : ∀ op ∈ ops, ∀ r grown, motive r → r.register op = .ok grown → motive grown) :
    motive (registry.after ops) := by
  induction ops generalizing registry with
  | nil => exact start
  | cons op ops ih =>
    obtain ⟨first, rest⟩ := List.forall_mem_cons.mp step
    refine ih ?_ rest
    rcases attempt_cases registry op with same | grown
    · rw [same]
      exact start
    · exact first _ _ start grown

theorem after_append (registry : Registry) (ops more : List Operator) :
    registry.after (ops ++ more) = (registry.after ops).after more :=
  List.foldl_append ..

theorem HasBuiltins.after [PatternEngine] {registry : Registry} (h : registry.HasBuiltins)
    (ops : List Operator) :
    (registry.after ops).HasBuiltins :=
  after_induction h fun _ _ _ _ kept grown => kept.register grown

theorem Complete.after [PatternEngine] {registry : Registry} (complete : registry.Complete)
    (ops : List Operator) :
    (registry.after ops).Complete :=
  after_induction complete fun _ _ _ _ kept grown => kept.register grown

theorem Lawful.after {registry : Registry} (lawful : registry.Lawful) {ops : List Operator}
    (respects : ∀ op ∈ ops, op.RespectsEquality) : (registry.after ops).Lawful :=
  after_induction lawful fun op member _ _ kept grown => kept.register (respects op member) grown

theorem contains_after {registry : Registry} {id : String} (h : registry.contains id = true)
    (ops : List Operator) : (registry.after ops).contains id = true :=
  after_induction (motive := fun r => r.contains id = true) h fun _ _ _ _ kept grown => by
    rw [contains_register grown, kept, Bool.or_true]

/-- Of several operators, those that are registered when one is tried after the other. -/
def accepted (registry : Registry) : List Operator → List Operator
  | [] => []
  | op :: rest =>
    match registry.register op with
    | .ok grown => op :: grown.accepted rest
    | .error _ => registry.accepted rest

/-- The version counts the registrations that have succeeded. -/
theorem version_after (registry : Registry) (ops : List Operator) :
    (registry.after ops).version = registry.version + (registry.accepted ops).length := by
  induction ops generalizing registry with
  | nil => rfl
  | cons op rest ih =>
    show ((registry.attempt op).after rest).version = _
    rw [accepted, attempt]
    cases registered : registry.register op with
    | ok grown =>
      show (grown.after rest).version = _
      rw [ih, version_register registered, List.length_cons, Nat.add_assoc, Nat.add_comm 1]
    | error e => exact ih registry

theorem after_eq_of_accepted_eq_nil {registry : Registry} {ops : List Operator}
    (h : registry.accepted ops = []) : registry.after ops = registry := by
  induction ops generalizing registry with
  | nil => rfl
  | cons op rest ih =>
    show (registry.attempt op).after rest = registry
    rw [accepted] at h
    rw [attempt]
    cases registered : registry.register op with
    | ok grown => exact nomatch registered ▸ h
    | error e =>
      rw [registered] at h
      exact ih h

/-- As long as the version stands still, nothing has been registered. -/
theorem after_eq_of_version_eq {registry : Registry} {ops : List Operator}
    (h : (registry.after ops).version = registry.version) : registry.after ops = registry := by
  rw [version_after, Nat.add_eq_left, List.length_eq_zero_iff] at h
  exact after_eq_of_accepted_eq_nil h

end Registry

end ResidualPolicy
