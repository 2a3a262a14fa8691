import ResidualPolicy.Registry

/-!
# Registries in memory

A registry that others read while it changes. Its tables stand in a memory and are referred to by their
address. Registering copies the table in force, puts the operator into the copy, and only then puts the
copy in force. Readers hold a snapshot, which is an address and a version, and read the memory through it
whenever they look an operator up.

`view` and `resolve` give the registry that is seen by a look-up now and through a snapshot. Versions are
words of 64 bits here, and start over after as many registrations as such a word counts.
-/

namespace ResidualPolicy

/-- Operators by name. -/
abbrev OperatorTable := List (String × Operator)

/-- Tables by their addresses, in the order in which they were made. -/
structure Memory where
  tables : List OperatorTable

namespace Memory

/-- The table at an address. -/
def read (memory : Memory) (address : Nat) : OperatorTable :=
  memory.tables[address]?.getD []

/-- Copies the table at an address to a new address. -/
def copy (memory : Memory) (address : Nat) : Nat × Memory :=
  (memory.tables.length, ⟨memory.tables ++ [memory.read address]⟩)

/-- Puts an operator into the table at an address. -/
def insert (memory : Memory) (address : Nat) (op : Operator) : Memory :=
  ⟨memory.tables.modify address (Ascending.put op.id op)⟩

end Memory

/-- The table that was in force at some time, and the version at that time. -/
structure Snapshot where
  address : Nat
  version : UInt64
  deriving DecidableEq, Repr

/-- A registry in memory. -/
structure SharedRegistry where
  memory : Memory
  /-- What is in force. -/
  current : Snapshot
  /-- Counter that readers compare with the versions of their snapshots. -/
  version : UInt64
  current_lt : current.address < memory.tables.length

namespace SharedRegistry

/-- A registry that starts with a table. -/
def ofTable (table : OperatorTable) : SharedRegistry where
  memory := ⟨[table]⟩
  current := ⟨0, 0⟩
  version := 0
  current_lt := Nat.one_pos

/-- A registry without operators. -/
def empty : SharedRegistry :=
  ofTable []

/-- The registry of the built-in operators. -/
def builtins [PatternEngine] : SharedRegistry :=
  ofTable Registry.builtins.operators

/-- The registry that is read through a snapshot. -/
def resolve (registry : SharedRegistry) (snapshot : Snapshot) : Registry :=
  ⟨registry.memory.read snapshot.address, snapshot.version.toNat⟩

/-- The registry that is read now. -/
def view (registry : SharedRegistry) : Registry :=
  registry.resolve registry.current

/-- Copies the table in force, with an operator added or replaced, and puts the copy in force. -/
def publish (registry : SharedRegistry) (op : Operator) : SharedRegistry where
  memory := (registry.memory.copy registry.current.address).2.insert
    (registry.memory.copy registry.current.address).1 op
  current := ⟨(registry.memory.copy registry.current.address).1, registry.current.version + 1⟩
  version := registry.current.version + 1
  current_lt := by simp [Memory.copy, Memory.insert]

/-- A call that registers an operator: its answer, which is the new version, and the registry after the
call. -/
def register (registry : SharedRegistry) (op : Operator) :
    Except RegistryError UInt64 × SharedRegistry :=
  if Registry.isBlankName op.id then (.error (.invalidName op.id), registry)
  else if isBuiltin op.id then (.error (.builtinOperator op.id), registry)
  else (.ok (registry.publish op).version, registry.publish op)

/-- The registry after several calls. -/
def after (registry : SharedRegistry) (ops : List Operator) : SharedRegistry :=
  ops.foldl (fun registry op => (registry.register op).2) registry

/-- The answers to several calls. -/
def answers (registry : SharedRegistry) : List Operator → List (Except RegistryError UInt64)
  | [] => []
  | op :: rest => (registry.register op).1 :: (registry.register op).2.answers rest

/-- Several calls, each with its answer. -/
def calls (registry : SharedRegistry) (ops : List Operator) :
    List (Operator × Except RegistryError UInt64) :=
  ops.zip (registry.answers ops)

/-- The operators that calls have registered under a name, in the order of the calls. -/
def registeredAs (id : String) (calls : List (Operator × Except RegistryError UInt64)) :
    List Operator :=
  (calls.filter fun call => call.2.isOk && call.1.id == id).map Prod.fst

end SharedRegistry

end ResidualPolicy
