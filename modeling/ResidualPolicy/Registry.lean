import ResidualPolicy.Notation.Text
import ResidualPolicy.Operator

/-!
# Registries of operators

A registry holds the operators that policies may use and counts its changes. It is a value: a snapshot
of a registry is the registry itself, and registering makes a new one. Built-in names are reserved,
and no operator is ever removed.
-/

namespace ResidualPolicy

/-- The operators by name, and the number of registrations that have succeeded. The number is not
bounded; the registry in memory counts in a word. -/
structure Registry where
  operators : List (String × Operator)
  version : Nat

/-- A policy uses an operator that is not registered. -/
structure UnknownOperator where
  id : String
  deriving DecidableEq, Repr

/-- Wording of the error. -/
def UnknownOperator.message (e : UnknownOperator) : String :=
  "unknown operator `" ++ e.id ++ "`"

/-- An operator can not be registered. -/
inductive RegistryError where
  | invalidName (name : String)
  | builtinOperator (name : String)
  deriving DecidableEq, Repr

/-- Wording of the error. -/
def RegistryError.message : RegistryError → String
  | .invalidName name =>
    "operator registration failed: the name '" ++ name ++
      "' is invalid (empty or whitespace-only names are not allowed)"
  | .builtinOperator name =>
    "operator registration failed: '" ++ name ++
      "' is a built-in operator and cannot be replaced"

namespace Registry

/-- A registry without operators. -/
def empty : Registry :=
  ⟨[], 0⟩

/-- The registry of the built-in operators. -/
def builtins [PatternEngine] : Registry :=
  ⟨Ascending.ofEntries (Builtin.all.map fun builtin => (builtin.id, .ofBuiltin builtin)), 0⟩

/-- The operator with a name. -/
def find? (registry : Registry) (id : String) : Option Operator :=
  Ascending.get? id registry.operators

/-- The operator with a name, or the error for a missing one. -/
def lookup (registry : Registry) (id : String) : Except UnknownOperator Operator :=
  match registry.find? id with
  | some op => .ok op
  | none => .error ⟨id⟩

/-- Whether an operator with a name is registered. -/
def contains (registry : Registry) (id : String) : Bool :=
  Ascending.hasKey id registry.operators

/-- Whether a built-in operator with a name is registered. -/
def hasBuiltin (registry : Registry) (id : String) : Bool :=
  isBuiltin id && registry.contains id

/-- The names of all operators in ascending order. -/
def ids (registry : Registry) : List String :=
  Ascending.keys registry.operators

/-- Whether a name consists of blanks only. -/
def isBlankName (name : String) : Bool :=
  name.toList.all Text.isBlank

/-- Registers an operator under its name, in place of a custom operator with the same name. -/
def register (registry : Registry) (op : Operator) : Except RegistryError Registry :=
  if isBlankName op.id then .error (.invalidName op.id)
  else if isBuiltin op.id then .error (.builtinOperator op.id)
  else .ok ⟨Ascending.put op.id op registry.operators, registry.version + 1⟩

/-- Dump of a registry. -/
def dump (registry : Registry) : List Char :=
  "OperatorRegistry \x7b operators: [".toList ++
    Notation.separated ", ".toList (registry.ids.map fun id => Text.debug id.toList) ++
    "], version: ".toList ++ (toString registry.version).toList ++ " \x7d".toList

end Registry

end ResidualPolicy
