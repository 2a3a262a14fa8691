import ResidualPolicy.Json.Quoted
import ResidualPolicy.Operator.Builtin
import ResidualPolicy.Text.Debug

/-!
# Operators

An operator is a named predicate on a value of a document and an operand of a policy.
-/

namespace ResidualPolicy

/-- A named predicate `holds value operand`. -/
structure Operator where
  id : String
  holds : Value → Value → Bool
  operand : OperandKind := .any
  builtin : Bool := false

namespace Operator

/-- A built-in operator as an entry of a registry. -/
def ofBuiltin [PatternEngine] (builtin : Builtin) : Operator :=
  ⟨builtin.id, builtin.holds, builtin.operandKind, true⟩

/-- Dump of an operator; the predicate can not be shown. -/
def dump (op : Operator) : List Char :=
  "Operator \x7b id: ".toList ++ Text.debug op.id.toList ++
    ", operand: ".toList ++ op.operand.name.toList ++
    ", builtin: ".toList ++ Json.boolText op.builtin ++ ", .. \x7d".toList

end Operator

end ResidualPolicy
