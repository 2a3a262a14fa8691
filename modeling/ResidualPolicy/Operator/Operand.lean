import ResidualPolicy.Operator.PatternEngine
import ResidualPolicy.Value

/-!
# Kinds of operands

An operator says what its operands must look like. A policy whose operand does not fit is refused when
it is read; evaluation itself accepts every operand.
-/

namespace ResidualPolicy

/-- What an operand must look like. -/
inductive OperandKind where
  | any
  /-- A number or a string. -/
  | orderable
  /-- An array or a set. -/
  | collection
  /-- A string that reads as a pattern. -/
  | pattern
  | string
  deriving DecidableEq, Repr

/-- An operand does not fit its operator. -/
inductive OperandMismatch where
  | kind (expected : OperandKind) (found : Value.Kind)
  | pattern (text : String) (fault : PatternFault)
  deriving DecidableEq, Repr

/-- Wording of a kind in diagnostics. -/
def OperandKind.text : OperandKind → String
  | .any => "any"
  | .orderable => "a number or string"
  | .collection => "an array or set"
  | .pattern => "a regex string"
  | .string => "a string"

/-- Name of a kind in a dump. -/
def OperandKind.name : OperandKind → String
  | .any => "Any"
  | .orderable => "Orderable"
  | .collection => "Collection"
  | .pattern => "Pattern"
  | .string => "String"

/-- Whether an operand is of the right sort, patterns apart. -/
def OperandKind.admits : OperandKind → Value.Kind → Bool
  | .any, _ => true
  | .orderable, k => k == .number || k == .string
  | .collection, k => k == .array || k == .set
  | .pattern, k => k == .string
  | .string, k => k == .string

/-- Refuses an operand that does not fit. -/
def OperandKind.check [PatternEngine] (expected : OperandKind) (operand : Value) :
    Except OperandMismatch Unit :=
  match expected, operand with
  | .pattern, .string text =>
    match PatternEngine.read text with
    | .ok _ => .ok ()
    | .error fault => .error (.pattern text fault)
  | expected, operand =>
    if expected.admits operand.kind then .ok () else .error (.kind expected operand.kind)

/-- Wording of a mismatch. -/
def OperandMismatch.message : OperandMismatch → String
  | .kind expected found => "expects " ++ expected.text ++ " operand, got " ++ found.text
  | .pattern text fault =>
    "invalid regex `" ++ text ++ "`" ++ fault.account.elim "" fun account => ": " ++ account

end ResidualPolicy
