import ResidualPolicy.Operator.Operand

/-!
# Built-in operators

The operators that every policy can rely on. Each is a predicate on a value of the document and an
operand of the policy, defined for all pairs: where the two are not of the kinds that the operator is
about, a positive operator does not hold.

`check` is the same predicate with the operand known in advance, so that whatever depends on the
operand alone, such as reading a pattern, is done once.
-/

namespace ResidualPolicy

/-- A built-in operator. -/
inductive Builtin where
  | equal
  | notEqual
  | greater
  | less
  | greaterOrEqual
  | lessOrEqual
  /-- The value is an item of the operand. -/
  | memberOf
  | notMemberOf
  /-- The operand is a part of the value: text within text, or an item. -/
  | contains
  | startsWith
  | endsWith
  | matching
  | notMatching
  deriving DecidableEq, Repr

namespace Builtin

/-- All built-in operators. -/
def all : List Builtin :=
  [.equal, .notEqual, .greater, .less, .greaterOrEqual, .lessOrEqual, .memberOf, .notMemberOf,
    .contains, .startsWith, .endsWith, .matching, .notMatching]

/-- Name of an operator in policies. -/
def id : Builtin → String
  | .equal => "="
  | .notEqual => "!="
  | .greater => ">"
  | .less => "<"
  | .greaterOrEqual => ">="
  | .lessOrEqual => "<="
  | .memberOf => "in"
  | .notMemberOf => "not-in"
  | .contains => "contains"
  | .startsWith => "starts-with"
  | .endsWith => "ends-with"
  | .matching => "matches"
  | .notMatching => "not-matches"

/-- The built-in operator with a name. -/
def ofId? (id : String) : Option Builtin :=
  all.find? fun builtin => builtin.id == id

/-- What the operands of an operator must look like. -/
def operandKind : Builtin → OperandKind
  | .equal | .notEqual | .contains => .any
  | .greater | .less | .greaterOrEqual | .lessOrEqual => .orderable
  | .memberOf | .notMemberOf => .collection
  | .startsWith | .endsWith => .string
  | .matching | .notMatching => .pattern

section
variable [PatternEngine]

/-! ## Predicates -/

/-- Order of two numbers or two strings; other pairs are not ordered. -/
def order? : Value → Value → Option Ordering
  | .number a, .number b => some (Ord.compare a b)
  | .string a, .string b => some (Ord.compare a b)
  | _, _ => none

/-- Whether a value is an item of an array or a member of a set. -/
def isItem (v : Value) : Value → Bool
  | .array items => items.any fun item => item == v
  | .set members => Ascending.hasMember v members
  | _ => false

/-- Whether a text occurs in another one. -/
def occurs (part : List Char) : List Char → Bool
  | [] => part.isEmpty
  | c :: rest => part.isPrefixOf (c :: rest) || occurs part rest

/-- Whether a value holds a part: a text within its text, or an item. -/
def holdsPart : Value → Value → Bool
  | .string s, .string part => occurs part.toList s.toList
  | .array items, v => isItem v (.array items)
  | .set members, v => isItem v (.set members)
  | _, _ => false

/-- Whether two strings are related. -/
def relates (related : List Char → List Char → Bool) : Value → Value → Bool
  | .string s, .string t => related s.toList t.toList
  | _, _ => false

/-- Whether some part of a string matches a pattern. What is no pattern matches nothing. -/
def fits : Value → Value → Bool
  | .string s, .string text =>
    match PatternEngine.read text with
    | .ok p => PatternEngine.occursIn p s
    | .error _ => false
  | _, _ => false

/-- Whether an operator holds of a value and an operand. -/
def holds : Builtin → Value → Value → Bool
  | .equal, v, o => v == o
  | .notEqual, v, o => !(v == o)
  | .greater, v, o => (order? v o).any Ordering.isGT
  | .less, v, o => (order? v o).any Ordering.isLT
  | .greaterOrEqual, v, o => (order? v o).any Ordering.isGE
  | .lessOrEqual, v, o => (order? v o).any Ordering.isLE
  | .memberOf, v, o => isItem v o
  | .notMemberOf, v, o => !isItem v o
  | .contains, v, o => holdsPart v o
  | .startsWith, v, o => relates (fun s t => t.isPrefixOf s) v o
  | .endsWith, v, o => relates (fun s t => t.isSuffixOf s) v o
  | .matching, v, o => fits v o
  | .notMatching, v, o => !fits v o

/-! ## Predicates with a known operand -/

/-- Compares with a known bound. -/
def boundCheck (accepts : Ordering → Bool) : Value → Value → Bool
  | .number bound => fun
    | .number n => accepts (Ord.compare n bound)
    | _ => false
  | .string bound => fun
    | .string s => accepts (Ord.compare s bound)
    | _ => false
  | _ => fun _ => false

/-- The members of a collection in ascending order. -/
def membersOf : Value → List Value
  | .array items => Ascending.ofMembers items
  | .set members => members
  | _ => []

/-- The pattern of an operand, if it is one. -/
def patternOf? : Value → Option PatternEngine.Compiled
  | .string text => (PatternEngine.read text).toOption
  | _ => none

/-- Whether a value matches a pattern that has been read. -/
def patternCheck (p? : Option PatternEngine.Compiled) : Value → Bool
  | .string s => p?.any fun p => PatternEngine.occursIn p s
  | _ => false

/-- An operator with its operand known in advance. -/
def check : Builtin → Value → Value → Bool
  | .equal, o => fun v => v == o
  | .notEqual, o => fun v => !(v == o)
  | .greater, o => boundCheck Ordering.isGT o
  | .less, o => boundCheck Ordering.isLT o
  | .greaterOrEqual, o => boundCheck Ordering.isGE o
  | .lessOrEqual, o => boundCheck Ordering.isLE o
  | .memberOf, o =>
    let members := membersOf o
    fun v => Ascending.hasMember v members
  | .notMemberOf, o =>
    let members := membersOf o
    fun v => !Ascending.hasMember v members
  | .contains, o => fun v => holdsPart v o
  | .startsWith, o => fun v => relates (fun s t => t.isPrefixOf s) v o
  | .endsWith, o => fun v => relates (fun s t => t.isSuffixOf s) v o
  | .matching, o =>
    let p? := patternOf? o
    fun v => patternCheck p? v
  | .notMatching, o =>
    let p? := patternOf? o
    fun v => !patternCheck p? v

end

/-! ## Inverses -/

/-- The operator that holds exactly where this one does not, if there is one. The ordering operators
have none, because values of different kinds satisfy neither of two opposite ones. -/
def inverse? : Builtin → Option Builtin
  | .equal => some .notEqual
  | .notEqual => some .equal
  | .memberOf => some .notMemberOf
  | .notMemberOf => some .memberOf
  | .matching => some .notMatching
  | .notMatching => some .matching
  | _ => none

/-- The inverse where the value is a number of elements, which also the ordering operators have. -/
def countInverse? : Builtin → Option Builtin
  | .less => some .greaterOrEqual
  | .greaterOrEqual => some .less
  | .greater => some .lessOrEqual
  | .lessOrEqual => some .greater
  | builtin => builtin.inverse?

/-- Inverses of comparators come in pairs. -/
theorem countInverse?_symm {a b : Builtin} (h : a.countInverse? = some b) :
    b.countInverse? = some a := by
  cases a <;> simp only [countInverse?, inverse?, Option.some.injEq, reduceCtorEq] at h <;>
    subst h <;> rfl

theorem ofId?_id (builtin : Builtin) : ofId? builtin.id = some builtin := by
  cases builtin <;> decide +kernel

end Builtin

/-! ## By name -/

/-- Whether an operator name is that of a built-in operator. -/
def isBuiltin (id : String) : Bool :=
  (Builtin.ofId? id).isSome

/-- Name of the exact inverse of the operator with a name. -/
def inverseOperator? (id : String) : Option String :=
  ((Builtin.ofId? id).bind Builtin.inverse?).map Builtin.id

/-- Name of the inverse of the operator with a name where it compares a number of elements. -/
def inverseComparator? (id : String) : Option String :=
  ((Builtin.ofId? id).bind Builtin.countInverse?).map Builtin.id

/-- The check of the built-in operator with a name for a known operand. -/
def specialize? [PatternEngine] (id : String) (operand : Value) : Option (Value → Bool) :=
  (Builtin.ofId? id).map fun builtin => builtin.check operand

end ResidualPolicy
