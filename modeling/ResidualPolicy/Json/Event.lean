import ResidualPolicy.Json.Quoted
import ResidualPolicy.Value

/-!
# Values in JSON

A value does not write itself. It tells a writer what it consists of, one call for each of its parts, and
is made from the calls of a reader in the same way. Such a call is an `Event`; it holds the calls for what
is inside it.

The text in between is left to a library, which makes a text of events and events of a text. What is asked
of it is said where it is needed.

Sets are sequences to a writer. The keys of a map are strings, so a key that is no string is given as the
string of its own compact text.
-/

namespace ResidualPolicy

namespace Json

/-- A call to a writer or of a reader. -/
inductive Event where
  | unit
  | bool (b : Bool)
  | int64 (i : Int64)
  | uint64 (n : UInt64)
  | double (d : Double)
  | string (s : String)
  | seq (items : List Event)
  | map (entries : List (String × Event))
  deriving Repr, Inhabited

/-- A library for JSON. It is inferred, so that definitions which only hand it on do not name it. -/
class Library where
  /-- Text without any blank. -/
  compact : Event → List Char
  /-- Text on many lines. -/
  pretty : Event → List Char
  /-- The calls that reading a text makes. None stands for a text that is refused. -/
  read? : List Char → Option Event

/-- How deep sequences and maps may be nested in a text that is read. -/
def depthLimit : Nat := 127

end Json

/-! ## To a writer -/

/-- What a number tells a writer. -/
def Number.event : Number → Json.Event
  | .int i => .int64 i
  | .float d =>
    match smallInt? d with
    | some i => .int64 i
    | none => .double d

namespace Value

section
variable [Json.Library]

mutual

/-- What a value tells a writer. -/
def event : Value → Json.Event
  | .null => .unit
  | .bool b => .bool b
  | .number n => n.event
  | .string s => .string s
  | .array items => .seq (itemEvents items)
  | .set members => .seq (itemEvents members)
  | .object entries => .map (entryEvents entries)

/-- What the items of a list tell a writer. -/
def itemEvents : List Value → List Json.Event
  | [] => []
  | v :: rest => event v :: itemEvents rest

/-- What the entries of an object tell a writer. -/
def entryEvents : List (Value × Value) → List (String × Json.Event)
  | [] => []
  | (.string s, v) :: rest => (s, event v) :: entryEvents rest
  | (k, v) :: rest => (.ofList (Json.Library.compact (event k)), event v) :: entryEvents rest

end

end

/-! ## From a reader -/

mutual

/-- The value that the calls of a reader make. -/
def ofEvent : Json.Event → Value
  | .unit => .null
  | .bool b => .bool b
  | .int64 i => .number (.int i)
  | .uint64 n => .number (.ofNat n.toNat)
  | .double d => .number (.ofDouble d)
  | .string s => .string s
  | .seq items => .array (ofItemEvents items)
  | .map entries => .ofEntries (ofEntryEvents entries)

/-- The values that the calls inside a sequence make. -/
def ofItemEvents : List Json.Event → List Value
  | [] => []
  | e :: rest => ofEvent e :: ofItemEvents rest

/-- The entries that the calls inside a map make. -/
def ofEntryEvents : List (String × Json.Event) → List (Value × Value)
  | [] => []
  | (s, e) :: rest => (.string s, ofEvent e) :: ofEntryEvents rest

end

end Value

/-! ## Texts -/

namespace Json

variable [Library]

/-- Compact text of a value. -/
def compact (v : Value) : List Char :=
  Library.compact v.event

/-- Pretty text of a value. -/
def pretty (v : Value) : List Char :=
  Library.pretty v.event

/-- Reads a document. -/
def read? (cs : List Char) : Option Value :=
  (Library.read? cs).map Value.ofEvent

end Json

end ResidualPolicy
