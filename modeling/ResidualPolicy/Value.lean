import ResidualPolicy.Ascending
import ResidualPolicy.Number

/-!
# Values

Documents and operands are values: nested data whose object keys can be any value. Sets and objects
keep their members and keys in ascending order, which is why the order of values is defined here,
before anything is stored in them.

The order compares kinds first and contents next. Numbers compare by exact value, strings by their
characters, arrays and sets item by item, objects entry by entry, the key before the value. Equality
of values is "neither is smaller", so it identifies values that differ only in how a number is held.
-/

namespace ResidualPolicy

/-- A document, or an operand of a policy. -/
inductive Value where
  | null
  | bool (b : Bool)
  | number (n : Number)
  | string (s : String)
  | array (items : List Value)
  /-- Members in ascending order. -/
  | set (members : List Value)
  /-- Entries in ascending order of their keys. -/
  | object (entries : List (Value × Value))
  deriving Repr, Inhabited

namespace Value

/-! ## Kinds -/

/-- What sort of data a value is. -/
inductive Kind where
  | null
  | bool
  | number
  | string
  | array
  | set
  | object
  deriving DecidableEq, Repr

/-- Name of a kind in diagnostics. -/
def Kind.text : Kind → String
  | .null => "null"
  | .bool => "bool"
  | .number => "number"
  | .string => "string"
  | .array => "array"
  | .set => "set"
  | .object => "object"

/-- Place of a kind in the order of values. -/
def Kind.rank : Kind → Nat
  | .null => 0
  | .bool => 1
  | .number => 2
  | .string => 3
  | .array => 4
  | .set => 5
  | .object => 6

/-- The kind of a value. -/
def kind : Value → Kind
  | .null => .null
  | .bool _ => .bool
  | .number _ => .number
  | .string _ => .string
  | .array _ => .array
  | .set _ => .set
  | .object _ => .object

/-! ## Order -/

mutual

/-- Order of two values. -/
def compare : Value → Value → Ordering
  | .bool a, .bool b => Ord.compare a b
  | .number a, .number b => a.compare b
  | .string a, .string b => Ord.compare a b
  | .array xs, .array ys => compareItems xs ys
  | .set xs, .set ys => compareItems xs ys
  | .object xs, .object ys => compareEntries xs ys
  | a, b => Ord.compare a.kind.rank b.kind.rank

/-- Item by item; a list comes before the lists that continue it. -/
def compareItems : List Value → List Value → Ordering
  | [], [] => .eq
  | [], _ :: _ => .lt
  | _ :: _, [] => .gt
  | x :: xs, y :: ys => (compare x y).then (compareItems xs ys)

/-- Entry by entry, each by its key first. -/
def compareEntries : List (Value × Value) → List (Value × Value) → Ordering
  | [], [] => .eq
  | [], _ :: _ => .lt
  | _ :: _, [] => .gt
  | (k, v) :: xs, (l, w) :: ys => ((compare k l).then (compare v w)).then (compareEntries xs ys)

end

instance : Ord Value := ⟨compare⟩

/-- Two values are equal when neither is smaller. -/
instance : BEq Value := ⟨fun a b => compare a b == .eq⟩

/-! ## Making values -/

/-- The set of the values of a list. -/
def ofMembers (items : List Value) : Value :=
  .set (Ascending.ofMembers items)

/-- The object with the entries of a list; of equal keys the last entry gives the value. -/
def ofEntries (items : List (Value × Value)) : Value :=
  .object (Ascending.ofEntries items)

/-- A size or an index. -/
def ofNat (n : Nat) : Value :=
  .number (.ofNat n)

/-! ## Expecting a kind -/

/-- A value of one kind stands where another kind is needed. -/
structure Mismatch where
  expected : Kind
  found : Kind
  deriving DecidableEq, Repr

/-- Wording of the error. -/
def Mismatch.message (e : Mismatch) : String :=
  "expected " ++ e.expected.text ++ ", found " ++ e.found.text

/-- The error for a value that is not of the expected kind. -/
def mismatch {α : Type} (v : Value) (expected : Kind) : Except Mismatch α :=
  .error ⟨expected, v.kind⟩

/-- The truth value that `v` is. -/
def toBool : Value → Except Mismatch Bool
  | .bool b => .ok b
  | v => v.mismatch .bool

/-- The string that `v` is. -/
def toText : Value → Except Mismatch String
  | .string s => .ok s
  | v => v.mismatch .string

/-- The number that `v` is. -/
def toNumber : Value → Except Mismatch Number
  | .number n => .ok n
  | v => v.mismatch .number

/-- The items of an array. -/
def toItems : Value → Except Mismatch (List Value)
  | .array items => .ok items
  | v => v.mismatch .array

/-- The members of a set. -/
def toMembers : Value → Except Mismatch (List Value)
  | .set members => .ok members
  | v => v.mismatch .set

/-- The entries of an object. -/
def toEntries : Value → Except Mismatch (List (Value × Value))
  | .object entries => .ok entries
  | v => v.mismatch .object

/-! ## Navigation -/

/-- What stands under a key: the entry of an object, the item of an array at a natural number, or the
member of a set that equals the key. -/
def get? : Value → Value → Option Value
  | .object entries, key => Ascending.get? key entries
  | .set members, key => Ascending.member? key members
  | .array items, .number n => n.toNat?.bind fun index => items[index]?
  | _, _ => none

/-- Follows a path of keys. A path that leads nowhere differs from one that leads to null. -/
def lookup? (v : Value) : List Value → Option Value
  | [] => some v
  | key :: rest => (v.get? key).bind fun next => next.lookup? rest

/-- Follows a path of keys, reading null wherever it leads nowhere. -/
def lookupOrNull (v : Value) (path : List Value) : Value :=
  path.foldl (fun here key => (here.get? key).getD .null) v

/-- The elements of an array or a set, each with the key that leads to it: its index in an array, the
element itself in a set. -/
def elements? : Value → Option (List (Value × Value))
  | .array items => some (items.zipIdx.map fun (item, index) => (ofNat index, item))
  | .set members => some (members.map fun member => (member, member))
  | _ => none

/-! ## Changing collections -/

/-- Appends an item to an array. -/
def push (v item : Value) : Except Mismatch Value :=
  v.toItems.map fun items => .array (items ++ [item])

/-- Adds a member to a set, and says whether it is new. -/
def add (v member : Value) : Except Mismatch (Bool × Value) :=
  v.toMembers.map fun members =>
    (!Ascending.hasMember member members, .set (Ascending.addMember member members))

/-- Removes a member from a set, and says whether it was there. -/
def discard (v member : Value) : Except Mismatch (Bool × Value) :=
  v.toMembers.map fun members =>
    (Ascending.hasMember member members, .set (Ascending.dropMember member members))

/-- Stores a value in an object, and says whether the key is new. -/
def put (v key value : Value) : Except Mismatch (Bool × Value) :=
  v.toEntries.map fun entries =>
    (!Ascending.hasKey key entries, .object (Ascending.put key value entries))

/-- Removes a key from an object, and says whether it was there. -/
def delete (v key : Value) : Except Mismatch (Bool × Value) :=
  v.toEntries.map fun entries =>
    (Ascending.hasKey key entries, .object (Ascending.drop key entries))

end Value

end ResidualPolicy
