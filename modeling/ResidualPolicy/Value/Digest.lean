import ResidualPolicy.Value

/-!
# Digests of values

The words that a value contributes to a hash table. Equal values have equal digests, also where they
hold a number differently, so a table finds a value by its digest first and by equality next.
-/

namespace ResidualPolicy

/-- The word of a number. A double that is a 64-bit integer has the word of that integer, and every
NaN has the same word. -/
def Number.digest : Number → UInt64
  | .int i => i.toUInt64
  | .float d =>
    match d.toInt?.bind Number.int64? with
    | some i => i.toUInt64
    | none => if d.isNaN then Double.nan.bits else d.bits

namespace Value

/-- The words of a text: its characters and a word that is no character. -/
def textDigest (cs : List Char) : List UInt64 :=
  cs.map (fun c => c.val.toUInt64) ++ [UInt64.ofNat 0x110000]

mutual

/-- The words of a value: its kind, for a collection the number of its items, and the words of the
contents. -/
def digest : Value → List UInt64
  | .null => [UInt64.ofNat Kind.null.rank]
  | .bool b => [UInt64.ofNat Kind.bool.rank, if b then 1 else 0]
  | .number n => [UInt64.ofNat Kind.number.rank, n.digest]
  | .string s => UInt64.ofNat Kind.string.rank :: textDigest s.toList
  | .array items =>
    UInt64.ofNat Kind.array.rank :: UInt64.ofNat items.length :: digestItems items
  | .set members =>
    UInt64.ofNat Kind.set.rank :: UInt64.ofNat members.length :: digestItems members
  | .object entries =>
    UInt64.ofNat Kind.object.rank :: UInt64.ofNat entries.length :: digestEntries entries

/-- The words of several values. -/
def digestItems : List Value → List UInt64
  | [] => []
  | v :: rest => digest v ++ digestItems rest

/-- The words of several entries, each key before its value. -/
def digestEntries : List (Value × Value) → List UInt64
  | [] => []
  | (k, v) :: rest => digest k ++ digest v ++ digestEntries rest

end

/-- Whether a hash table takes two values for one. -/
def sameHashed (v w : Value) : Bool :=
  v.digest == w.digest && v == w

/-- The values of a list that a hash table holds after all have been put into it. -/
def hashed (values : List Value) : List Value :=
  values.foldl (fun table v => if table.any (sameHashed v) then table else table ++ [v]) []

end Value

end ResidualPolicy
