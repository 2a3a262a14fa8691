/-!
# Ascending lists

Finite sets and finite maps kept as lists, in ascending order of their members or keys. Two keys
count as the same key when the order says `.eq`, which may be coarser than equality: `1` and `1.0`
are one key of an object although they are written differently.

Look-ups read the whole list and never rely on the order, so they mean the same on a list that is
not ascending. Insertions rely on it to find the place of a new key.

The conventions for a key that is already there differ between members and entries, and both can be
seen from outside: adding a member keeps the old member, storing an entry keeps the old key and
replaces what is stored under it.
-/

namespace ResidualPolicy.Ascending

universe u v

variable {κ : Type u} {β : Type v} [Ord κ]

/-- Whether two keys are the same key. -/
def sameKey (a b : κ) : Bool :=
  compare a b == .eq

/-! ## Sets -/

/-- The member that is the same key as `x`, in the form in which the set holds it. -/
def member? (x : κ) (members : List κ) : Option κ :=
  members.find? (sameKey x)

/-- Whether some member is the same key as `x`. -/
def hasMember (x : κ) (members : List κ) : Bool :=
  members.any (sameKey x)

/-- Puts `x` at its place, unless the same key is a member already. -/
def addMember (x : κ) : List κ → List κ
  | [] => [x]
  | y :: rest =>
    match compare x y with
    | .lt => x :: y :: rest
    | .eq => y :: rest
    | .gt => y :: addMember x rest

/-- Drops the member that is the same key as `x`. -/
def dropMember (x : κ) (members : List κ) : List κ :=
  members.filter fun y => !sameKey x y

/-- The members of any list in ascending order. Of members that are the same key the last one of
the list stays. -/
def ofMembers (items : List κ) : List κ :=
  items.foldr addMember []

/-! ## Maps -/

/-- What is stored under `key`. -/
def get? (key : κ) : List (κ × β) → Option β
  | [] => none
  | (k, v) :: rest => if sameKey key k then some v else get? key rest

/-- Whether something is stored under `key`. -/
def hasKey (key : κ) (entries : List (κ × β)) : Bool :=
  (get? key entries).isSome

/-- Stores under `key` what `change` makes of the value stored there so far. The key of an entry
that exists already stays as it is. -/
def alter (key : κ) (change : Option β → β) : List (κ × β) → List (κ × β)
  | [] => [(key, change none)]
  | (k, v) :: rest =>
    match compare key k with
    | .lt => (key, change none) :: (k, v) :: rest
    | .eq => (k, change (some v)) :: rest
    | .gt => (k, v) :: alter key change rest

/-- Stores `value` under `key`. -/
def put (key : κ) (value : β) (entries : List (κ × β)) : List (κ × β) :=
  alter key (fun _ => value) entries

/-- Drops what is stored under `key`. -/
def drop (key : κ) (entries : List (κ × β)) : List (κ × β) :=
  entries.filter fun entry => !sameKey key entry.1

/-- The entries of any list in ascending order of their keys. Of entries under the same key the
first one gives the key and the last one the value. -/
def ofEntries (items : List (κ × β)) : List (κ × β) :=
  items.foldl (fun entries entry => put entry.1 entry.2 entries) []

/-- The keys, in their order. -/
def keys (entries : List (κ × β)) : List κ :=
  entries.map Prod.fst

/-! ## Small laws -/

@[simp]
theorem get?_nil (key : κ) : get? key ([] : List (κ × β)) = none := rfl

theorem get?_cons (key k : κ) (v : β) (rest : List (κ × β)) :
    get? key ((k, v) :: rest) = if sameKey key k then some v else get? key rest := rfl

/-- Strictly ascending keys, the shape that every operation keeps. -/
def IsAscending (xs : List κ) : Prop :=
  xs.Pairwise fun a b => compare a b = .lt

end ResidualPolicy.Ascending
