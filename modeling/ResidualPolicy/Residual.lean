import ResidualPolicy.Json.Event
import ResidualPolicy.Policy

/-!
# Residuals

The outcome of evaluating a policy on a document that may be incomplete. A policy is satisfied, or it
is in conflict with values that are there, or it is open: what the document holds is compatible with
it, and some constraints wait for values that are missing.

Open constraints and violations are filed under their paths. Under each path an entry stands once, in
the order in which it was found.

The second half of the module says how the residuals of the parts of a policy make the residual of
the whole: `conjoin`, `disjoin`, and `Quantifier.verdict` for one element of a collection.
-/

namespace ResidualPolicy

/-- Entries under paths, in ascending order of the paths. -/
abbrev Filed (α : Type) := List (Path × List α)

namespace Filed

variable {α : Type}

/-- One entry under one path. -/
def single (path : Path) (entry : α) : Filed α :=
  [(path, [entry])]

/-- The first path. -/
def first? (filed : Filed α) : Option Path :=
  filed.head?.map Prod.fst

/-- All entries with their paths, in order. -/
def toList (filed : Filed α) : List (Path × α) :=
  filed.flatMap fun under => under.2.map fun entry => (under.1, entry)

/-- The number of entries. -/
def count (filed : Filed α) : Nat :=
  filed.toList.length

/-- The entries, each changed by a function. -/
def mapEntries {β : Type} (f : α → β) (filed : Filed α) : Filed β :=
  filed.map fun under => (under.1, under.2.map f)

variable [BEq α]

/-- Adds entries behind others, those that are not there yet. -/
def appendNew (entries more : List α) : List α :=
  more.foldl (fun entries entry => if entries.contains entry then entries else entries ++ [entry])
    entries

/-- Files entries under a path. -/
def file (path : Path) (more : List α) (filed : Filed α) : Filed α :=
  Ascending.alter path (fun entries? => appendNew (entries?.getD []) more) filed

/-- Files all entries of `more` behind those that are there. -/
def merge (filed more : Filed α) : Filed α :=
  more.foldl (fun filed under => file under.1 under.2 filed) filed

/-- Filed entries are the same when the paths and the entries under them are. -/
def same (filed more : Filed α) : Bool :=
  filed.length == more.length &&
    (filed.zip more).all fun (a, b) => a.1 == b.1 && a.2 == b.2

end Filed

/-- A constraint that was checked and failed, and the value that failed it. -/
structure Violation where
  constraint : Constraint
  witness : Value
  deriving Repr, Inhabited

/-- Violations are the same when constraint and witness are. -/
instance : BEq Violation :=
  ⟨fun v w => v.constraint == w.constraint && v.witness == w.witness⟩

/-- The outcome of an evaluation. -/
inductive Residual where
  | satisfied
  /-- Nothing is violated, and these constraints wait for missing values. -/
  | pending (constraints : Filed Constraint)
  | conflict (violations : Filed Violation)
  deriving Repr, Inhabited

namespace Residual

/-- Residuals are the same when they are of one kind and list the same entries. -/
def same : Residual → Residual → Bool
  | .satisfied, .satisfied => true
  | .pending a, .pending b => a.same b
  | .conflict a, .conflict b => a.same b
  | _, _ => false

instance : BEq Residual := ⟨same⟩

/-- The residual of one constraint whose value is missing. -/
def waitFor (c : Constraint) : Residual :=
  .pending (.single c.path c)

/-- The residual of one constraint that a value violates. -/
def violated (c : Constraint) (witness : Value) : Residual :=
  .conflict (.single c.path ⟨c, witness⟩)

/-- The residual that waits for some constraints; without any it is satisfied. -/
def ofPending (constraints : Filed Constraint) : Residual :=
  if constraints.isEmpty then .satisfied else .pending constraints

/-- Whether a residual is satisfied. -/
def isSatisfied : Residual → Bool
  | .satisfied => true
  | _ => false

/-- Whether a residual is final, whatever is added to the document. -/
def isDecided : Residual → Bool
  | .pending _ => false
  | _ => true

/-- The number of constraints that wait for missing values. -/
def pendingCount : Residual → Nat
  | .pending constraints => constraints.count
  | _ => 0

/-- Name of the kind of a residual. -/
def kindText : Residual → String
  | .satisfied => "satisfied"
  | .pending _ => "open"
  | .conflict _ => "conflict"

/-! ## Written forms -/

/-- A violation as a value. -/
def violationValue (v : Violation) : Value :=
  .ofEntries
    [(.string "constraint", .string (String.ofList v.constraint.text)),
      (.string "witness", v.witness)]

/-- Filed entries as an object from texts of paths to arrays. -/
def filedValue (filed : Filed Value) : Value :=
  .ofEntries (filed.map fun under => (.string (String.ofList under.1.text), .array under.2))

/-- A residual as a value. -/
def toValue : Residual → Value
  | .satisfied => .string "satisfied"
  | .pending constraints =>
    .ofEntries
      [(.string "open", filedValue (constraints.mapEntries fun c => .string (String.ofList c.text)))]
  | .conflict violations =>
    .ofEntries [(.string "conflict", filedValue (violations.mapEntries violationValue))]

/-- One line of the text of a residual. -/
def lineText (path : Path) (entry : List Char) : List Char :=
  "\n  ".toList ++ path.text ++ ':' :: ' ' :: entry

/-- Text of a violation. -/
def violationText [Json.Library] (v : Violation) : List Char :=
  v.constraint.text ++ " (got ".toList ++ Json.compact v.witness ++ [')']

/-- Text of a residual: its kind, and a line for each entry. -/
def text [Json.Library] : Residual → List Char
  | .satisfied => "satisfied".toList
  | .pending constraints =>
    "open".toList ++ constraints.toList.flatMap fun (path, c) => lineText path c.text
  | .conflict violations =>
    "conflict".toList ++ violations.toList.flatMap fun (path, v) => lineText path (violationText v)

/-! ## Conjunction and disjunction -/

/-- Whether violations begin at a lower path than others. Violations without any path are lowest. -/
def beginsLower (violations others : Filed Violation) : Bool :=
  match violations.first?, others.first? with
  | _, none => false
  | none, some _ => true
  | some p, some q => compare p q == .lt

/-- The violations that a conjunction reports of two parts: those that begin at the lower path, and
the earlier ones where both begin at the same. -/
def lowerOf (earlier later : Filed Violation) : Filed Violation :=
  if beginsLower later earlier then later else earlier

/-- One further part of a conjunction. A conflict outweighs everything that is open. -/
def also : Residual → Residual → Residual
  | .satisfied, r => r
  | r, .satisfied => r
  | .pending a, .pending b => .pending (a.merge b)
  | .pending _, .conflict b => .conflict b
  | .conflict a, .pending _ => .conflict a
  | .conflict a, .conflict b => .conflict (lowerOf a b)

/-- The residual of a conjunction, from those of its parts. -/
def conjoin (parts : List Residual) : Residual :=
  parts.foldl also .satisfied

@[simp]
theorem satisfied_also (r : Residual) : also .satisfied r = r := by
  cases r <;> rfl

@[simp]
theorem also_satisfied (r : Residual) : also r .satisfied = r := by
  cases r <;> rfl

/-- One further part of a disjunction. Of two open parts the one with fewer constraints is reported,
the earlier one if they have equally many. -/
def otherwise : Residual → Residual → Residual
  | .satisfied, _ => .satisfied
  | _, .satisfied => .satisfied
  | .conflict a, .conflict b => .conflict (a.merge b)
  | .conflict _, .pending b => .pending b
  | .pending a, .conflict _ => .pending a
  | .pending a, .pending b => .pending (if b.count < a.count then b else a)

/-- The residual of a disjunction, from those of its parts. -/
def disjoin (parts : List Residual) : Residual :=
  parts.foldl otherwise (.conflict [])

end Residual

/-! ## Quantifiers -/

/-- What one element of a collection means for a quantifier. -/
inductive Verdict where
  /-- The element decides the whole. -/
  | decides (r : Residual)
  /-- The element leaves constraints open and violations to report in case no other element helps. -/
  | adds (pending : Filed Constraint) (violations : Filed Violation)
  deriving Repr

namespace Quantifier

/-- What an element means for a quantifier, from the residuals of the filter and the body on it. An
element that fails the filter means nothing, and neither does one that the body leaves without
consequence. As long as the filter is open, the element cannot decide, and what the filter waits for
is open, too. -/
def verdict : Quantifier → Residual → Residual → Verdict
  | _, .conflict _, _ => .adds [] []
  | .universal, _, .satisfied => .adds [] []
  | .universal, .satisfied, .conflict violations => .decides (.conflict violations)
  | .universal, .pending waiting, .conflict _ => .adds waiting []
  | .existential, .satisfied, .satisfied => .decides .satisfied
  | .existential, .pending waiting, .satisfied => .adds waiting []
  | .existential, _, .conflict violations => .adds [] violations
  | _, .satisfied, .pending constraints => .adds constraints []
  | _, .pending waiting, .pending constraints => .adds (constraints.merge waiting) []

/-- The residual when no element has decided. `unmatched` is reported where an existential quantifier
has nothing else to report. -/
def conclude (quantifier : Quantifier) (pending : Filed Constraint) (violations : Filed Violation)
    (unmatched : Residual) : Residual :=
  if pending.isEmpty then
    match quantifier with
    | .universal => .satisfied
    | .existential => if violations.isEmpty then unmatched else .conflict violations
  else .pending pending

end Quantifier

end ResidualPolicy
