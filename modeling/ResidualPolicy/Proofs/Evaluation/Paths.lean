import ResidualPolicy.Proofs.Evaluation.Contents
import ResidualPolicy.Proofs.Value.Places

/-!
# Reported paths lead back into the document

The paths of a residual are paths of the whole document, however deep in collections the constraints
stand that are reported. What waits is missing at its path, and what is violated is violated by the
value at its path, except for counts, which report a number of elements
(`Policy.find?_of_reported`).

Every call of an evaluation evaluates what stands at its place in the document (`Call.IsAt`): the root
does, and a call hands that on to the calls that it makes, since the key of an element leads to the
element. A report joins the place of its call and a path of the policy, so it can be looked up in the
document of that call.

Two conditions on the document are conditions on how values are held: sets and objects are ascending,
and no array is too long for an index of 64 bits.
-/

namespace ResidualPolicy

theorem countPassing_le {filter : AtPlace} {elements : List (Path × Value)} {count : Nat}
    (h : countPassing filter elements = .ok count) : count ≤ elements.length := by
  induction elements generalizing count with
  | nil =>
    rw [countPassing] at h
    exact Nat.le_of_eq (Except.ok.inj h).symm
  | cons element rest ih =>
    rw [countPassing] at h
    obtain ⟨r, -, h⟩ := bind_eq_ok h
    obtain ⟨later, counted, h⟩ := bind_eq_ok h
    have below := ih counted
    rw [← Except.ok.inj h, List.length_cons]
    split <;> omega

namespace Call

variable {registry : Registry} {document : Value} {call other : Call}

/-! ## Places of calls -/

/-- The call evaluates what stands at its place in a document. -/
structure IsAt (document : Value) (call : Call) : Prop where
  found : call.place.find? document = some call.document
  ordered : call.document.IsOrdered
  indexable : call.document.HasIndexableArrays

theorem isAt_root (p : Policy) (positive : Bool) (ordered : document.IsOrdered)
    (indexable : document.HasIndexableArrays) : IsAt document ⟨p, document, .root, positive⟩ where
  found := rfl
  ordered := ordered
  indexable := indexable

/-- What is found at a path in the document of a call is found at the joined path in the whole. -/
theorem IsAt.find?_join (h : call.IsAt document) (path : Path) :
    (call.place.join path).find? document = path.find? call.document := by
  rw [Path.find?_join, h.found]
  rfl

/-- An element of a collection stands at its place. -/
theorem IsAt.element (h : call.IsAt document) {path : Path} {collection : Value}
    {elements : List (Value × Value)} {element : Path × Value}
    (there : path.find? call.document = some collection)
    (listed : collection.elements? = some elements)
    (member : element ∈ placedElements (call.place.join path) elements) (p : Policy)
    (positive : Bool) : IsAt document ⟨p, element.2, element.1, positive⟩ := by
  obtain ⟨keyed, among, rfl⟩ := List.mem_map.mp member
  have ordered : collection.IsOrdered := Value.forall_parts_lookup? h.ordered there
  have indexable : collection.HasIndexableArrays := Value.forall_parts_lookup? h.indexable there
  refine ⟨?_, Value.forall_parts_elements? ordered listed keyed among,
    Value.forall_parts_elements? indexable listed keyed among⟩
  rw [Path.find?_child, h.find?_join, there]
  exact Value.get?_of_mem_elements? ordered indexable listed among

theorem Makes.isAt (makes : call.Makes registry other) (h : call.IsAt document) :
    other.IsAt document := by
  cases makes with
  | part joined member => exact ⟨h.found, h.ordered, h.indexable⟩
  | alternative joined comes => exact ⟨h.found, h.ordered, h.indexable⟩
  | negation => exact ⟨h.found, h.ordered, h.indexable⟩
  | filter there listed comes => exact h.element there listed comes.mem _ _
  | body there listed comes passes => exact h.element there listed comes.mem _ _
  | counted there listed member => exact h.element there listed member _ _

/-! ## Reports -/

/-- The violation of a count over a collection. What it reports as found is a number, which is not above
the size of the collection. -/
inductive Counts : Call → Value → Violation → Prop where
  | counted {path : Path} {filter : Option Policy} {comparator : String}
      {operand document collection : Value} {place : Path} {positive : Bool}
      {elements : List (Value × Value)} {count : Nat} (listed : collection.elements? = some elements)
      (bounded : count ≤ elements.length) :
      Counts ⟨.counted path filter comparator operand, document, place, positive⟩ collection
        ⟨Policy.countConstraint (place.join path) comparator operand positive, .ofNat count⟩

/-- Nothing is found at the path of a constraint that waits. -/
theorem Waits.find?_eq_none {c : Constraint} (waits : call.Waits c) (h : call.IsAt document) :
    c.path.find? document = none := by
  cases waits with
  | leaf missing =>
    rw [Constraint.path_withPolarity]
    exact (h.find?_join _).trans missing
  | quantified missing => exact (h.find?_join _).trans missing
  | counted missing =>
    rw [Policy.path_countConstraint]
    exact (h.find?_join _).trans missing

/-- What a violation reports is found at its path, or it is the number of elements of a collection that
is found there. -/
theorem Fails.find?_eq_some {v : Violation} (fails : call.Fails registry v)
    (h : call.IsAt document) :
    ∃ found, v.path.find? document = some found ∧ (v.witness = found ∨ call.Counts found v) := by
  cases fails with
  | leaf there registered failed =>
    refine ⟨_, ?_, .inl rfl⟩
    rw [Violation.path, Constraint.path_withPolarity]
    exact (h.find?_join _).trans there
  | quantified there => exact ⟨_, (h.find?_join _).trans there, .inl rfl⟩
  | scalar there scalar =>
    refine ⟨_, ?_, .inl rfl⟩
    rw [Violation.path, Policy.path_countConstraint]
    exact (h.find?_join _).trans there
  | counted there listed counted registered failed =>
    have bounded := countPassing_le counted
    rw [placedElements, List.length_map] at bounded
    refine ⟨_, ?_, .inr (.counted listed bounded)⟩
    rw [Violation.path, Policy.path_countConstraint]
    exact (h.find?_join _).trans there

end Call

namespace Policy

variable {registry : Registry} {document : Value}

/-- Every path of an open residual is missing in the document. Every path of a conflict leads to a
value, which is what the violations there report, or a collection for those of counts. -/
theorem find?_of_reported {p : Policy} {r : Residual} (ordered : document.IsOrdered)
    (indexable : document.HasIndexableArrays) (evaluated : p.evaluate registry document = .ok r) :
    (∀ constraints, r = .pending constraints → ∀ under ∈ constraints,
      under.1.find? document = none ∧ ∀ c ∈ under.2, c.path.find? document = none) ∧
    ∀ violations, r = .conflict violations → ∀ under ∈ violations, ∃ found,
      under.1.find? document = some found ∧ ∀ v ∈ under.2, v.path.find? document = some found ∧
        (v.witness = found ∨ ∃ origin,
          Call.Visits registry ⟨p, document, .root, true⟩ origin ∧ origin.Counts found v) := by
  have start := Call.isAt_root p true ordered indexable
  have yields := Call.yields_of_evaluateAt evaluated
  have missing (c : Constraint) (h : Call.Awaits registry ⟨p, document, .root, true⟩ c) :
      c.path.find? document = none := by
    obtain ⟨origin, visits, waits⟩ := h
    exact waits.find?_eq_none (visits.preserves Call.Makes.isAt start)
  have present (v : Violation) (h : Call.Violates registry ⟨p, document, .root, true⟩ v) :
      ∃ found, v.path.find? document = some found ∧ (v.witness = found ∨ ∃ origin,
        Call.Visits registry ⟨p, document, .root, true⟩ origin ∧ origin.Counts found v) := by
    obtain ⟨origin, visits, fails⟩ := h
    obtain ⟨found, there, reported⟩ := fails.find?_eq_some (visits.preserves Call.Makes.isAt start)
    exact ⟨found, there, reported.imp id fun counts => ⟨origin, visits, counts⟩⟩
  constructor
  · rintro constraints rfl under member
    obtain ⟨⟨c, awaited, same⟩, each⟩ := yields under member
    exact ⟨same ▸ missing c awaited, fun c among => missing c (each c among)⟩
  · rintro violations rfl under member
    obtain ⟨⟨v, violated, same⟩, each⟩ := yields under member
    obtain ⟨found, there, -⟩ := present v violated
    rw [same] at there
    refine ⟨found, there, fun w among => ?_⟩
    obtain ⟨other, there', reported⟩ := present w (each w among)
    -- The path of an entry may be another form of the path that it is filed under.
    have filed : (w.path == under.1) = true := by
      cases wellFormed_of_evaluateAt evaluated with
      | conflict filed => exact (filed.kept under member).placed w among
    have equal := Path.isSteady_of_find? there w.path filed other there'
    rw [there] at equal
    cases equal
    exact ⟨there', reported⟩

/-- Hosts in a set, each with its ports in an array, and no host that is named or has several ports. -/
theorem find?_of_reported_of_hosts :
    let hosts : Value := .string "hosts"
    let ports : Value := .string "ports"
    let several : Policy := .counted ⟨[ports]⟩ none ">=" (.ofNat 2)
    let named : Policy :=
      .leaf { path := ⟨[.string "name"]⟩, operator := "=", operand := .string "web" }
    let p : Policy := .quantified .existential ⟨[hosts]⟩ none (.connected .disjunction [several, named])
    let host : Value := .object [(.string "name", .string "db"), (ports, .array [.ofNat 80])]
    let document : Value := .object [(hosts, .set [host])]
    let violations : Filed Violation :=
      [(⟨[hosts, host, .string "name"]⟩,
          [⟨{ path := ⟨[hosts, host, .string "name"]⟩, operator := "=", operand := .string "web" },
            .string "db"⟩]),
        (⟨[hosts, host, ports]⟩,
          [⟨{ path := ⟨[hosts, host, ports]⟩, operator := ">=", operand := .ofNat 2 }, .ofNat 1⟩])]
    document.IsOrdered ∧ document.HasIndexableArrays ∧
      p.evaluate .builtins document = .ok (.conflict violations) ∧
      ∀ under ∈ violations, ∃ found, under.1.find? document = some found ∧
        ∀ v ∈ under.2, v.path.find? document = some found ∧
          (v.witness = found ∨ ∃ origin,
            Call.Visits .builtins ⟨p, document, .root, true⟩ origin ∧ origin.Counts found v) := by
  intro hosts ports several named p host document violations
  have ordered : document.IsOrdered := by decide +kernel
  have indexable : document.HasIndexableArrays := by decide +kernel
  have evaluated : p.evaluate .builtins document = .ok (.conflict violations) := rfl
  exact ⟨ordered, indexable, evaluated,
    (find?_of_reported ordered indexable evaluated).2 violations rfl⟩

end Policy

end ResidualPolicy
