import ResidualPolicy.Proofs.Policy.Operands
import ResidualPolicy.Proofs.Policy.Sameness
import ResidualPolicy.Proofs.Policy.Text
import ResidualPolicy.Proofs.Value.Places

/-!
# Texts tell apart what they are written from

A value is legible if its text is read as the value. A text is read as one value only, so legible
values with one text are equal, and so are paths and constraints that are made of legible values
(`Path.beq_of_text`, `Constraint.beq_of_text`). Ordered values of integers are legible with all their
parts (`Value.isLegible_of_mem_parts`). What is made of a policy of legible values is made of legible
values: its negation and its expression are.
-/

namespace ResidualPolicy

open Notation (Denotes)

/-- Values that one text denotes are equal. -/
theorem Notation.Denotes.beq {cs : List Char} {v w : Value} (hv : Denotes cs v) (hw : Denotes cs w) :
    (v == w) = true := by
  obtain ⟨read, spells, same, -⟩ := hv
  obtain ⟨again, spells', same', -⟩ := hw
  have one : again = read :=
    Except.ok.inj ((read?_of_spells spells').symm.trans (read?_of_spells spells))
  rw [one] at same'
  exact BEq.trans (BEq.symm (Value.beq_iff.mpr same)) (Value.beq_iff.mpr same')

/-! ## Values -/

namespace Value

/-- The text of the value is read as the value. -/
def IsLegible (v : Value) : Prop :=
  Denotes (Notation.text v) v

theorem isLegible_string (s : String) : (string s).IsLegible :=
  (Notation.spells_string s).denotes

theorem isLegible_array {items : List Value} (each : ∀ v ∈ items, v.IsLegible) :
    (array items).IsLegible :=
  Notation.denotes_bracketed (Notation.denotes_itemTexts each)

theorem isLegible_ofNat {n : Nat} (small : n < Nat.pow 2 63) : (ofNat n).IsLegible := by
  obtain ⟨word, integer, -⟩ := Number.exists_of_toNat? (Number.toNat?_ofNat small)
  refine Notation.denotes_text (List.forall_mem_singleton.mpr trivial)
    (List.forall_mem_singleton.mpr ?_)
  rw [Number.isInteger, integer]
  rfl

/-- What holds of all parts of a value holds of all parts of its parts. -/
theorem forall_parts_of_mem_parts {P : Value → Prop} {v : Value} (each : ∀ part ∈ v.parts, P part) :
    ∀ w ∈ v.parts, ∀ part ∈ w.parts, P part := by
  induction v with
  | array items ih =>
    exact forall_parts_array.mpr ⟨each, fun v member => ih v member
      ((forall_parts_array.mp each).2 v member)⟩
  | set members ih =>
    exact forall_parts_set.mpr ⟨each, fun v member => ih v member
      ((forall_parts_set.mp each).2 v member)⟩
  | object entries ih =>
    refine forall_parts_object.mpr ⟨each, fun entry member => ?_⟩
    obtain ⟨key, field⟩ := (forall_parts_object.mp each).2 entry member
    exact ⟨(ih entry member).1 key, (ih entry member).2 field⟩
  | _ => exact List.forall_mem_singleton.mpr each

theorem isLegible_of_mem_parts {v : Value} (ordered : v.IsOrdered)
    (integral : ∀ n ∈ v.numbers, n.isInteger = true) : ∀ part ∈ v.parts, part.IsLegible :=
  fun part member => Notation.denotes_text (forall_parts_of_mem_parts ordered part member)
    (forall_numbers.mpr (forall_parts_of_mem_parts (forall_numbers.mp integral) part member))

/-- The keys of the elements of a collection are legible: indices and members. -/
theorem isLegible_of_mem_elements? {v : Value} (legible : ∀ part ∈ v.parts, part.IsLegible)
    (indexable : v.HasIndexableArrays) {elements : List (Value × Value)}
    (listed : v.elements? = some elements) {element : Value × Value} (member : element ∈ elements) :
    element.1.IsLegible := by
  cases v with
  | array items =>
    rw [← Option.some.inj listed] at member
    obtain ⟨⟨item, index⟩, among, rfl⟩ := List.mem_map.mp member
    have inside := (List.getElem?_eq_some_iff.mp (List.mem_zipIdx_iff_getElem?.mp among)).1
    exact isLegible_ofNat (Nat.lt_of_lt_of_le inside (forall_parts_array.mp indexable).1)
  | set members =>
    rw [← Option.some.inj listed] at member
    obtain ⟨x, among, rfl⟩ := List.mem_map.mp member
    exact (forall_parts_set.mp legible).2 x among x (self_mem_parts x)
  | _ => exact nomatch listed

end Value

/-! ## Paths and constraints -/

namespace Path

/-- All keys of the path are legible. -/
def IsLegible (p : Path) : Prop :=
  ∀ key ∈ p.keys, key.IsLegible

theorem IsLegible.join {p q : Path} (hp : p.IsLegible) (hq : q.IsLegible) : (p.join q).IsLegible :=
  List.forall_mem_append.mpr ⟨hp, hq⟩

theorem IsLegible.child {p : Path} (hp : p.IsLegible) {key : Value} (legible : key.IsLegible) :
    (p.child key).IsLegible :=
  List.forall_mem_append.mpr ⟨hp, List.forall_mem_singleton.mpr legible⟩

/-- Paths with one text are the same. -/
theorem beq_of_text {p q : Path} (hp : p.IsLegible) (hq : q.IsLegible) (h : p.text = q.text) :
    (p == q) = true :=
  Denotes.beq (denotes_text hp) (h ▸ denotes_text hq)

end Path

namespace Constraint

/-- The path and the operand of the constraint are legible. -/
structure IsLegible (c : Constraint) : Prop where
  path : c.path.IsLegible
  operand : c.operand.IsLegible

theorem IsLegible.withPolarity {c : Constraint} (h : c.IsLegible) (positive : Bool) :
    (c.withPolarity positive).IsLegible where
  path := by
    rw [path_withPolarity]
    exact h.path
  operand := by
    rw [operand_withPolarity]
    exact h.operand

/-- Constraints are the same if their expressions are equal. A negated one has two parts and any other
has three, so the tag of a negation is no operator by mistake. -/
theorem beq_of_expr {c d : Constraint} (h : (c.expr == d.expr) = true) : (c == d) = true := by
  have items {xs ys : List Value} (same : (Value.array xs == Value.array ys) = true) :
      List.Forall₂ (fun x y => (x == y) = true) xs ys :=
    (Value.compareItems_eq_eq_iff.mp (Value.beq_iff.mp same)).imp fun _ _ => Value.beq_iff.mpr
  have leaf (same : (Value.array [.string c.operator, c.path.toValue, c.operand] ==
      .array [.string d.operator, d.path.toValue, d.operand]) = true)
      (negated : c.negated = d.negated) : (c == d) = true := by
    have parts := items same
    rw [List.forall₂_cons, List.forall₂_cons, List.forall₂_cons] at parts
    obtain ⟨named, placed, compared, -⟩ := parts
    have operator := Value.string.inj (Value.eq_of_string_beq named)
    exact beq_iff.mpr ⟨placed, operator.symm, compared, negated⟩
  unfold expr at h
  cases hc : c.negated <;> cases hd : d.negated <;> rw [hc, hd] at h
  · exact leaf h (hc.trans hd.symm)
  · exact nomatch (items h).length_eq
  · exact nomatch (items h).length_eq
  · have parts := items h
    rw [List.forall₂_cons, List.forall₂_cons] at parts
    exact leaf parts.2.1 (hc.trans hd.symm)

/-- Constraints with one text are the same. -/
theorem beq_of_text {c d : Constraint} (hc : c.IsLegible) (hd : d.IsLegible) (h : c.text = d.text) :
    (c == d) = true :=
  beq_of_expr (Denotes.beq (denotes_text hc.operand hc.path) (h ▸ denotes_text hd.operand hd.path))

end Constraint

/-! ## Policies -/

namespace Policy

/-- All values in the policy are legible. -/
def IsLegible (p : Policy) : Prop :=
  ∀ v ∈ p.values, v.IsLegible

theorem isLegible_expr {p : Policy} (h : p.IsLegible) : p.expr.IsLegible :=
  expr_of_values Value.isLegible_string Value.isLegible_array h

variable {P : Value → Prop}

theorem forall_values_quantified {quantifier : Quantifier} {path : Path} {filter : Option Policy}
    {body : Policy} : (∀ v ∈ (quantified quantifier path filter body).values, P v) ↔
      (∀ key ∈ path.keys, P key) ∧ (∀ f ∈ filter, ∀ v ∈ f.values, P v) ∧ ∀ v ∈ body.values, P v := by
  cases filter <;> simp only [values, List.forall_mem_append] <;> simp

theorem forall_values_counted {path : Path} {filter : Option Policy} {comparator : String}
    {operand : Value} : (∀ v ∈ (counted path filter comparator operand).values, P v) ↔
      P operand ∧ (∀ key ∈ path.keys, P key) ∧ ∀ f ∈ filter, ∀ v ∈ f.values, P v := by
  cases filter <;> simp only [values, List.forall_mem_cons, List.forall_mem_append] <;> simp

/-- A negation has the values of what it negates. -/
theorem forall_values_negate {p : Policy} (each : ∀ v ∈ p.values, P v) :
    ∀ v ∈ p.negate.values, P v := by
  induction p with
  | leaf c =>
    rw [negate]
    cases exact : c.inverse? with
    | none => exact each
    | some d =>
      rw [← Constraint.inverse_of_inverse? exact]
      dsimp only
      rw [values, Constraint.operand_inverse, Constraint.path_inverse]
      exact each
  | connected connective parts ih =>
    rw [negate, values, negateParts_eq_map, forall_valuesOf]
    refine List.forall_mem_map.mpr fun p member => ih p member ?_
    exact forall_valuesOf.mp each p member
  | negation p ih => exact each
  | quantified quantifier path filter body ihFilter ihBody =>
    obtain ⟨keys, selects, inner⟩ := forall_values_quantified.mp each
    exact forall_values_quantified.mpr ⟨keys, selects, ihBody inner⟩
  | counted path filter comparator operand ih =>
    rw [negate]
    cases inverseComparator? comparator with
    | none => exact each
    | some inverse => exact forall_values_counted.mpr (forall_values_counted.mp each)

theorem IsLegible.withPolarity {p : Policy} (h : p.IsLegible) (positive : Bool) :
    (p.withPolarity positive).IsLegible := by
  cases positive with
  | true => exact h
  | false => exact forall_values_negate h

end Policy

end ResidualPolicy
