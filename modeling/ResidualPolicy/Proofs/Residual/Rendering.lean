import Mathlib.Data.List.Perm.Basic
import ResidualPolicy.Proofs.Evaluation.Legibility
import ResidualPolicy.Proofs.Residual.Sameness

/-!
# Residuals as values

As a value, a residual is an object that maps texts of paths to arrays, and the constraints in these
are texts as well. Nothing is lost that way: different paths have different texts, so that none takes
the place of another (`Filed.perm_rendered`), and residuals that are rendered as equal values are the
same (`Residual.beq_of_toValue`). Both rest on legible paths and constraints, which are what evaluations
of policies and documents of integers report.
-/

namespace ResidualPolicy

/-- Texts that are equal as values are equal. -/
theorem text_eq_of_beq {cs ds : List Char}
    (h : (Value.string (String.ofList cs) == .string (String.ofList ds)) = true) : cs = ds :=
  (String.ofList_injective (Value.string.inj (Value.eq_of_string_beq h))).symm

/-! ## Filed entries -/

namespace Filed

variable {α : Type} {constraintOf : α → Constraint} {render : α → Value}

/-- A path and the entries under it as they stand in the rendered object. -/
def renderUnder (under : Path × List Value) : Value × Value :=
  (.string (String.ofList under.1.text), .array under.2)

/-- The entries of the rendered object. -/
def rendered (filed : Filed Value) : List (Value × Value) :=
  Ascending.ofEntries (filed.map renderUnder)

/-- Equal rendered paths have one text. -/
theorem text_eq_of_compare {under other : Path × List Value}
    (h : Value.compare (renderUnder under).1 (renderUnder other).1 = .eq) :
    under.1.text = other.1.text :=
  text_eq_of_beq (Value.beq_iff.mpr h)

theorem IsLegible.mapEntries {filed : Filed α} (legible : filed.IsLegible constraintOf) :
    ∀ under ∈ filed.mapEntries render, under.1.IsLegible :=
  List.forall_mem_map.mpr fun under member => (legible under member).1

theorem ascending_mapEntries {filed : Filed α}
    (ascending : Ascending.IsAscending (Ascending.keys filed)) :
    Ascending.IsAscending (Ascending.keys (filed.mapEntries render)) := by
  have kept : Ascending.keys (filed.mapEntries render) = Ascending.keys filed := by
    rw [Ascending.keys, mapEntries, List.map_map]
    rfl
  rw [kept]
  exact ascending

/-- Every path of a filing has an entry of its own in the rendered object, and that object has no
others. -/
theorem perm_rendered {filed : Filed Value}
    (ascending : Ascending.IsAscending (Ascending.keys filed))
    (legible : ∀ under ∈ filed, under.1.IsLegible) :
    filed.rendered.Perm (filed.map renderUnder) := by
  refine Ascending.perm_ofEntries (List.pairwise_map.mpr ?_)
  refine (List.pairwise_map.mp ascending).imp_of_mem fun {under other} first second lower => ?_
  rw [Bool.eq_false_iff]
  intro same
  have text := text_eq_of_compare (Ascending.sameKey_iff.mp same)
  have equal : compare under.1 other.1 = .eq :=
    beq_iff_eq.mp (Path.beq_of_text (legible under first) (legible other second) text.symm)
  rw [equal] at lower
  exact nomatch lower

variable [BEq α]

/-- What a path and its entries are rendered as determines them. -/
theorem sameUnder_of_rendered {under other : Path × List α}
    (faithful : ∀ x ∈ under.2, ∀ y ∈ other.2, (render x == render y) = true → (x == y) = true)
    (here : under.1.IsLegible) (there : other.1.IsLegible)
    (keys : Value.compare (renderUnder (under.1, under.2.map render)).1
      (renderUnder (other.1, other.2.map render)).1 = .eq)
    (entries : Value.compare (.array (under.2.map render)) (.array (other.2.map render)) = .eq) :
    SameUnder under other := by
  refine ⟨Path.beq_of_text here there (text_eq_of_compare keys), beq_iff_forall₂.mpr ?_⟩
  have items := Value.compareItems_eq_eq_iff.mp entries
  rw [List.forall₂_map_left_iff, List.forall₂_map_right_iff] at items
  exact forall₂_imp_of_mem items fun x hx y hy same => faithful x hx y hy (Value.beq_iff.mpr same)

/-- Filings that are rendered as equal objects list the same. The objects are sorted by texts, so their
entries are brought back into the order of the paths first. -/
theorem forall₂_of_rendered {a b : Filed α} (ha : Ascending.IsAscending (Ascending.keys a))
    (hb : Ascending.IsAscending (Ascending.keys b)) (legible : a.IsLegible constraintOf)
    (legible' : b.IsLegible constraintOf)
    (faithful : ∀ x y, (constraintOf x).IsLegible → (constraintOf y).IsLegible →
      (render x == render y) = true → (x == y) = true)
    (h : (Value.object (a.mapEntries render).rendered ==
      .object (b.mapEntries render).rendered) = true) : List.Forall₂ SameUnder a b := by
  have entries := Value.compareEntries_eq_eq_iff.mp (Value.beq_iff.mp h)
  have ascending : Ascending.IsAscending (Ascending.keys (a.mapEntries render)) :=
    ascending_mapEntries ha
  have ascending' : Ascending.IsAscending (Ascending.keys (b.mapEntries render)) :=
    ascending_mapEntries hb
  have kept := perm_rendered ascending legible.mapEntries
  have kept' := perm_rendered ascending' legible'.mapEntries
  obtain ⟨sorted, matched, reordered⟩ := List.perm_comp_forall₂ kept.symm entries
  obtain ⟨rest, rfl, perm⟩ : ∃ rest : Filed α,
      sorted = (rest.mapEntries render).map renderUnder ∧ List.Perm rest b := by
    have whole := reordered.trans kept'
    rw [mapEntries, List.map_map] at whole
    obtain ⟨rest, image, perm⟩ : Relation.Comp (· = List.map _ ·) List.Perm sorted b := by
      rw [List.eq_map_comp_perm]
      exact whole
    exact ⟨rest, by rw [image, mapEntries, List.map_map], perm⟩
  have same : List.Forall₂ SameUnder a rest := by
    rw [mapEntries, mapEntries, List.map_map, List.map_map, List.forall₂_map_left_iff,
      List.forall₂_map_right_iff] at matched
    refine forall₂_imp_of_mem matched fun under member other among both => ?_
    obtain ⟨path, each⟩ := legible under member
    obtain ⟨path', each'⟩ := legible' other (perm.subset among)
    exact sameUnder_of_rendered (fun x hx y hy => faithful x y (each x hx) (each' y hy)) path path'
      both.1 both.2
  have paths : List.Forall₂ (fun p q => compare p q = .eq) (Ascending.keys rest)
      (Ascending.keys a) := by
    rw [Ascending.keys, Ascending.keys, List.forall₂_map_left_iff, List.forall₂_map_right_iff]
    exact (same.imp fun _ _ both => Std.OrientedCmp.eq_symm (beq_iff_eq.mp both.1)).flip
  have inOrder := (Ascending.isAscending_congr paths ha).eq_of_perm hb perm
  exact inOrder ▸ same

end Filed

/-! ## Residuals -/

namespace Residual

/-- What a residual lists, each entry as a value. -/
def listing : Residual → Filed Value
  | .satisfied => []
  | .pending constraints => constraints.mapEntries fun c => .string (String.ofList c.text)
  | .conflict violations => violations.mapEntries violationValue

theorem toValue_pending (constraints : Filed Constraint) :
    (pending constraints).toValue =
      .object [(.string "open", .object (pending constraints).listing.rendered)] := rfl

theorem toValue_conflict (violations : Filed Violation) :
    (conflict violations).toValue =
      .object [(.string "conflict", .object (conflict violations).listing.rendered)] := rfl

/-- Objects with one entry each are equal if the entries are. -/
theorem beq_of_object_singleton {k l v w : Value}
    (h : (Value.object [(k, v)] == .object [(l, w)]) = true) :
    (k == l) = true ∧ (v == w) = true := by
  have entries := Value.compareEntries_eq_eq_iff.mp (Value.beq_iff.mp h)
  rw [List.forall₂_cons] at entries
  exact ⟨Value.beq_iff.mpr entries.1.1, Value.beq_iff.mpr entries.1.2⟩

/-- Objects with one entry each that are equal have one name for it. -/
theorem name_eq_of_beq {name other : String} {v w : Value}
    (h : (Value.object [(.string name, v)] == .object [(.string other, w)]) = true) : other = name :=
  Value.string.inj (Value.eq_of_string_beq (beq_of_object_singleton h).1)

theorem violationValue_eq (v : Violation) :
    violationValue v = .object [(.string "constraint", .string (String.ofList v.constraint.text)),
      (.string "witness", v.witness)] := rfl

theorem beq_of_violationValue {v w : Violation} (hv : v.constraint.IsLegible)
    (hw : w.constraint.IsLegible) (h : (violationValue v == violationValue w) = true) :
    (v == w) = true := by
  rw [violationValue_eq, violationValue_eq] at h
  have entries := Value.compareEntries_eq_eq_iff.mp (Value.beq_iff.mp h)
  rw [List.forall₂_cons, List.forall₂_cons] at entries
  obtain ⟨⟨-, constraint⟩, ⟨-, witness⟩, -⟩ := entries
  have text := text_eq_of_beq (Value.beq_iff.mpr constraint)
  exact Bool.and_eq_true_iff.mpr
    ⟨Constraint.beq_of_text hv hw text, Value.beq_iff.mpr witness⟩

/-- Legible residuals that are rendered as equal values are the same. -/
theorem beq_of_toValue {r s : Residual} (hr : r.WellFormed) (hs : s.WellFormed)
    (legible : r.IsLegible) (legible' : s.IsLegible) (h : (r.toValue == s.toValue) = true) :
    (r == s) = true := by
  rw [beq_iff_sameAs]
  cases hr with
  | satisfied =>
    cases hs with
    | satisfied => exact .satisfied
    | pending => exact nomatch Value.kind_eq_of_beq h
    | conflict => exact nomatch Value.kind_eq_of_beq h
  | pending filed =>
    cases hs with
    | satisfied => exact nomatch Value.kind_eq_of_beq h
    | pending filed' =>
      refine .pending (Filed.forall₂_of_rendered filed.ascending filed'.ascending legible legible'
        (fun c d hc hd same => Constraint.beq_of_text hc hd (text_eq_of_beq same))
        (beq_of_object_singleton h).2)
    | conflict filed' => exact absurd (name_eq_of_beq h) (by decide)
  | conflict filed =>
    cases hs with
    | satisfied => exact nomatch Value.kind_eq_of_beq h
    | pending filed' => exact absurd (name_eq_of_beq h) (by decide)
    | conflict filed' =>
      exact .conflict (Filed.forall₂_of_rendered filed.ascending filed'.ascending legible legible'
        (fun v w => beq_of_violationValue) (beq_of_object_singleton h).2)

/-- The entries of a rendered residual are those that it lists, one for each path. -/
theorem exists_toValue_eq {r : Residual} (hr : r.WellFormed) (legible : r.IsLegible)
    (undecided : r ≠ .satisfied) :
    ∃ entries, r.toValue = .object [(.string r.kindText, .object entries)] ∧
      entries.Perm (r.listing.map Filed.renderUnder) := by
  cases hr with
  | satisfied => exact absurd rfl undecided
  | pending filed =>
    exact ⟨_, toValue_pending _, Filed.perm_rendered (Filed.ascending_mapEntries filed.ascending)
      (Filed.IsLegible.mapEntries legible)⟩
  | conflict filed =>
    exact ⟨_, toValue_conflict _, Filed.perm_rendered (Filed.ascending_mapEntries filed.ascending)
      (Filed.IsLegible.mapEntries legible)⟩

theorem isLegible_of_mem_listing {r : Residual} (legible : r.IsLegible) :
    ∀ under ∈ r.listing, under.1.IsLegible := by
  cases r with
  | satisfied => exact nofun
  | pending constraints => exact Filed.IsLegible.mapEntries legible
  | conflict violations => exact Filed.IsLegible.mapEntries legible

end Residual

namespace Policy

/-- Residuals of evaluations over integers are the same if they are rendered as equal values. Different
paths have different texts in them, and the rendered object holds the entries of every path. -/
theorem toValue_faithful {registry other : Registry} {p q : Policy} {document document' : Value}
    {r s : Residual} (hp : p.IsIntegral document) (hq : q.IsIntegral document')
    (hr : p.evaluate registry document = .ok r) (hs : q.evaluate other document' = .ok s) :
    ((r.toValue == s.toValue) = true → (r == s) = true) ∧
      (∀ under ∈ r.listing, ∀ under' ∈ s.listing,
        under.1.text = under'.1.text → (under.1 == under'.1) = true) ∧
      (r ≠ .satisfied → ∃ entries, r.toValue = .object [(.string r.kindText, .object entries)] ∧
        entries.Perm (r.listing.map Filed.renderUnder)) := by
  have legible := isLegible_of_evaluate hp hr
  have legible' := isLegible_of_evaluate hq hs
  have filed := wellFormed_of_evaluateAt hr
  refine ⟨?_, fun under member under' member' => ?_, ?_⟩
  · exact Residual.beq_of_toValue filed (wellFormed_of_evaluateAt hs) legible legible'
  · exact Path.beq_of_text (Residual.isLegible_of_mem_listing legible under member)
      (Residual.isLegible_of_mem_listing legible' under' member')
  · exact Residual.exists_toValue_eq filed legible

/-- An index, a name of the same digit and a name that has to be quoted stand under one key; one
constraint is negated. -/
theorem toValue_faithful_of_digits :
    let doc : Value := .string "doc"
    let low : Constraint := { path := ⟨[doc, .ofNat 0]⟩, operator := "<", operand := .ofNat 1 }
    let named : Constraint :=
      { path := ⟨[doc, .string "0"]⟩, operator := "=", operand := .string "\"" }
    let quoted : Constraint :=
      { path := ⟨[doc, .string ":0"]⟩, operator := "in", operand := .set [.null, doc] }
    let p : Policy := .connected .conjunction [.negation (.leaf low), .leaf named, .leaf quoted]
    let q : Policy := .connected .conjunction [.leaf quoted, p]
    let document : Value := .object [(.string "other", .array [.ofNat 7])]
    let r : Residual := .pending [(low.path, [{ low with negated := true }]), (named.path, [named]),
      (quoted.path, [quoted])]
    p.IsIntegral document ∧ q.IsIntegral document ∧ p.evaluate .builtins document = .ok r ∧
      q.evaluate .builtins document = .ok r ∧ (r == r) = true ∧ r ≠ .satisfied ∧
      ∃ entries, r.toValue = .object [(.string r.kindText, .object entries)] ∧
        entries.Perm (r.listing.map Filed.renderUnder) := by
  intro doc low named quoted p q document r
  have hp : p.IsIntegral document := ⟨by decide +kernel, by decide +kernel, by decide +kernel,
    by decide +kernel, by decide +kernel⟩
  have hq : q.IsIntegral document := ⟨by decide +kernel, by decide +kernel, by decide +kernel,
    by decide +kernel, by decide +kernel⟩
  have hr : p.evaluate .builtins document = .ok r := rfl
  have hs : q.evaluate .builtins document = .ok r := rfl
  obtain ⟨faithful, -, complete⟩ := toValue_faithful hp hq hr hs
  exact ⟨hp, hq, hr, hs, faithful BEq.rfl, nofun, complete nofun⟩

end Policy

end ResidualPolicy
