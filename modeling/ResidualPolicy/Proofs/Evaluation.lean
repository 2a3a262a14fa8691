import ResidualPolicy.Proofs.Policy.Induction
import ResidualPolicy.Proofs.Registry
import ResidualPolicy.Proofs.Residual.Conjunction

/-!
# Evaluations return, and return well-formed residuals

A policy whose operators are all registered has a residual on every document (`evaluateAt_ok`), and
every residual that an evaluation returns is well-formed (`wellFormed_of_evaluateAt`). Both follow
the walk through the policy; for quantifiers they rest on what is true of one element.
-/

namespace ResidualPolicy

universe u v

/-! ## Steps that may fail -/

section Binds

variable {ε : Type u} {α : Type v} {β : Type v}

@[simp]
theorem ok_bind (a : α) (f : α → Except ε β) : (Except.ok a >>= f) = f a := rfl

@[simp]
theorem error_bind (e : ε) (f : α → Except ε β) : (Except.error e >>= f) = .error e := rfl

theorem bind_eq_ok {x : Except ε α} {f : α → Except ε β} {b : β} (h : (x >>= f) = .ok b) :
    ∃ a, x = .ok a ∧ f a = .ok b := by
  cases x with
  | error e => exact nomatch h
  | ok a => exact ⟨a, rfl, h⟩

theorem bind_eq_error {x : Except ε α} {f : α → Except ε β} {e : ε} (h : (x >>= f) = .error e) :
    x = .error e ∨ ∃ a, x = .ok a ∧ f a = .error e := by
  cases x with
  | error failed => exact .inl (congrArg Except.error (Except.error.inj h))
  | ok a => exact .inr ⟨a, rfl, h⟩

theorem map_eq_ok {x : Except ε α} {f : α → β} {b : β} (h : x.map f = .ok b) :
    ∃ a, x = .ok a ∧ f a = b := by
  cases x with
  | error e => exact nomatch h
  | ok a => exact ⟨a, rfl, Except.ok.inj h⟩

theorem map_eq_ok_iff {x : Except ε α} {f : α → β} {b : β} :
    x.map f = .ok b ↔ ∃ a, x = .ok a ∧ f a = b := by
  constructor
  · exact map_eq_ok
  · rintro ⟨a, rfl, rfl⟩
    rfl

theorem eq_ok_of_toOption {x : Except ε α} {a : α} (h : x.toOption = some a) : x = .ok a := by
  cases x with
  | error e => exact nomatch h
  | ok b => exact congrArg Except.ok (Option.some.inj h)

end Binds

theorem exists_mem_of_forall₂ {α : Type u} {β : Type v} {related : α → β → Prop} {xs : List α}
    {ys : List β} (h : List.Forall₂ related xs ys) : ∀ y ∈ ys, ∃ x ∈ xs, related x y := by
  induction h with
  | nil => exact fun _ member => absurd member List.not_mem_nil
  | cons first _ ih =>
    refine List.forall_mem_cons.mpr ⟨⟨_, List.mem_cons_self .., first⟩, fun y member => ?_⟩
    obtain ⟨x, among, there⟩ := ih y member
    exact ⟨x, List.mem_cons_of_mem _ among, there⟩

/-- Going through a list from its front, and on behind `y` only if `goesOn y`, one comes to `x`. -/
inductive ComesTo {α : Type u} (goesOn : α → Prop) (x : α) : List α → Prop where
  | here (rest : List α) : ComesTo goesOn x (x :: rest)
  | later {y : α} {rest : List α} (passed : goesOn y) (comes : ComesTo goesOn x rest) :
      ComesTo goesOn x (y :: rest)

namespace ComesTo

variable {α : Type u} {goesOn : α → Prop} {x : α} {xs : List α}

theorem mem (h : ComesTo goesOn x xs) : x ∈ xs := by
  induction h with
  | here rest => exact List.mem_cons_self
  | later _ _ ih => exact List.mem_cons_of_mem _ ih

/-- Where one goes on behind every element, one comes to all of them. -/
theorem of_forall (h : ∀ y ∈ xs, goesOn y) (member : x ∈ xs) : ComesTo goesOn x xs := by
  induction xs with
  | nil => exact absurd member List.not_mem_nil
  | cons y rest ih =>
    obtain ⟨first, others⟩ := List.forall_mem_cons.mp h
    rcases List.mem_cons.mp member with rfl | among
    · exact .here rest
    · exact .later first (ih others among)

end ComesTo

/-! ## One element of a collection -/

/-- A verdict made of well-formed residuals. -/
inductive Verdict.WellFormed : Verdict → Prop where
  | decides {r : Residual} (h : r.WellFormed) : WellFormed (.decides r)
  | adds {pending : Filed Constraint} {violations : Filed Violation}
      (waiting : pending.WellFormed Constraint.path)
      (found : violations.WellFormed Violation.path) : WellFormed (.adds pending violations)

namespace Quantifier

open Filed (wellFormed_nil)

theorem verdict_conflict (quantifier : Quantifier) (failed : Filed Violation) (inner : Residual) :
    quantifier.verdict (.conflict failed) inner = .adds [] [] := by
  cases quantifier <;> rfl

theorem wellFormed_verdict (quantifier : Quantifier) {selected r : Residual}
    (hs : selected.WellFormed) (hr : r.WellFormed) :
    (quantifier.verdict selected r).WellFormed := by
  cases hs with
  | satisfied =>
    cases hr with
    | satisfied =>
      cases quantifier
      exacts [.adds wellFormed_nil wellFormed_nil, .decides .satisfied]
    | pending filed occupied => cases quantifier <;> exact .adds filed wellFormed_nil
    | conflict filed =>
      cases quantifier
      exacts [.decides (.conflict filed), .adds wellFormed_nil filed]
  | pending waiting occupied =>
    cases hr with
    | satisfied =>
      cases quantifier
      exacts [.adds wellFormed_nil wellFormed_nil, .adds waiting wellFormed_nil]
    | pending filed occupied =>
      cases quantifier <;> exact .adds (filed.merge waiting) wellFormed_nil
    | conflict filed =>
      cases quantifier
      exacts [.adds waiting wellFormed_nil, .adds wellFormed_nil filed]
  | conflict filed =>
    cases quantifier <;> exact .adds wellFormed_nil wellFormed_nil

theorem wellFormed_conclude (quantifier : Quantifier) {pending : Filed Constraint}
    {violations : Filed Violation} {unmatched : Residual}
    (waiting : pending.WellFormed Constraint.path)
    (found : violations.WellFormed Violation.path) (hu : unmatched.WellFormed) :
    (quantifier.conclude pending violations unmatched).WellFormed := by
  unfold conclude
  split
  · cases quantifier with
    | universal => exact .satisfied
    | existential =>
      dsimp only
      split
      · exact hu
      · exact .conflict found
  · next occupied => exact .pending waiting fun empty => occupied (List.isEmpty_iff.mpr empty)

/-! ## A whole collection -/

variable {quantifier : Quantifier} {filter body : AtPlace} {unmatched : Residual}

/-- What one element means for a survey. The body is not asked about an element that fails the
filter. -/
inductive Judged (quantifier : Quantifier) (filter body : AtPlace) (element : Path × Value) :
    Verdict → Prop where
  | rejected {failed : Filed Violation}
      (filtered : filter element.2 element.1 = .ok (.conflict failed)) :
      Judged quantifier filter body element (.adds [] [])
  | selected {selected inner : Residual} (filtered : filter element.2 element.1 = .ok selected)
      (evaluated : body element.2 element.1 = .ok inner) :
      Judged quantifier filter body element (quantifier.verdict selected inner)

/-- A survey goes on behind an element that does not decide. -/
def GoesOn (quantifier : Quantifier) (filter body : AtPlace) (element : Path × Value) : Prop :=
  ∃ waiting found, Judged quantifier filter body element (.adds waiting found)

/-- The ways in which a survey comes to its residual, element by element. -/
inductive Surveyed (quantifier : Quantifier) (filter body : AtPlace) (unmatched : Residual) :
    Filed Constraint → Filed Violation → List (Path × Value) → Residual → Prop where
  | concluded (pending : Filed Constraint) (violations : Filed Violation) :
      Surveyed quantifier filter body unmatched pending violations []
        (quantifier.conclude pending violations unmatched)
  | decided {pending : Filed Constraint} {violations : Filed Violation} {element : Path × Value}
      {rest : List (Path × Value)} {r : Residual}
      (judged : Judged quantifier filter body element (.decides r)) :
      Surveyed quantifier filter body unmatched pending violations (element :: rest) r
  | added {pending waiting : Filed Constraint} {violations found : Filed Violation}
      {element : Path × Value} {rest : List (Path × Value)} {r : Residual}
      (judged : Judged quantifier filter body element (.adds waiting found))
      (later : Surveyed quantifier filter body unmatched (pending.merge waiting)
        (violations.merge found) rest r) :
      Surveyed quantifier filter body unmatched pending violations (element :: rest) r

section Steps

variable {pending : Filed Constraint} {violations : Filed Violation} {element : Path × Value}
  {rest : List (Path × Value)}

theorem survey_of_rejected {failed : Filed Violation}
    (filtered : filter element.2 element.1 = .ok (.conflict failed)) :
    survey quantifier filter body unmatched pending violations (element :: rest) =
      survey quantifier filter body unmatched pending violations rest := by
  conv_lhs => rw [survey, filtered, ok_bind]

theorem survey_of_selected {selected inner : Residual}
    (filtered : filter element.2 element.1 = .ok selected)
    (passes : ∀ failed, selected ≠ .conflict failed)
    (evaluated : body element.2 element.1 = .ok inner) :
    survey quantifier filter body unmatched pending violations (element :: rest) =
      match quantifier.verdict selected inner with
      | .decides r => .ok r
      | .adds waiting found =>
        survey quantifier filter body unmatched (pending.merge waiting) (violations.merge found)
          rest := by
  rw [survey, filtered]
  cases selected with
  | conflict failed => exact absurd rfl (passes failed)
  | satisfied =>
    dsimp only [ok_bind]
    rw [evaluated]
    rfl
  | pending constraints =>
    dsimp only [ok_bind]
    rw [evaluated]
    rfl

theorem survey_of_failed {e : UnknownOperator} (filtered : filter element.2 element.1 = .error e) :
    survey quantifier filter body unmatched pending violations (element :: rest) = .error e := by
  rw [survey, filtered]
  rfl

theorem survey_of_body_failed {selected : Residual} {e : UnknownOperator}
    (filtered : filter element.2 element.1 = .ok selected)
    (passes : ∀ failed, selected ≠ .conflict failed)
    (evaluated : body element.2 element.1 = .error e) :
    survey quantifier filter body unmatched pending violations (element :: rest) = .error e := by
  rw [survey, filtered]
  cases selected with
  | conflict failed => exact absurd rfl (passes failed)
  | satisfied =>
    dsimp only [ok_bind]
    rw [evaluated, error_bind]
  | pending constraints =>
    dsimp only [ok_bind]
    rw [evaluated, error_bind]

end Steps

/-- A survey that returns has come to its residual element by element. -/
theorem surveyed_of_survey {pending : Filed Constraint} {violations : Filed Violation}
    {elements : List (Path × Value)} {r : Residual}
    (h : survey quantifier filter body unmatched pending violations elements = .ok r) :
    Surveyed quantifier filter body unmatched pending violations elements r := by
  induction elements generalizing pending violations with
  | nil =>
    rw [← Except.ok.inj h]
    exact .concluded pending violations
  | cons element rest ih =>
    cases filtered : filter element.2 element.1 with
    | error e =>
      rw [survey_of_failed filtered] at h
      exact nomatch h
    | ok selected =>
      by_cases passes : ∀ failed, selected ≠ .conflict failed
      · cases evaluated : body element.2 element.1 with
        | error e =>
          rw [survey_of_body_failed filtered passes evaluated] at h
          exact nomatch h
        | ok inner =>
          have judged : Judged quantifier filter body element (quantifier.verdict selected inner) :=
            .selected filtered evaluated
          rw [survey_of_selected filtered passes evaluated] at h
          cases verdict : quantifier.verdict selected inner with
          | decides r' =>
            rw [verdict] at h judged
            exact .decided (Except.ok.inj h ▸ judged)
          | adds waiting found =>
            rw [verdict] at h judged
            exact .added judged (ih h)
      · simp only [ne_eq, not_forall, not_not] at passes
        obtain ⟨failed, rfl⟩ := passes
        rw [survey_of_rejected filtered] at h
        exact .added (.rejected filtered) (ih h)

/-- A survey returns when filter and body return on every element. -/
theorem survey_ok {elements : List (Path × Value)}
    (filters : ∀ element ∈ elements, ∃ r, filter element.2 element.1 = .ok r)
    (bodies : ∀ element ∈ elements, ∃ r, body element.2 element.1 = .ok r)
    (pending : Filed Constraint) (violations : Filed Violation) :
    ∃ r, survey quantifier filter body unmatched pending violations elements = .ok r := by
  induction elements generalizing pending violations with
  | nil => exact ⟨_, rfl⟩
  | cons element rest ih =>
    obtain ⟨⟨selected, filtered⟩, filters⟩ := List.forall_mem_cons.mp filters
    obtain ⟨⟨inner, evaluated⟩, bodies⟩ := List.forall_mem_cons.mp bodies
    by_cases passes : ∀ failed, selected ≠ .conflict failed
    · rw [survey_of_selected filtered passes evaluated]
      cases quantifier.verdict selected inner with
      | decides r => exact ⟨r, rfl⟩
      | adds waiting found => exact ih filters bodies _ _
    · simp only [ne_eq, not_forall, not_not] at passes
      obtain ⟨failed, rfl⟩ := passes
      rw [survey_of_rejected filtered]
      exact ih filters bodies _ _

theorem Judged.wellFormed {element : Path × Value} {verdict : Verdict}
    (judged : Judged quantifier filter body element verdict)
    (filters : ∀ s, filter element.2 element.1 = .ok s → s.WellFormed)
    (bodies : ∀ s, body element.2 element.1 = .ok s → s.WellFormed) : verdict.WellFormed := by
  cases judged with
  | rejected filtered => exact .adds wellFormed_nil wellFormed_nil
  | selected filtered evaluated =>
    exact wellFormed_verdict quantifier (filters _ filtered) (bodies _ evaluated)

theorem Surveyed.wellFormed {pending : Filed Constraint} {violations : Filed Violation}
    {elements : List (Path × Value)} {r : Residual}
    (surveyed : Surveyed quantifier filter body unmatched pending violations elements r)
    (filters : ∀ element ∈ elements, ∀ s, filter element.2 element.1 = .ok s → s.WellFormed)
    (bodies : ∀ element ∈ elements, ∀ s, body element.2 element.1 = .ok s → s.WellFormed)
    (hu : unmatched.WellFormed) (waiting : pending.WellFormed Constraint.path)
    (found : violations.WellFormed Violation.path) : r.WellFormed := by
  induction surveyed with
  | concluded pending violations => exact wellFormed_conclude quantifier waiting found hu
  | decided judged =>
    obtain ⟨filters, -⟩ := List.forall_mem_cons.mp filters
    obtain ⟨bodies, -⟩ := List.forall_mem_cons.mp bodies
    cases judged.wellFormed filters bodies with
    | decides h => exact h
  | added judged later ih =>
    obtain ⟨filters, laterFilters⟩ := List.forall_mem_cons.mp filters
    obtain ⟨bodies, laterBodies⟩ := List.forall_mem_cons.mp bodies
    cases judged.wellFormed filters bodies with
    | adds more others =>
      exact ih laterFilters laterBodies (waiting.merge more) (found.merge others)

end Quantifier

/-! ## The walk -/

theorem countPassing_ok {filter : AtPlace} {elements : List (Path × Value)}
    (filters : ∀ element ∈ elements, ∃ r, filter element.2 element.1 = .ok r) :
    ∃ count, countPassing filter elements = .ok count := by
  induction elements with
  | nil => exact ⟨0, rfl⟩
  | cons element rest ih =>
    obtain ⟨⟨r, filtered⟩, filters⟩ := List.forall_mem_cons.mp filters
    obtain ⟨count, counted⟩ := ih filters
    refine ⟨if r.isSatisfied then count + 1 else count, ?_⟩
    rw [countPassing, filtered, counted]
    rfl

namespace Constraint

variable {registry : Registry} {document : Value} {place : Path} {positive : Bool}

theorem evaluate_missing {c : Constraint} (missing : c.path.find? document = none) :
    c.evaluate registry document place positive =
      .ok (.waitFor ((c.under place).withPolarity positive)) := by
  rw [evaluate, missing]

theorem evaluate_found {c : Constraint} {found : Value} {op : Operator}
    (there : c.path.find? document = some found)
    (registered : registry.find? c.operator = some op) :
    c.evaluate registry document place positive =
      .ok (if c.admits op.holds found == positive then .satisfied
        else .violated ((c.under place).withPolarity positive) found) := by
  rw [evaluate, there]
  simp only [Registry.lookup, registered]
  show (if _ then Except.ok _ else Except.ok _) = _
  split <;> rfl

/-- A constraint reads nothing of a document but what stands at its path. -/
theorem evaluate_congr {c : Constraint} {other : Value}
    (h : c.path.find? other = c.path.find? document) :
    c.evaluate registry other place positive = c.evaluate registry document place positive := by
  unfold evaluate
  rw [h]

/-- A constraint is satisfied by what stands at its path. -/
theorem evaluate_eq_satisfied_iff {c : Constraint} :
    c.evaluate registry document place positive = .ok .satisfied ↔
      ∃ found op, c.path.find? document = some found ∧ registry.find? c.operator = some op ∧
        c.admits op.holds found = positive := by
  cases there : c.path.find? document with
  | none =>
    rw [evaluate_missing there]
    constructor
    · intro h
      cases h
    · rintro ⟨_, _, h, -⟩
      cases h
  | some found =>
    cases registered : registry.find? c.operator with
    | none =>
      rw [evaluate, there]
      simp only [Registry.lookup, registered]
      constructor
      · intro h
        cases h
      · rintro ⟨_, _, _, h, -⟩
        cases h
    | some op =>
      rw [evaluate_found there registered]
      constructor
      · intro h
        split at h
        · next admitted => exact ⟨found, op, rfl, rfl, beq_iff_eq.mp admitted⟩
        · cases h
      · rintro ⟨_, _, same, same', admitted⟩
        cases same
        cases same'
        rw [if_pos (beq_iff_eq.mpr admitted)]

theorem evaluate_ok {c : Constraint} (known : registry.contains c.operator = true) :
    ∃ r, c.evaluate registry document place positive = .ok r := by
  obtain ⟨op, registered⟩ := Registry.find?_of_contains known
  cases there : c.path.find? document with
  | none => exact ⟨_, evaluate_missing there⟩
  | some found => exact ⟨_, evaluate_found there registered⟩

theorem wellFormed_of_evaluate {c : Constraint} {r : Residual}
    (h : c.evaluate registry document place positive = .ok r) : r.WellFormed := by
  cases there : c.path.find? document with
  | none =>
    rw [evaluate_missing there] at h
    rw [← Except.ok.inj h]
    exact Residual.wellFormed_waitFor _
  | some found =>
    cases registered : registry.find? c.operator with
    | none =>
      rw [evaluate, there] at h
      simp only [Registry.lookup, registered] at h
      exact nomatch h
    | some op =>
      rw [evaluate_found there registered] at h
      rw [← Except.ok.inj h]
      split
      · exact .satisfied
      · exact Residual.wellFormed_violated _ _

end Constraint

theorem Residual.isSatisfied_iff {r : Residual} : r.isSatisfied = true ↔ r = .satisfied := by
  cases r <;> simp [isSatisfied]

namespace Policy

variable {registry : Registry}

/-! ### Parts and filters -/

/-- Every part of a conjunction is evaluated. -/
theorem evaluateAll_eq_ok {p : Policy} {rest : List Policy} {document : Value} {place : Path}
    {positive : Bool} {rs : List Residual}
    (h : evaluateAll registry (p :: rest) document place positive = .ok rs) :
    ∃ r later, evaluateAt registry p document place positive = .ok r ∧
      evaluateAll registry rest document place positive = .ok later ∧ r :: later = rs := by
  rw [evaluateAll] at h
  obtain ⟨r, first, h⟩ := bind_eq_ok h
  obtain ⟨later, others, h⟩ := bind_eq_ok h
  exact ⟨r, later, first, others, Except.ok.inj h⟩

/-- The parts of a disjunction are evaluated up to one that is satisfied. -/
theorem evaluateSome_eq_ok {p : Policy} {rest : List Policy} {document : Value} {place : Path}
    {positive : Bool} {rs : List Residual}
    (h : evaluateSome registry (p :: rest) document place positive = .ok rs) :
    ∃ r, evaluateAt registry p document place positive = .ok r ∧
      (r = .satisfied ∧ [r] = rs ∨ r ≠ .satisfied ∧ ∃ later,
        evaluateSome registry rest document place positive = .ok later ∧ r :: later = rs) := by
  rw [evaluateSome] at h
  obtain ⟨r, first, h⟩ := bind_eq_ok h
  refine ⟨r, first, ?_⟩
  split at h
  · next final => exact .inl ⟨Residual.isSatisfied_iff.mp final, Except.ok.inj h⟩
  · next open_ =>
    obtain ⟨later, others, h⟩ := bind_eq_ok h
    exact .inr ⟨mt Residual.isSatisfied_iff.mpr open_, later, others, Except.ok.inj h⟩

theorem forall₂_of_evaluateAll {parts : List Policy} {document : Value} {place : Path}
    {positive : Bool} {rs : List Residual}
    (h : evaluateAll registry parts document place positive = .ok rs) :
    List.Forall₂ (fun p r => evaluateAt registry p document place positive = .ok r) parts rs := by
  induction parts generalizing rs with
  | nil =>
    rw [evaluateAll] at h
    rw [← Except.ok.inj h]
    exact .nil
  | cons p rest ih =>
    obtain ⟨r, later, first, others, rfl⟩ := evaluateAll_eq_ok h
    exact .cons first (ih others)

theorem evaluateAll_ok {parts : List Policy} {document : Value} {place : Path} {positive : Bool}
    (h : ∀ p ∈ parts, ∃ r, evaluateAt registry p document place positive = .ok r) :
    ∃ rs, evaluateAll registry parts document place positive = .ok rs := by
  induction parts with
  | nil => exact ⟨[], by rw [evaluateAll]⟩
  | cons p rest ih =>
    obtain ⟨⟨r, first⟩, others⟩ := List.forall_mem_cons.mp h
    obtain ⟨rs, later⟩ := ih others
    refine ⟨r :: rs, ?_⟩
    rw [evaluateAll, first, ok_bind, later, ok_bind]
    rfl

theorem evaluateSome_ok {parts : List Policy} {document : Value} {place : Path} {positive : Bool}
    (h : ∀ p ∈ parts, ∃ r, evaluateAt registry p document place positive = .ok r) :
    ∃ rs, evaluateSome registry parts document place positive = .ok rs := by
  induction parts with
  | nil => exact ⟨[], by rw [evaluateSome]⟩
  | cons p rest ih =>
    obtain ⟨⟨r, first⟩, others⟩ := List.forall_mem_cons.mp h
    obtain ⟨rs, later⟩ := ih others
    rw [evaluateSome, first, ok_bind]
    split
    · exact ⟨_, rfl⟩
    · rw [later, ok_bind]
      exact ⟨_, rfl⟩

/-- A disjunction goes on behind a part that is not satisfied. -/
def GoesOn (registry : Registry) (document : Value) (place : Path) (positive : Bool) (p : Policy) :
    Prop :=
  ∃ r, p.evaluateAt registry document place positive = .ok r ∧ r ≠ .satisfied

theorem exists_of_evaluateSome {parts : List Policy} {document : Value} {place : Path}
    {positive : Bool} {rs : List Residual}
    (h : evaluateSome registry parts document place positive = .ok rs) :
    ∀ r ∈ rs, ∃ p, ComesTo (GoesOn registry document place positive) p parts ∧
      evaluateAt registry p document place positive = .ok r := by
  induction parts generalizing rs with
  | nil =>
    rw [evaluateSome] at h
    rw [← Except.ok.inj h]
    exact fun _ member => absurd member List.not_mem_nil
  | cons p rest ih =>
    obtain ⟨r, first, ⟨-, rfl⟩ | ⟨further, later, others, rfl⟩⟩ := evaluateSome_eq_ok h
    · exact List.forall_mem_singleton.mpr ⟨p, .here rest, first⟩
    · refine List.forall_mem_cons.mpr ⟨⟨p, .here rest, first⟩, fun s member => ?_⟩
      obtain ⟨q, comes, found⟩ := ih others s member
      exact ⟨q, .later ⟨r, first, further⟩ comes, found⟩

theorem evaluateFilter_ok {filter : Option Policy} {element : Value} {place : Path}
    (h : ∀ f ∈ filter, ∃ r, evaluateAt registry f element place true = .ok r) :
    ∃ r, evaluateFilter registry filter element place = .ok r := by
  cases filter with
  | none => exact ⟨.satisfied, by rw [evaluateFilter]⟩
  | some f =>
    rw [evaluateFilter]
    exact h f rfl

/-- A filter that is there is evaluated like any policy, and without one every element passes. -/
theorem of_evaluateFilter {P : Residual → Prop} (passes : P .satisfied) {filter : Option Policy}
    {element : Value} {place : Path} {r : Residual}
    (h : evaluateFilter registry filter element place = .ok r)
    (whole : ∀ f ∈ filter, ∀ s, evaluateAt registry f element place true = .ok s → P s) : P r := by
  cases filter with
  | none =>
    rw [evaluateFilter] at h
    rw [← Except.ok.inj h]
    exact passes
  | some f =>
    rw [evaluateFilter] at h
    exact whole f rfl r h

/-! ### Whole policies -/

/-- A policy whose operators are all registered has a residual on every document. -/
theorem evaluateAt_ok {p : Policy} (known : registry.Knows p) (document : Value) (place : Path)
    (positive : Bool) : ∃ r, p.evaluateAt registry document place positive = .ok r := by
  -- Elements of collections are evaluated as documents of their own, at places of their own.
  induction p generalizing document place positive with
  | leaf c =>
    rw [evaluateAt]
    exact Constraint.evaluate_ok (Registry.knows_leaf.mp known)
  | connected connective parts ih =>
    have known := Registry.knows_connected.mp known
    have each : ∀ p ∈ parts, ∃ r, evaluateAt registry p document place positive = .ok r :=
      fun p member => ih p member (known p member) document place positive
    rw [evaluateAt]
    cases connective.withPolarity positive with
    | conjunction =>
      obtain ⟨rs, all⟩ := evaluateAll_ok each
      exact ⟨.conjoin rs, by rw [all]; rfl⟩
    | disjunction =>
      obtain ⟨rs, some⟩ := evaluateSome_ok each
      exact ⟨.disjoin rs, by rw [some]; rfl⟩
  | negation p ih =>
    rw [evaluateAt]
    exact ih known document place (!positive)
  | quantified quantifier path filter body ihFilter ihBody =>
    obtain ⟨knownFilter, knownBody⟩ := Registry.knows_quantified.mp known
    rw [evaluateAt]
    split
    · exact ⟨_, rfl⟩
    · split
      · exact ⟨_, rfl⟩
      · refine Quantifier.survey_ok (fun element _ => ?_) (fun element _ => ?_) _ _
        · exact evaluateFilter_ok fun f member => ihFilter f member (knownFilter f member) _ _ _
        · exact ihBody knownBody _ _ _
  | counted path filter comparator operand ih =>
    obtain ⟨knownFilter, knownComparator⟩ := Registry.knows_counted.mp known
    rw [evaluateAt]
    split
    · exact ⟨_, rfl⟩
    · split
      · exact ⟨_, rfl⟩
      · next elements _ =>
        have passing : ∃ count, countPassing (evaluateFilter registry filter)
            (placedElements (place.join path) elements) = .ok count :=
          countPassing_ok fun element _ =>
            evaluateFilter_ok fun f member => ih f member (knownFilter f member) _ _ _
        obtain ⟨count, counted⟩ := passing
        obtain ⟨op, registered⟩ := Registry.find?_of_contains knownComparator
        rw [counted, ok_bind, Registry.lookup_eq_ok.mpr registered, ok_bind]
        split
        · exact ⟨_, rfl⟩
        · exact ⟨_, rfl⟩

/-- What an evaluation returns is well-formed. -/
theorem wellFormed_of_evaluateAt {p : Policy} {document : Value} {place : Path} {positive : Bool}
    {r : Residual} (h : p.evaluateAt registry document place positive = .ok r) : r.WellFormed := by
  induction p generalizing document place positive r with
  | leaf c =>
    rw [evaluateAt] at h
    exact Constraint.wellFormed_of_evaluate h
  | connected connective parts ih =>
    rw [evaluateAt] at h
    cases connected : connective.withPolarity positive with
    | conjunction =>
      rw [connected] at h
      obtain ⟨rs, all, rfl⟩ := map_eq_ok h
      refine .conjoin fun s member => ?_
      obtain ⟨p, among, found⟩ := exists_mem_of_forall₂ (forall₂_of_evaluateAll all) s member
      exact ih p among found
    | disjunction =>
      rw [connected] at h
      obtain ⟨rs, some, rfl⟩ := map_eq_ok h
      refine .disjoin fun s member => ?_
      obtain ⟨p, comes, found⟩ := exists_of_evaluateSome some s member
      exact ih p comes.mem found
  | negation p ih =>
    rw [evaluateAt] at h
    exact ih h
  | quantified quantifier path filter body ihFilter ihBody =>
    rw [evaluateAt] at h
    split at h
    · rw [← Except.ok.inj h]
      exact Residual.wellFormed_waitFor _
    · split at h
      · rw [← Except.ok.inj h]
        exact Residual.wellFormed_violated _ _
      · refine (Quantifier.surveyed_of_survey h).wellFormed (fun element _ s filtered => ?_)
          (fun element _ s evaluated => ihBody evaluated) (Residual.wellFormed_violated _ _)
          Filed.wellFormed_nil Filed.wellFormed_nil
        exact of_evaluateFilter .satisfied filtered fun f member _ found => ihFilter f member found
  | counted path filter comparator operand ih =>
    rw [evaluateAt] at h
    split at h
    · rw [← Except.ok.inj h]
      exact Residual.wellFormed_waitFor _
    · split at h
      · rw [← Except.ok.inj h]
        exact Residual.wellFormed_violated _ _
      · obtain ⟨count, counted, h⟩ := bind_eq_ok h
        obtain ⟨op, registered, h⟩ := bind_eq_ok h
        split at h
        · rw [← Except.ok.inj h]
          exact .satisfied
        · rw [← Except.ok.inj h]
          exact Residual.wellFormed_violated _ _

/-- A quantifier over a collection that is there surveys its elements at their places. -/
theorem evaluateAt_quantified {quantifier : Quantifier} {path : Path} {filter : Option Policy}
    {body : Policy} {document collection : Value} {elements : List (Value × Value)}
    (there : path.find? document = some collection) (listed : collection.elements? = some elements)
    (place : Path) (positive : Bool) :
    (quantified quantifier path filter body).evaluateAt registry document place positive =
      (quantifier.withPolarity positive).survey (evaluateFilter registry filter)
        (fun element here => body.evaluateAt registry element here positive)
        (.violated (standIn (.quantified quantifier path filter body) (place.join path) positive)
          collection) [] [] (placedElements (place.join path) elements) := by
  rw [evaluateAt, there]
  dsimp only
  rw [listed]

/-- A connective with a single part is that part. -/
theorem evaluateAt_single (connective : Connective) (p : Policy) (document : Value) (place : Path)
    (positive : Bool) :
    evaluateAt registry (.connected connective [p]) document place positive =
      evaluateAt registry p document place positive := by
  rw [evaluateAt]
  cases evaluated : evaluateAt registry p document place positive with
  | error e =>
    cases connective.withPolarity positive with
    | conjunction =>
      dsimp only
      rw [evaluateAll, evaluated]
      rfl
    | disjunction =>
      dsimp only
      rw [evaluateSome, evaluated]
      rfl
  | ok r =>
    cases connective.withPolarity positive with
    | conjunction =>
      dsimp only
      rw [evaluateAll, evaluated, evaluateAll]
      exact congrArg Except.ok (Residual.conjoin_singleton r)
    | disjunction =>
      have alone : evaluateSome registry [p] document place positive = .ok [r] := by
        rw [evaluateSome, evaluated, ok_bind, evaluateSome]
        split <;> rfl
      dsimp only
      rw [alone]
      exact congrArg Except.ok (wellFormed_of_evaluateAt evaluated).disjoin_singleton

end Policy

end ResidualPolicy
