import ResidualPolicy.Proofs.Evaluation.Calls
import ResidualPolicy.Proofs.Policy.Negation
import ResidualPolicy.Proofs.Policy.Operands

/-!
# What evaluations report

A residual files constraints that wait or violations. What is true of nothing filed, and stays true when
filings are merged, stays true when residuals are combined, by connectives and by quantifiers. So it is
true of what an evaluation returns once it is true of each single report (`Residual.Lists`).

One such property is where reports come from: every constraint and every violation is reported by one
of the calls of the evaluation, and so is every path in the form in which it is filed
(`Call.yields_of_evaluateAt`). It follows that a report either is about a constraint or a count of the
policy, with its operand, or it stands in for a quantifier (`Policy.all_of_evaluateAt`).
-/

namespace ResidualPolicy

/-! ## Filings -/

namespace Filed

variable {α : Type}

/-- A property that the empty filing has and that merging keeps. -/
structure Closed [BEq α] (P : Filed α → Prop) : Prop where
  nil : P []
  merge : ∀ {a b : Filed α}, P a → P b → P (a.merge b)

/-- All entries are such that `source` holds, and so is one whose path every path is, in the same form. -/
def StemsFrom (pathOf : α → Path) (source : α → Prop) (filed : Filed α) : Prop :=
  ∀ under ∈ filed, (∃ entry, source entry ∧ pathOf entry = under.1) ∧
    ∀ entry ∈ under.2, source entry

variable {pathOf : α → Path} {source : α → Prop}

theorem StemsFrom.mono {filed : Filed α} (h : StemsFrom pathOf source filed) {other : α → Prop}
    (wider : ∀ entry, source entry → other entry) : StemsFrom pathOf other filed := by
  intro under member
  obtain ⟨⟨entry, first, same⟩, each⟩ := h under member
  exact ⟨⟨entry, wider entry first, same⟩, fun entry among => wider entry (each entry among)⟩

theorem StemsFrom.all {filed : Filed α} (h : StemsFrom pathOf source filed) : filed.All source :=
  fun under member => (h under member).2

theorem closed_stemsFrom [BEq α] (pathOf : α → Path) (source : α → Prop) :
    Closed (StemsFrom pathOf source) where
  nil _ member := absurd member List.not_mem_nil
  merge {a b} ha hb := by
    induction b generalizing a with
    | nil => exact ha
    | cons under more ih =>
      obtain ⟨⟨named, each⟩, others⟩ := List.forall_mem_cons.mp hb
      rw [merge_cons]
      refine ih (forall_mem_file ha ⟨named, fun entry member => ?_⟩ fun head _ stems => ?_) others
      · exact each entry ((mem_appendNew member).resolve_left List.not_mem_nil)
      · exact ⟨stems.1, fun entry member => (mem_appendNew member).elim (stems.2 entry) (each entry)⟩

end Filed

/-! ## Residuals -/

namespace Residual

variable {waiting : Filed Constraint → Prop} {failing : Filed Violation → Prop}

/-- What a residual files has a property: the constraints that wait, or the violations. -/
def Lists (waiting : Filed Constraint → Prop) (failing : Filed Violation → Prop) : Residual → Prop
  | .satisfied => True
  | .pending constraints => waiting constraints
  | .conflict violations => failing violations

theorem Lists.mono {r : Residual} (h : r.Lists waiting failing) {waiting' : Filed Constraint → Prop}
    {failing' : Filed Violation → Prop} (waits : ∀ filed, waiting filed → waiting' filed)
    (fails : ∀ filed, failing filed → failing' filed) : r.Lists waiting' failing' := by
  cases r with
  | satisfied => trivial
  | pending constraints => exact waits constraints h
  | conflict violations => exact fails violations h

theorem Lists.also {r s : Residual} (waits : Filed.Closed waiting) (hr : r.Lists waiting failing)
    (hs : s.Lists waiting failing) : (r.also s).Lists waiting failing := by
  cases r with
  | satisfied =>
    rw [satisfied_also]
    exact hs
  | pending a =>
    cases s with
    | satisfied => exact hr
    | pending b => exact waits.merge hr hs
    | conflict w => exact hs
  | conflict v =>
    cases s with
    | satisfied => exact hr
    | pending b => exact hr
    | conflict w =>
      show failing (lowerOf v w)
      unfold lowerOf
      split
      · exact hs
      · exact hr

theorem Lists.conjoin {rs : List Residual} (waits : Filed.Closed waiting)
    (h : ∀ r ∈ rs, r.Lists waiting failing) : (conjoin rs).Lists waiting failing :=
  List.foldlRecOn rs Residual.also trivial fun _ before s member => before.also waits (h s member)

theorem Lists.otherwise {r s : Residual} (fails : Filed.Closed failing)
    (hr : r.Lists waiting failing) (hs : s.Lists waiting failing) :
    (r.otherwise s).Lists waiting failing := by
  cases r with
  | satisfied =>
    rw [satisfied_otherwise]
    trivial
  | pending a =>
    cases s with
    | satisfied => trivial
    | pending b =>
      show waiting (if _ then _ else _)
      split
      · exact hs
      · exact hr
    | conflict w => exact hr
  | conflict v =>
    cases s with
    | satisfied => trivial
    | pending b => exact hs
    | conflict w => exact fails.merge hr hs

theorem Lists.disjoin {rs : List Residual} (fails : Filed.Closed failing)
    (h : ∀ r ∈ rs, r.Lists waiting failing) : (disjoin rs).Lists waiting failing :=
  List.foldlRecOn rs Residual.otherwise fails.nil fun _ before s member =>
    before.otherwise fails (h s member)

end Residual

/-! ## Collections -/

/-- What a verdict contributes has a property. -/
inductive Verdict.Lists (waiting : Filed Constraint → Prop) (failing : Filed Violation → Prop) :
    Verdict → Prop where
  | decides {r : Residual} (h : r.Lists waiting failing) : Lists waiting failing (.decides r)
  | adds {pending : Filed Constraint} {violations : Filed Violation} (waits : waiting pending)
      (fails : failing violations) : Lists waiting failing (.adds pending violations)

namespace Quantifier

variable {quantifier : Quantifier} {filter body : AtPlace} {unmatched : Residual}
  {waiting : Filed Constraint → Prop} {failing : Filed Violation → Prop}
  (waits : Filed.Closed waiting) (fails : Filed.Closed failing)

include waits fails

/-- What a filter waits for is reported, but not why it failed. -/
theorem lists_verdict (quantifier : Quantifier) {selected r : Residual}
    (hs : selected.Lists waiting fun _ => True) (hr : r.Lists waiting failing) :
    (quantifier.verdict selected r).Lists waiting failing := by
  cases selected with
  | satisfied =>
    cases r with
    | satisfied =>
      cases quantifier
      exacts [.adds waits.nil fails.nil, .decides trivial]
    | pending constraints => cases quantifier <;> exact .adds hr fails.nil
    | conflict violations =>
      cases quantifier
      exacts [.decides hr, .adds waits.nil hr]
  | pending awaited =>
    cases r with
    | satisfied =>
      cases quantifier
      exacts [.adds waits.nil fails.nil, .adds hs fails.nil]
    | pending constraints => cases quantifier <;> exact .adds (waits.merge hr hs) fails.nil
    | conflict violations =>
      cases quantifier
      exacts [.adds hs fails.nil, .adds waits.nil hr]
  | conflict violations =>
    rw [verdict_conflict]
    exact .adds waits.nil fails.nil

omit waits fails in
theorem lists_conclude (quantifier : Quantifier) {pending : Filed Constraint}
    {violations : Filed Violation} (waits : waiting pending) (fails : failing violations)
    (hu : unmatched.Lists waiting failing) :
    (quantifier.conclude pending violations unmatched).Lists waiting failing := by
  unfold conclude
  split
  · cases quantifier with
    | universal => trivial
    | existential =>
      dsimp only
      split
      · exact hu
      · exact fails
  · exact waits

theorem Judged.lists {element : Path × Value} {verdict : Verdict}
    (judged : Judged quantifier filter body element verdict)
    (filters : ∀ s, filter element.2 element.1 = .ok s → s.Lists waiting fun _ => True)
    (bodies : filter.Passes element → ∀ s, body element.2 element.1 = .ok s →
      s.Lists waiting failing) : verdict.Lists waiting failing := by
  cases judged with
  | rejected filtered => exact .adds waits.nil fails.nil
  | @selected selected inner filtered evaluated =>
    by_cases passes : ∀ failed, selected ≠ .conflict failed
    · exact lists_verdict waits fails quantifier (filters _ filtered)
        (bodies ⟨selected, filtered, passes⟩ _ evaluated)
    · simp only [ne_eq, not_forall, not_not] at passes
      obtain ⟨failed, rfl⟩ := passes
      rw [verdict_conflict]
      exact .adds waits.nil fails.nil

/-- What is true of all that is reported of the elements to which a survey comes is true of what it
reports. -/
theorem Surveyed.lists {pending : Filed Constraint} {violations : Filed Violation}
    {elements : List (Path × Value)} {r : Residual}
    (surveyed : Surveyed quantifier filter body unmatched pending violations elements r)
    (filters : ∀ element, ComesTo (quantifier.GoesOn filter body) element elements →
      ∀ s, filter element.2 element.1 = .ok s → s.Lists waiting fun _ => True)
    (bodies : ∀ element, ComesTo (quantifier.GoesOn filter body) element elements →
      filter.Passes element → ∀ s, body element.2 element.1 = .ok s → s.Lists waiting failing)
    (hu : unmatched.Lists waiting failing) (before : waiting pending)
    (found : failing violations) : r.Lists waiting failing := by
  induction surveyed with
  | concluded pending violations => exact lists_conclude quantifier before found hu
  | decided judged =>
    have here := judged.lists waits fails (filters _ (.here _)) (bodies _ (.here _))
    cases here with
    | decides h => exact h
  | added judged later ih =>
    have here := judged.lists waits fails (filters _ (.here _)) (bodies _ (.here _))
    cases here with
    | adds more others =>
      have goesOn : quantifier.GoesOn filter body _ := ⟨_, _, judged⟩
      exact ih (fun element comes => filters element (.later goesOn comes))
        (fun element comes => bodies element (.later goesOn comes)) (waits.merge before more)
        (fails.merge found others)

end Quantifier

/-! ## Origins -/

namespace Call

variable {registry : Registry} {call other : Call}

/-- A constraint waits in a call to which this one leads. -/
def Awaits (registry : Registry) (call : Call) (c : Constraint) : Prop :=
  ∃ origin, call.Visits registry origin ∧ origin.Waits c

/-- A violation is reported by a call to which this one leads. -/
def Violates (registry : Registry) (call : Call) (v : Violation) : Prop :=
  ∃ origin, call.Visits registry origin ∧ origin.Fails registry v

/-- All that a residual lists is reported by calls to which this one leads. -/
def Yields (registry : Registry) (call : Call) (r : Residual) : Prop :=
  r.Lists (Filed.StemsFrom Constraint.path (call.Awaits registry))
    (Filed.StemsFrom Violation.path (call.Violates registry))

theorem closed_awaits (registry : Registry) (call : Call) :
    Filed.Closed (Filed.StemsFrom Constraint.path (call.Awaits registry)) :=
  Filed.closed_stemsFrom _ _

theorem closed_violates (registry : Registry) (call : Call) :
    Filed.Closed (Filed.StemsFrom Violation.path (call.Violates registry)) :=
  Filed.closed_stemsFrom _ _

theorem Makes.awaits (makes : call.Makes registry other) (c : Constraint)
    (h : other.Awaits registry c) : call.Awaits registry c := by
  obtain ⟨origin, visits, waits⟩ := h
  exact ⟨origin, .head makes visits, waits⟩

theorem Makes.violates (makes : call.Makes registry other) (v : Violation)
    (h : other.Violates registry v) : call.Violates registry v := by
  obtain ⟨origin, visits, fails⟩ := h
  exact ⟨origin, .head makes visits, fails⟩

/-- A call may hand on what a call that it makes has returned. -/
theorem Makes.yields (makes : call.Makes registry other) {r : Residual}
    (h : other.Yields registry r) : call.Yields registry r :=
  h.mono (fun _ filed => filed.mono makes.awaits) fun _ filed => filed.mono makes.violates

theorem Waits.yields {c : Constraint} (h : call.Waits c) : call.Yields registry (.waitFor c) := by
  have awaits : call.Awaits registry c := ⟨call, .refl, h⟩
  exact List.forall_mem_singleton.mpr ⟨⟨c, awaits, rfl⟩, List.forall_mem_singleton.mpr awaits⟩

theorem Fails.yields {c : Constraint} {witness : Value} (h : call.Fails registry ⟨c, witness⟩) :
    call.Yields registry (.violated c witness) := by
  have violates : call.Violates registry ⟨c, witness⟩ := ⟨call, .refl, h⟩
  exact List.forall_mem_singleton.mpr ⟨⟨_, violates, rfl⟩, List.forall_mem_singleton.mpr violates⟩

theorem yields_leaf {c : Constraint} {document : Value} {place : Path} {positive : Bool}
    {r : Residual} (h : c.evaluate registry document place positive = .ok r) :
    Yields registry ⟨.leaf c, document, place, positive⟩ r := by
  cases there : c.path.find? document with
  | none =>
    rw [Constraint.evaluate_missing there] at h
    exact Except.ok.inj h ▸ (Waits.leaf there).yields
  | some found =>
    rw [Constraint.evaluate, there] at h
    obtain ⟨op, registered, h⟩ := bind_eq_ok h
    split at h
    · exact Except.ok.inj h ▸ trivial
    · next failed =>
      rw [← Except.ok.inj h]
      exact (Fails.leaf there (Registry.lookup_eq_ok.mp registered) (mt beq_iff_eq.mpr failed)).yields

theorem yields_counted {path : Path} {filter : Option Policy} {comparator : String}
    {operand document : Value} {place : Path} {positive : Bool} {r : Residual}
    (h : (Policy.counted path filter comparator operand).evaluateAt registry document place positive =
      .ok r) :
    Yields registry ⟨.counted path filter comparator operand, document, place, positive⟩ r := by
  rw [Policy.evaluateAt] at h
  cases there : path.find? document with
  | none =>
    rw [there] at h
    exact Except.ok.inj h ▸ (Waits.counted there).yields
  | some collection =>
    rw [there] at h
    dsimp only at h
    cases listed : collection.elements? with
    | none =>
      rw [listed] at h
      exact Except.ok.inj h ▸ (Fails.scalar there listed).yields
    | some elements =>
      rw [listed] at h
      obtain ⟨count, counted, h⟩ := bind_eq_ok h
      obtain ⟨op, registered, h⟩ := bind_eq_ok h
      split at h
      · exact Except.ok.inj h ▸ trivial
      · next failed =>
        rw [← Except.ok.inj h]
        exact (Fails.counted there listed counted (Registry.lookup_eq_ok.mp registered)
          (mt beq_iff_eq.mpr failed)).yields

/-- Whatever an evaluation reports, one of its calls does. -/
theorem yields_of_evaluateAt {p : Policy} {document : Value} {place : Path} {positive : Bool}
    {r : Residual} (h : p.evaluateAt registry document place positive = .ok r) :
    Yields registry ⟨p, document, place, positive⟩ r := by
  induction p generalizing document place positive r with
  | leaf c =>
    rw [Policy.evaluateAt] at h
    exact yields_leaf h
  | connected connective parts ih =>
    rw [Policy.evaluateAt] at h
    cases joined : connective.withPolarity positive with
    | conjunction =>
      rw [joined] at h
      obtain ⟨rs, all, rfl⟩ := map_eq_ok h
      refine .conjoin (closed_awaits ..) fun s member => ?_
      obtain ⟨p, among, evaluated⟩ :=
        exists_mem_of_forall₂ (Policy.forall₂_of_evaluateAll all) s member
      exact (Makes.part joined among).yields (ih p among evaluated)
    | disjunction =>
      rw [joined] at h
      obtain ⟨rs, some, rfl⟩ := map_eq_ok h
      refine .disjoin (closed_violates ..) fun s member => ?_
      obtain ⟨p, comes, evaluated⟩ := Policy.exists_of_evaluateSome some s member
      exact (Makes.alternative joined comes).yields (ih p comes.mem evaluated)
  | negation p ih =>
    rw [Policy.evaluateAt] at h
    exact Makes.negation.yields (ih h)
  | quantified quantifier path filter body ihFilter ihBody =>
    rw [Policy.evaluateAt] at h
    cases there : path.find? document with
    | none =>
      rw [there] at h
      exact Except.ok.inj h ▸ (Waits.quantified there).yields
    | some collection =>
      have unmatched : Yields registry ⟨.quantified quantifier path filter body, document, place,
          positive⟩ (.violated (Policy.standIn _ (place.join path) positive) collection) :=
        (Fails.quantified there).yields
      rw [there] at h
      dsimp only at h
      cases listed : collection.elements? with
      | none =>
        rw [listed] at h
        exact Except.ok.inj h ▸ unmatched
      | some elements =>
        rw [listed] at h
        refine (Quantifier.surveyed_of_survey h).lists (closed_awaits ..) (closed_violates ..)
          (fun element comes s filtered => ?_)
          (fun element comes passes s evaluated =>
            (Makes.body there listed comes passes).yields (ihBody evaluated))
          unmatched (closed_awaits ..).nil (closed_violates ..).nil
        cases filter with
        | none =>
          rw [Policy.evaluateFilter] at filtered
          exact Except.ok.inj filtered ▸ trivial
        | some f =>
          rw [Policy.evaluateFilter] at filtered
          exact ((Makes.filter there listed comes).yields (ihFilter f rfl filtered)).mono
            (fun _ => id) fun _ _ => trivial
  | counted path filter comparator operand ih => exact yields_counted h

end Call

/-! ## Operands and counts -/

namespace Residual

variable {waiting : Constraint → Prop} {found : Violation → Prop}

/-- What is true of all that a residual lists: of the constraints that wait, or of the violations. -/
def All (waiting : Constraint → Prop) (found : Violation → Prop) : Residual → Prop
  | .satisfied => True
  | .pending constraints => constraints.All waiting
  | .conflict violations => violations.All found

theorem all_iff_lists {r : Residual} :
    r.All waiting found ↔ r.Lists (Filed.All waiting) (Filed.All found) := by
  cases r <;> exact Iff.rfl

end Residual

namespace Constraint

/-- The constraint names a quantifier, so it stands in for one. -/
def IsStandIn (c : Constraint) : Prop :=
  c.operator ∈ [Quantifier.universal.tag, Quantifier.existential.tag]

instance (c : Constraint) : Decidable c.IsStandIn :=
  inferInstanceAs (Decidable (c.operator ∈ [Quantifier.universal.tag, Quantifier.existential.tag]))

/-- The constraint compares with one of these operands, or it stands in for a quantifier. -/
def IsOver (operands : List Value) (c : Constraint) : Prop :=
  c.operand ∈ operands ∨ c.IsStandIn

end Constraint

namespace Policy

theorem isStandIn_standIn (quantifier : Quantifier) (path : Path) (filter : Option Policy)
    (body : Policy) (binding : Path) (positive : Bool) :
    ((Policy.quantified quantifier path filter body).standIn binding positive).IsStandIn := by
  cases positive <;> cases quantifier <;>
    simp [Constraint.IsStandIn, standIn, Policy.withPolarity, negate, Policy.tag, Quantifier.dual]

theorem path_countConstraint (binding : Path) (comparator : String) (operand : Value)
    (positive : Bool) : (countConstraint binding comparator operand positive).path = binding := by
  unfold countConstraint
  cases positive with
  | true => rfl
  | false => cases inverseComparator? comparator <;> rfl

theorem operand_countConstraint (binding : Path) (comparator : String) (operand : Value)
    (positive : Bool) : (countConstraint binding comparator operand positive).operand = operand := by
  unfold countConstraint
  cases positive with
  | true => rfl
  | false => cases inverseComparator? comparator <;> rfl

end Policy

namespace Call

variable {registry : Registry} {operands : List Value} {call other : Call}

/-- A call evaluates a part of a policy, so it has no further operands. -/
theorem Makes.isOver (makes : call.Makes registry other) (h : call.policy.IsOver operands) :
    other.policy.IsOver operands := by
  cases makes with
  | part joined member => exact Policy.isOver_connected.mp h _ member
  | alternative joined comes => exact Policy.isOver_connected.mp h _ comes.mem
  | negation => exact h
  | filter there listed comes => exact (Policy.isOver_quantified.mp h).1 _ rfl
  | body there listed comes passes => exact (Policy.isOver_quantified.mp h).2
  | counted there listed member => exact (Policy.isOver_counted.mp h).1 _ rfl

theorem Waits.isOver {c : Constraint} (waits : call.Waits c) (h : call.policy.IsOver operands) :
    c.IsOver operands := by
  cases waits with
  | leaf missing =>
    left
    rw [Constraint.operand_withPolarity]
    exact Policy.isOver_leaf.mp h
  | quantified missing => exact .inr (Policy.isStandIn_standIn ..)
  | counted missing =>
    left
    rw [Policy.operand_countConstraint]
    exact (Policy.isOver_counted.mp h).2

theorem Fails.isOver {v : Violation} (fails : call.Fails registry v)
    (h : call.policy.IsOver operands) : v.constraint.IsOver operands := by
  cases fails with
  | leaf there registered failed =>
    left
    rw [Constraint.operand_withPolarity]
    exact Policy.isOver_leaf.mp h
  | quantified there => exact .inr (Policy.isStandIn_standIn ..)
  | scalar | counted =>
    left
    rw [Policy.operand_countConstraint]
    exact (Policy.isOver_counted.mp h).2

end Call

/-- Whatever is reported compares with an operand of the policy, or stands in for a quantifier. -/
theorem Policy.all_of_evaluateAt {registry : Registry} {operands : List Value} {p : Policy}
    {document : Value} {place : Path} {positive : Bool} {r : Residual} (covered : p.IsOver operands)
    (h : p.evaluateAt registry document place positive = .ok r) :
    r.All (Constraint.IsOver operands) fun v => v.constraint.IsOver operands := by
  have inherited {origin : Call} (visits : Call.Visits registry ⟨p, document, place, positive⟩ origin) :
      origin.policy.IsOver operands :=
    visits.preserves (P := fun call => call.policy.IsOver operands) Call.Makes.isOver covered
  refine Residual.all_iff_lists.mpr ((Call.yields_of_evaluateAt h).mono (fun _ filed => ?_)
    fun _ filed => ?_)
  · refine (filed.mono ?_).all
    rintro c ⟨origin, visits, waits⟩
    exact waits.isOver (inherited visits)
  · refine (filed.mono ?_).all
    rintro v ⟨origin, visits, fails⟩
    exact fails.isOver (inherited visits)

end ResidualPolicy
