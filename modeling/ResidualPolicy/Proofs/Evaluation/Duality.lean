import ResidualPolicy.Pattern.Reader
import ResidualPolicy.Proofs.Evaluation.Calls
import ResidualPolicy.Proofs.Evaluation.Decision

/-!
# A policy and its negation

The negation of a policy that is satisfied is violated, and with one exception it is the other way
round, too, and what is open is open under the negation (`Residual.Opposes`). The exception are
quantifiers and counts over a value that is no collection. They are violated under both polarities, and
so may be what contains them (`Call.Strays`).

The proof is one induction on policies for both statements (`Call.Mirrors`). Connectives and
quantifiers turn into their duals, for which a decision and the lack of one change places
(`Quantifier.Decision`). A call that leads nowhere astray leaves out parts and elements only where
something has been decided, and there what it has come to is enough to decide the dual.
-/

namespace ResidualPolicy

/-! ## Opposite residuals -/

/-- One residual is satisfied and the other one in conflict, or both are open. -/
inductive Residual.Opposes : Residual → Residual → Prop where
  | satisfied (violations : Filed Violation) : Opposes .satisfied (.conflict violations)
  | conflict (violations : Filed Violation) : Opposes (.conflict violations) .satisfied
  | pending (constraints others : Filed Constraint) : Opposes (.pending constraints) (.pending others)

namespace Residual

theorem Opposes.symm {r n : Residual} (h : r.Opposes n) : n.Opposes r := by
  cases h with
  | satisfied violations => exact .conflict _
  | conflict violations => exact .satisfied _
  | pending constraints others => exact .pending _ _

theorem Opposes.decision_iff {r n : Residual} (h : r.Opposes n) (quantifier : Quantifier) :
    quantifier.Decision r ↔ quantifier.dual.Decision n := by
  cases h <;> cases quantifier <;>
    simp [Quantifier.dual, Quantifier.decision_universal, Quantifier.decision_existential]

theorem Opposes.dual_decision_iff {r n : Residual} (h : r.Opposes n) (quantifier : Quantifier) :
    quantifier.dual.Decision r ↔ quantifier.Decision n := by
  rw [h.decision_iff, Quantifier.dual_dual]

/-- Residuals oppose each other if the decisions of a quantifier do. -/
theorem opposes_of_decision_iff (quantifier : Quantifier) {r n : Residual}
    (decides : quantifier.Decision r ↔ quantifier.dual.Decision n)
    (abstains : quantifier.dual.Decision r ↔ quantifier.Decision n) : r.Opposes n := by
  have conflict : Quantifier.universal.Decision r ↔ Quantifier.existential.Decision n := by
    cases quantifier
    exacts [decides, abstains]
  have satisfied : Quantifier.existential.Decision r ↔ Quantifier.universal.Decision n := by
    cases quantifier
    exacts [abstains, decides]
  rw [Quantifier.decision_universal, Quantifier.decision_existential] at conflict satisfied
  cases r with
  | satisfied =>
    obtain ⟨violations, rfl⟩ := satisfied.mp rfl
    exact .satisfied violations
  | conflict violations =>
    cases conflict.mp ⟨violations, rfl⟩
    exact .conflict violations
  | pending constraints =>
    cases n with
    | satisfied => exact nomatch conflict.mpr rfl
    | pending others => exact .pending constraints others
    | conflict violations => exact nomatch satisfied.mpr ⟨violations, rfl⟩

end Residual

theorem Connective.withPolarity_not (connective : Connective) (positive : Bool) :
    connective.withPolarity (!positive) = (connective.withPolarity positive).dual := by
  cases positive <;> simp [withPolarity]

theorem Quantifier.withPolarity_not (quantifier : Quantifier) (positive : Bool) :
    quantifier.withPolarity (!positive) = (quantifier.withPolarity positive).dual := by
  cases positive <;> simp [withPolarity]

/-! ## Connectives -/

namespace Connective

/-- If every part that is satisfied is violated under the negation, so is the whole. -/
theorem conflict_join_dual (connective : Connective) {rs ns : List Residual}
    (parts : List.Forall₂ (fun r n => Quantifier.existential.Decision r →
      Quantifier.universal.Decision n) rs ns)
    (satisfied : Quantifier.existential.Decision (connective.join rs)) :
    Quantifier.universal.Decision (connective.dual.join ns) := by
  cases connective with
  | conjunction =>
    have each := (dual_decision_join_iff .conjunction rs).mp satisfied
    refine (dual_decision_join_iff .disjunction ns).mpr fun n member => ?_
    obtain ⟨r, among, turns⟩ := exists_mem_of_forall₂ parts n member
    exact turns (each r among)
  | disjunction =>
    obtain ⟨r, member, satisfied⟩ := (decision_join_iff .disjunction rs).mp satisfied
    obtain ⟨n, among, turns⟩ := exists_mem_of_forall₂ parts.flip r member
    exact (decision_join_iff .conjunction ns).mpr ⟨n, among, turns satisfied⟩

/-- Dual connectives of opposite parts are opposite. -/
theorem opposes_join_dual (connective : Connective) {rs ns : List Residual}
    (parts : List.Forall₂ Residual.Opposes rs ns) :
    (connective.join rs).Opposes (connective.dual.join ns) := by
  have forth (n : Residual) (member : n ∈ ns) := exists_mem_of_forall₂ parts n member
  have back (r : Residual) (member : r ∈ rs) := exists_mem_of_forall₂ parts.flip r member
  have decision := decision_join_iff connective.dual ns
  have dual := dual_decision_join_iff connective.dual ns
  rw [quantifier_dual] at decision dual
  rw [Quantifier.dual_dual] at dual
  refine Residual.opposes_of_decision_iff connective.quantifier ?_ ?_
  · rw [decision_join_iff, decision]
    constructor
    · rintro ⟨r, member, decides⟩
      obtain ⟨n, among, opposes⟩ := back r member
      exact ⟨n, among, (opposes.decision_iff _).mp decides⟩
    · rintro ⟨n, member, decides⟩
      obtain ⟨r, among, opposes⟩ := forth n member
      exact ⟨r, among, (opposes.decision_iff _).mpr decides⟩
  · rw [dual_decision_join_iff, dual]
    constructor
    · intro each n member
      obtain ⟨r, among, opposes⟩ := forth n member
      exact (opposes.dual_decision_iff _).mp (each r among)
    · intro each r member
      obtain ⟨n, among, opposes⟩ := back r member
      exact (opposes.dual_decision_iff _).mpr (each n among)

end Connective

/-! ## Collections -/

namespace Quantifier

variable {quantifier : Quantifier} {filter body other : AtPlace} {elements : List (Path × Value)}
  {failed failed' : Filed Violation} {r n : Residual}

/-- If the body under the negation is violated on every element on which the body is satisfied, so is
the dual quantifier where the quantifier is satisfied. -/
theorem Surveyed.conflict_of_satisfied (wf : filter.IsWellFormed) (wb : body.IsWellFormed)
    (wo : other.IsWellFormed)
    (hr : Surveyed quantifier filter body (.conflict failed) [] [] elements r)
    (hn : Surveyed quantifier.dual filter other (.conflict failed') [] [] elements n)
    (turns : ∀ element ∈ elements, body element.2 element.1 = .ok .satisfied →
      ∃ s, other element.2 element.1 = .ok s ∧ Quantifier.universal.Decision s)
    (satisfied : Quantifier.existential.Decision r) : Quantifier.universal.Decision n := by
  cases quantifier with
  | universal =>
    have each := ((hr.dual_decision_iff wf wb).mp satisfied).2
    refine (hn.dual_decision_iff wf wo).mpr ⟨rfl, fun element member => ?_⟩
    rcases each element member with rejected | ⟨s, evaluated, ⟨⟩⟩
    · exact .inl rejected
    · exact .inr (turns element member evaluated)
  | existential =>
    obtain ⟨element, comes, filtered, s, evaluated, ⟨⟩⟩ := hr.exists_of_decision satisfied
    exact hn.decision_of_mem comes.mem ⟨filtered, turns element comes.mem evaluated⟩

/-- The filter rejects the element, or two bodies return opposite residuals on it. -/
def Opposed (filter body other : AtPlace) (element : Path × Value) : Prop :=
  (∃ failed, filter element.2 element.1 = .ok (.conflict failed)) ∨
    ∃ s t, body element.2 element.1 = .ok s ∧ other element.2 element.1 = .ok t ∧ s.Opposes t

variable {element : Path × Value}

theorem Opposed.decides_iff (h : Opposed filter body other element) :
    quantifier.Decides filter body element ↔ quantifier.dual.Decides filter other element := by
  rcases h with ⟨failed, rejected⟩ | ⟨s, t, evaluated, turned, opposes⟩
  · unfold Decides
    simp [rejected]
  · unfold Decides
    simp only [evaluated, turned, Except.ok.injEq, exists_eq_left', opposes.decision_iff quantifier]

theorem Opposed.abstains_iff (h : Opposed filter body other element) :
    quantifier.Abstains filter body element ↔ quantifier.dual.Abstains filter other element := by
  rcases h with rejected | ⟨s, t, evaluated, turned, opposes⟩
  · exact iff_of_true (.inl rejected) (.inl rejected)
  · unfold Abstains
    simp only [evaluated, turned, Except.ok.injEq, exists_eq_left', opposes.dual_decision_iff,
      Quantifier.dual_dual]

/-- If bodies are opposite on the elements to which a survey comes, the quantifier over the one and its
dual over the other are opposite. -/
theorem Surveyed.opposes (wf : filter.IsWellFormed) (wb : body.IsWellFormed)
    (wo : other.IsWellFormed)
    (hr : Surveyed quantifier filter body (.conflict failed) [] [] elements r)
    (hn : Surveyed quantifier.dual filter other (.conflict failed') [] [] elements n)
    (opposed : ∀ element, ComesTo (quantifier.GoesOn filter body) element elements →
      Opposed filter body other element) : r.Opposes n := by
  by_cases decision : quantifier.Decision r
  · -- The survey has come to an element that decides, and so does the element for the dual.
    obtain ⟨element, comes, decides⟩ := hr.exists_of_decision decision
    have decision' : quantifier.dual.Decision n :=
      hn.decision_of_mem comes.mem ((opposed element comes).decides_iff.mp decides)
    refine Residual.opposes_of_decision_iff quantifier (iff_of_true decision decision') ?_
    exact iff_of_false decision.not_dual (quantifier.dual_dual ▸ decision'.not_dual)
  · -- The survey has come to all elements, and they decide or abstain for both.
    have all {element : Path × Value} (member : element ∈ elements) :=
      opposed element (hr.comesTo_of_not_decision decision member)
    have dual := hn.dual_decision_iff wf wo
    rw [Quantifier.dual_dual] at dual
    refine Residual.opposes_of_decision_iff quantifier (iff_of_false decision fun decision' => ?_) ?_
    · obtain ⟨element, comes, decides⟩ := hn.exists_of_decision decision'
      exact decision (hr.decision_of_mem comes.mem ((all comes.mem).decides_iff.mpr decides))
    · rw [hr.dual_decision_iff wf wb, dual]
      exact and_congr_right fun _ => forall₂_congr fun element member => (all member).abstains_iff

end Quantifier

/-! ## Calls -/

namespace Call

variable {registry : Registry} {call other : Call}

/-- The call asks for the elements of a value that is there and is no collection. -/
inductive Strays : Call → Prop where
  | quantified {quantifier : Quantifier} {path : Path} {filter : Option Policy} {body : Policy}
      {document found : Value} {place : Path} {positive : Bool}
      (there : path.find? document = some found) (scalar : found.elements? = none) :
      Strays ⟨.quantified quantifier path filter body, document, place, positive⟩
  | counted {path : Path} {filter : Option Policy} {comparator : String}
      {operand document found : Value} {place : Path} {positive : Bool}
      (there : path.find? document = some found) (scalar : found.elements? = none) :
      Strays ⟨.counted path filter comparator operand, document, place, positive⟩

/-- The call leads to none that strays. -/
def IsStraight (registry : Registry) (call : Call) : Prop :=
  ∀ origin, call.Visits registry origin → ¬origin.Strays

theorem IsStraight.makes (h : call.IsStraight registry) (makes : call.Makes registry other) :
    other.IsStraight registry :=
  fun origin visits => h origin (.head makes visits)

/-- What may be returned under the other polarity where a call returns `r`. -/
structure Mirrors (registry : Registry) (call : Call) (r n : Residual) : Prop where
  conflict : Quantifier.existential.Decision r → Quantifier.universal.Decision n
  opposes : call.IsStraight registry → r.Opposes n

theorem mirrors_of_opposes {r n : Residual} (h : r.Opposes n) : call.Mirrors registry r n where
  conflict := (h.decision_iff _).mp
  opposes _ := h

/-- A call that strays may be violated under both polarities. -/
theorem Strays.mirrors (h : call.Strays) (violations others : Filed Violation) :
    call.Mirrors registry (.conflict violations) (.conflict others) where
  conflict satisfied := by cases satisfied
  opposes straight := absurd h (straight _ .refl)

/-- One test, asked for under the one polarity and under the other. -/
theorem opposes_of_test {test positive : Bool} {c d : Constraint} {witness : Value} {r n : Residual}
    (hr : (if (test == positive) = true then .ok .satisfied else .ok (.violated c witness) : Outcome) =
      .ok r)
    (hn : (if (test == !positive) = true then .ok .satisfied else .ok (.violated d witness) : Outcome) =
      .ok n) : r.Opposes n := by
  by_cases passed : test = positive
  · rw [if_pos (beq_iff_eq.mpr passed)] at hr
    rw [if_neg (by simp [passed])] at hn
    rw [← Except.ok.inj hr, ← Except.ok.inj hn]
    exact .satisfied _
  · rw [if_neg (mt beq_iff_eq.mp passed)] at hr
    rw [if_pos (beq_iff_eq.mpr (Bool.eq_not_of_ne passed))] at hn
    rw [← Except.ok.inj hr, ← Except.ok.inj hn]
    exact .conflict _

theorem opposes_leaf {c : Constraint} {document : Value} {place : Path} {positive : Bool}
    {r n : Residual} (hr : c.evaluate registry document place positive = .ok r)
    (hn : c.evaluate registry document place (!positive) = .ok n) : r.Opposes n := by
  cases there : c.path.find? document with
  | none =>
    rw [Constraint.evaluate_missing there] at hr hn
    rw [← Except.ok.inj hr, ← Except.ok.inj hn]
    exact .pending _ _
  | some found =>
    rw [Constraint.evaluate, there] at hr hn
    obtain ⟨op, registered, hr⟩ := bind_eq_ok hr
    obtain ⟨op', registered', hn⟩ := bind_eq_ok hn
    cases Except.ok.inj (registered.symm.trans registered')
    exact opposes_of_test hr hn

theorem mirrors_counted {path : Path} {filter : Option Policy} {comparator : String}
    {operand document : Value} {place : Path} {positive : Bool} {r n : Residual}
    (hr : (Policy.counted path filter comparator operand).evaluateAt registry document place positive =
      .ok r)
    (hn : (Policy.counted path filter comparator operand).evaluateAt registry document place
      (!positive) = .ok n) :
    Mirrors registry ⟨.counted path filter comparator operand, document, place, positive⟩ r n := by
  rw [Policy.evaluateAt] at hr hn
  cases there : path.find? document with
  | none =>
    rw [there] at hr hn
    rw [← Except.ok.inj hr, ← Except.ok.inj hn]
    exact mirrors_of_opposes (.pending _ _)
  | some collection =>
    rw [there] at hr hn
    dsimp only at hr hn
    cases listed : collection.elements? with
    | none =>
      rw [listed] at hr hn
      rw [← Except.ok.inj hr, ← Except.ok.inj hn]
      exact (Strays.counted there listed).mirrors _ _
    | some elements =>
      rw [listed] at hr hn
      obtain ⟨count, counted, hr⟩ := bind_eq_ok hr
      obtain ⟨count', counted', hn⟩ := bind_eq_ok hn
      cases Except.ok.inj (counted.symm.trans counted')
      obtain ⟨op, registered, hr⟩ := bind_eq_ok hr
      obtain ⟨op', registered', hn⟩ := bind_eq_ok hn
      cases Except.ok.inj (registered.symm.trans registered')
      exact mirrors_of_opposes (opposes_of_test hr hn)

theorem forall₂_of_evaluateAll_of_evaluateAll {parts : List Policy} {document : Value} {place : Path}
    {positive : Bool} {rs ns : List Residual}
    (hr : Policy.evaluateAll registry parts document place positive = .ok rs)
    (hn : Policy.evaluateAll registry parts document place (!positive) = .ok ns) :
    List.Forall₂ (fun r n => ∃ p ∈ parts, p.evaluateAt registry document place positive = .ok r ∧
      p.evaluateAt registry document place (!positive) = .ok n) rs ns := by
  induction parts generalizing rs ns with
  | nil =>
    rw [Policy.evaluateAll] at hr hn
    rw [← Except.ok.inj hr, ← Except.ok.inj hn]
    exact .nil
  | cons p rest ih =>
    obtain ⟨r, later, first, others, rfl⟩ := Policy.evaluateAll_eq_ok hr
    obtain ⟨n, later', first', others', rfl⟩ := Policy.evaluateAll_eq_ok hn
    refine .cons ⟨p, List.mem_cons_self, first, first'⟩ ((ih others others').imp ?_)
    rintro r n ⟨q, member, both⟩
    exact ⟨q, List.mem_cons_of_mem _ member, both⟩

/-- Parts of a disjunction that is not satisfied are all tried. -/
theorem comesTo_of_not_satisfied {parts : List Policy} {document : Value} {place : Path}
    {positive : Bool} {rs : List Residual}
    (all : Policy.evaluateAll registry parts document place positive = .ok rs)
    (undecided : ¬Quantifier.existential.Decision (Connective.disjunction.join rs)) {p : Policy}
    (member : p ∈ parts) : ComesTo (Policy.GoesOn registry document place positive) p parts := by
  refine .of_forall (fun q among => ?_) member
  obtain ⟨r, here, evaluated⟩ := exists_mem_of_forall₂ (Policy.forall₂_of_evaluateAll all).flip q among
  refine ⟨r, evaluated, ?_⟩
  rintro rfl
  exact undecided ((Connective.decision_join_iff .disjunction rs).mpr ⟨_, here, .existential⟩)

/-- A connective and its dual mirror each other if the parts do. -/
theorem mirrors_connected {connective : Connective} {parts : List Policy} {document : Value}
    {place : Path} {positive : Bool} {rs ns : List Residual}
    (hr : Policy.evaluateAll registry parts document place positive = .ok rs)
    (hn : Policy.evaluateAll registry parts document place (!positive) = .ok ns)
    (each : ∀ p ∈ parts, ∀ r n, p.evaluateAt registry document place positive = .ok r →
      p.evaluateAt registry document place (!positive) = .ok n →
      Mirrors registry ⟨p, document, place, positive⟩ r n) :
    Mirrors registry ⟨.connected connective parts, document, place, positive⟩
      ((connective.withPolarity positive).join rs)
      ((connective.withPolarity positive).dual.join ns) := by
  have pairs := forall₂_of_evaluateAll_of_evaluateAll hr hn
  have turns : List.Forall₂ (fun r n => Quantifier.existential.Decision r →
      Quantifier.universal.Decision n) rs ns := by
    refine pairs.imp ?_
    rintro r n ⟨p, member, evaluated, evaluated'⟩
    exact (each p member r n evaluated evaluated').conflict
  have opposes (straight : ∀ p ∈ parts, IsStraight registry ⟨p, document, place, positive⟩) :
      List.Forall₂ Residual.Opposes rs ns := by
    refine pairs.imp ?_
    rintro r n ⟨p, member, evaluated, evaluated'⟩
    exact (each p member r n evaluated evaluated').opposes (straight p member)
  have conflict := (connective.withPolarity positive).conflict_join_dual turns
  refine ⟨conflict, fun straight => ?_⟩
  cases joined : connective.withPolarity positive with
  | conjunction =>
    exact Connective.opposes_join_dual .conjunction
      (opposes fun p member => straight.makes (.part joined member))
  | disjunction =>
    rw [joined] at conflict
    by_cases satisfied : Quantifier.existential.Decision (Connective.disjunction.join rs)
    · exact Residual.opposes_of_decision_iff .existential
        (iff_of_true satisfied (conflict satisfied))
        (iff_of_false satisfied.not_dual (conflict satisfied).not_dual)
    · exact Connective.opposes_join_dual .disjunction (opposes fun p member =>
        straight.makes (.alternative joined (comesTo_of_not_satisfied hr satisfied member)))

theorem isWellFormed_evaluateAt (registry : Registry) (p : Policy) (positive : Bool) :
    AtPlace.IsWellFormed fun v here => p.evaluateAt registry v here positive :=
  fun _ _ _ evaluated => Policy.wellFormed_of_evaluateAt evaluated

theorem isWellFormed_evaluateFilter (registry : Registry) (filter : Option Policy) :
    AtPlace.IsWellFormed (Policy.evaluateFilter registry filter) :=
  fun _ _ _ evaluated => Policy.of_evaluateFilter .satisfied evaluated
    fun _ _ _ found => Policy.wellFormed_of_evaluateAt found

/-- A quantifier and its dual mirror each other if the bodies do. -/
theorem mirrors_quantified {quantifier : Quantifier} {path : Path} {filter : Option Policy}
    {body : Policy} {document : Value} {place : Path} {positive : Bool} {r n : Residual}
    (filters : ∀ v here, ∃ s, Policy.evaluateFilter registry filter v here = .ok s)
    (returns : ∀ v here polarity, ∃ s, body.evaluateAt registry v here polarity = .ok s)
    (bodies : ∀ v here s t, body.evaluateAt registry v here positive = .ok s →
      body.evaluateAt registry v here (!positive) = .ok t →
      Mirrors registry ⟨body, v, here, positive⟩ s t)
    (hr : (Policy.quantified quantifier path filter body).evaluateAt registry document place
      positive = .ok r)
    (hn : (Policy.quantified quantifier path filter body).evaluateAt registry document place
      (!positive) = .ok n) :
    Mirrors registry ⟨.quantified quantifier path filter body, document, place, positive⟩ r n := by
  rw [Policy.evaluateAt] at hr hn
  cases there : path.find? document with
  | none =>
    rw [there] at hr hn
    rw [← Except.ok.inj hr, ← Except.ok.inj hn]
    exact mirrors_of_opposes (.pending _ _)
  | some collection =>
    rw [there] at hr hn
    dsimp only at hr hn
    cases listed : collection.elements? with
    | none =>
      rw [listed] at hr hn
      rw [← Except.ok.inj hr, ← Except.ok.inj hn]
      exact (Strays.quantified there listed).mirrors _ _
    | some elements =>
      rw [listed] at hr hn
      dsimp only at hr hn
      rw [quantifier.withPolarity_not] at hn
      have surveyed := Quantifier.surveyed_of_survey hr
      have surveyed' := Quantifier.surveyed_of_survey hn
      have wf := isWellFormed_evaluateFilter registry filter
      have wb := isWellFormed_evaluateAt registry body
      constructor
      · refine surveyed.conflict_of_satisfied wf (wb _) (wb _) surveyed' fun element _ evaluated => ?_
        obtain ⟨t, turned⟩ := returns element.2 element.1 (!positive)
        exact ⟨t, turned, (bodies _ _ _ _ evaluated turned).conflict .existential⟩
      · intro straight
        refine surveyed.opposes wf (wb _) (wb _) surveyed' fun element comes => ?_
        obtain ⟨selected, filtered⟩ := filters element.2 element.1
        by_cases passes : ∀ failed, selected ≠ .conflict failed
        · have makes := Makes.body there listed comes ⟨selected, filtered, passes⟩
          obtain ⟨s, evaluated⟩ := returns element.2 element.1 positive
          obtain ⟨t, turned⟩ := returns element.2 element.1 (!positive)
          exact .inr ⟨s, t, evaluated, turned,
            (bodies _ _ _ _ evaluated turned).opposes (straight.makes makes)⟩
        · simp only [ne_eq, not_forall, not_not] at passes
          obtain ⟨failed, rfl⟩ := passes
          exact .inl ⟨failed, filtered⟩

/-- A call is mirrored by the call with the other polarity. -/
theorem mirrors_of_evaluateAt {p : Policy} (known : registry.Knows p) {document : Value}
    {place : Path} {positive : Bool} {r n : Residual}
    (hr : p.evaluateAt registry document place positive = .ok r)
    (hn : p.evaluateAt registry document place (!positive) = .ok n) :
    Mirrors registry ⟨p, document, place, positive⟩ r n := by
  induction p generalizing document place positive r n with
  | leaf c =>
    rw [Policy.evaluateAt] at hr hn
    exact mirrors_of_opposes (opposes_leaf hr hn)
  | connected connective parts ih =>
    have known := Registry.knows_connected.mp known
    obtain ⟨rs, all⟩ := Policy.evaluateAll_ok fun p member =>
      Policy.evaluateAt_ok (known p member) document place positive
    obtain ⟨ns, all'⟩ := Policy.evaluateAll_ok fun p member =>
      Policy.evaluateAt_ok (known p member) document place (!positive)
    rw [Policy.evaluateAt_connected all] at hr
    rw [Policy.evaluateAt_connected all', connective.withPolarity_not] at hn
    rw [← Except.ok.inj hr, ← Except.ok.inj hn]
    exact mirrors_connected all all' fun p member r n => ih p member (known p member)
  | negation p ih =>
    rw [Policy.evaluateAt] at hr hn
    have mirrors := ih known hr hn
    exact ⟨mirrors.conflict, fun straight => mirrors.opposes (straight.makes .negation)⟩
  | quantified quantifier path filter body ihFilter ihBody =>
    obtain ⟨knownFilter, knownBody⟩ := Registry.knows_quantified.mp known
    refine mirrors_quantified (fun v here => ?_) (Policy.evaluateAt_ok knownBody)
      (fun v here s t => ihBody knownBody) hr hn
    exact Policy.evaluateFilter_ok fun f member =>
      Policy.evaluateAt_ok (knownFilter f member) v here true
  | counted path filter comparator operand ih => exact mirrors_counted hr hn

end Call

namespace Policy

variable {registry : Registry}

/-- Of a policy and its negation, at most one is satisfied, and then the other one is violated. They are
opposite unless both evaluations come to a quantifier or a count over a value that is no collection. -/
theorem opposes_negation {p : Policy} (known : registry.Knows p) (document : Value) :
    ∃ r n, p.evaluate registry document = .ok r ∧
      (Policy.negation p).evaluate registry document = .ok n ∧
      (r = .satisfied → ∃ violations, n = .conflict violations) ∧
      (n = .satisfied → ∃ violations, r = .conflict violations) ∧
      (∀ constraints, r = .pending constraints → n ≠ .satisfied) ∧
      (∀ constraints, n = .pending constraints → r ≠ .satisfied) ∧
      (Call.IsStraight registry ⟨p, document, .root, true⟩ ∨
        Call.IsStraight registry ⟨.negation p, document, .root, true⟩ → r.Opposes n) := by
  obtain ⟨r, hr⟩ := evaluateAt_ok known document .root true
  obtain ⟨n, hn⟩ := evaluateAt_ok known document .root false
  have mirrors := Call.mirrors_of_evaluateAt known hr hn
  have back := Call.mirrors_of_evaluateAt known hn hr
  have forth : r = .satisfied → ∃ violations, n = .conflict violations := fun satisfied =>
    Quantifier.decision_universal.mp (mirrors.conflict (satisfied ▸ .existential))
  have back' : n = .satisfied → ∃ violations, r = .conflict violations := fun satisfied =>
    Quantifier.decision_universal.mp (back.conflict (satisfied ▸ .existential))
  refine ⟨r, n, hr, by rw [evaluate, evaluateAt]; exact hn, forth, back', ?_, ?_, ?_⟩
  · rintro constraints rfl satisfied
    obtain ⟨violations, conflict⟩ := back' satisfied
    cases conflict
  · rintro constraints rfl satisfied
    obtain ⟨violations, conflict⟩ := forth satisfied
    cases conflict
  · rintro (straight | straight)
    · exact mirrors.opposes straight
    · exact (back.opposes (straight.makes .negation)).symm

/-- A quantifier over two members, beside a quantifier over a number. -/
theorem opposes_negation_of_members :
    let members : Path := ⟨[.string "members"]⟩
    let senior : Policy :=
      .leaf { path := ⟨[.string "age"]⟩, operator := ">", operand := .ofNat 40 }
    let p : Policy := .connected .disjunction
      [.quantified .existential members none senior,
        .negation (.quantified .universal ⟨[.string "limit"]⟩ none senior)]
    let document : Value := .object
      [(.string "limit", .ofNat 3), (.string "members", .array
        [.object [(.string "age", .ofNat 30)], .object [(.string "age", .ofNat 50)]])]
    Registry.builtins.Knows p ∧ ∃ r n, p.evaluate .builtins document = .ok r ∧
      (Policy.negation p).evaluate .builtins document = .ok n ∧
      (r = .satisfied → ∃ violations, n = .conflict violations) ∧
      (n = .satisfied → ∃ violations, r = .conflict violations) ∧
      (∀ constraints, r = .pending constraints → n ≠ .satisfied) ∧
      (∀ constraints, n = .pending constraints → r ≠ .satisfied) ∧
      (Call.IsStraight .builtins ⟨p, document, .root, true⟩ ∨
        Call.IsStraight .builtins ⟨.negation p, document, .root, true⟩ → r.Opposes n) := by
  intro members senior p document
  have known : Registry.builtins.Knows p := by decide +kernel
  exact ⟨known, opposes_negation known document⟩

/-- A quantifier over a number is violated under both polarities. -/
example :
    let p : Policy := .quantified .universal ⟨[.string "limit"]⟩ none (.connected .conjunction [])
    let document : Value := .object [(.string "limit", .ofNat 3)]
    ((p.evaluate .builtins document).toOption.map Residual.kindText,
      ((Policy.negation p).evaluate .builtins document).toOption.map Residual.kindText) =
        (some "conflict", some "conflict") := by
  decide +kernel

end Policy

end ResidualPolicy
