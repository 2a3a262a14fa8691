import ResidualPolicy.Proofs.Evaluation

/-!
# When parts decide a whole

A violated element decides a universal quantifier, a satisfied one an existential quantifier
(`Quantifier.Decision`). With the dual kind of residual an element has no say, and if all elements are
like that the whole has that residual, too: a universal quantifier is satisfied, an existential one
violated. Everything else is open.

`Surveyed.decision_of_mem`, `Surveyed.exists_of_decision` and `Surveyed.dual_decision_iff` say so of
surveys, where elements also have to be selected by the filter. Connectives are quantifiers over their
parts, without filters and without collections that may be missing, and
`Connective.decision_join_iff` and `Connective.dual_decision_join_iff` say the same of them. Since
both laws are about either kind of whole, statements about duals need no cases.

A connective weighs the outcomes of its parts one after the other, a disjunction up to one that is
satisfied (`Policy.evaluateAt_connected_eq_weigh`). Where all parts have residuals this comes to the
same as joining them all (`Policy.evaluateAt_connected`).
-/

namespace ResidualPolicy

/-- Only well-formed residuals are returned. -/
def AtPlace.IsWellFormed (evaluation : AtPlace) : Prop :=
  ∀ v place r, evaluation v place = .ok r → r.WellFormed

namespace Quantifier

/-! ## Decisions -/

/-- The residuals with which an element can decide. -/
inductive Decision : Quantifier → Residual → Prop where
  | universal (violations : Filed Violation) : Decision .universal (.conflict violations)
  | existential : Decision .existential .satisfied

variable {quantifier : Quantifier}

theorem decision_universal {r : Residual} :
    Quantifier.universal.Decision r ↔ ∃ violations, r = .conflict violations := by
  constructor
  · rintro ⟨violations⟩
    exact ⟨violations, rfl⟩
  · rintro ⟨violations, rfl⟩
    exact .universal violations

theorem decision_existential {r : Residual} :
    Quantifier.existential.Decision r ↔ r = .satisfied := by
  constructor
  · rintro ⟨⟩
    rfl
  · rintro rfl
    exact .existential

theorem Decision.not_dual {r : Residual} (h : quantifier.Decision r) : ¬quantifier.dual.Decision r := by
  cases h <;> exact nofun

/-! ## One element -/

theorem eq_of_decides {selected inner r : Residual}
    (h : quantifier.verdict selected inner = .decides r) :
    selected = .satisfied ∧ inner = r ∧ quantifier.Decision r := by
  cases quantifier <;> cases selected <;> cases inner <;> simp only [verdict, reduceCtorEq] at h
  · exact ⟨rfl, Verdict.decides.inj h, Verdict.decides.inj h ▸ .universal _⟩
  · exact ⟨rfl, Verdict.decides.inj h, Verdict.decides.inj h ▸ .existential⟩

theorem verdict_of_decision {inner : Residual} (h : quantifier.Decision inner) :
    quantifier.verdict .satisfied inner = .decides inner := by
  cases h <;> rfl

/-- An element leaves nothing open if the filter rejects it or the body has no say. -/
theorem eq_nil_iff_of_adds {selected inner : Residual} {waiting : Filed Constraint}
    {found : Filed Violation} (ws : selected.WellFormed) (wi : inner.WellFormed)
    (h : quantifier.verdict selected inner = .adds waiting found) :
    waiting = [] ↔ (∃ failed, selected = .conflict failed) ∨ quantifier.dual.Decision inner := by
  have awaited : ∀ constraints, selected = .pending constraints → constraints ≠ [] := by
    rintro constraints rfl
    cases ws with
    | pending filed occupied => exact occupied
  have open_ : ∀ constraints, inner = .pending constraints → constraints ≠ [] := by
    rintro constraints rfl
    cases wi with
    | pending filed occupied => exact occupied
  clear ws wi
  -- What a verdict adds is a table over the kinds of the three.
  cases quantifier <;> cases selected <;> cases inner <;>
    simp only [verdict, reduceCtorEq, Verdict.adds.injEq] at h <;> obtain ⟨rfl, -⟩ := h <;>
    simp_all [dual, decision_universal, decision_existential, Filed.merge_eq_nil_iff]

/-! ## A whole collection -/

variable {filter body : AtPlace} {element : Path × Value}

/-- The filter selects the element, and the body decides on it. -/
def Decides (quantifier : Quantifier) (filter body : AtPlace) (element : Path × Value) : Prop :=
  filter element.2 element.1 = .ok .satisfied ∧
    ∃ r, body element.2 element.1 = .ok r ∧ quantifier.Decision r

/-- The filter rejects the element, or the body has no say on it. -/
def Abstains (quantifier : Quantifier) (filter body : AtPlace) (element : Path × Value) : Prop :=
  (∃ failed, filter element.2 element.1 = .ok (.conflict failed)) ∨
    ∃ r, body element.2 element.1 = .ok r ∧ quantifier.dual.Decision r

theorem Judged.decides {r : Residual} (judged : Judged quantifier filter body element (.decides r)) :
    quantifier.Decision r ∧ quantifier.Decides filter body element := by
  generalize verdict : Verdict.decides r = v at judged
  cases judged with
  | rejected filtered => exact nomatch verdict
  | selected filtered evaluated =>
    obtain ⟨rfl, rfl, decision⟩ := eq_of_decides verdict.symm
    exact ⟨decision, filtered, _, evaluated, decision⟩

theorem Judged.decision {r : Residual}
    (judged : Judged quantifier filter body element (.decides r)) : quantifier.Decision r :=
  judged.decides.1

/-- An element that decides has been selected, and hands on what the body returns. -/
theorem Judged.eq_of_decides {r : Residual}
    (judged : Judged quantifier filter body element (.decides r)) :
    filter element.2 element.1 = .ok .satisfied ∧ body element.2 element.1 = .ok r := by
  generalize verdict : Verdict.decides r = v at judged
  cases judged with
  | rejected filtered => exact nomatch verdict
  | selected filtered evaluated =>
    obtain ⟨rfl, rfl, -⟩ := Quantifier.eq_of_decides verdict.symm
    exact ⟨filtered, evaluated⟩

/-- An element behind which a survey goes on does not decide. -/
theorem GoesOn.not_decides (h : quantifier.GoesOn filter body element) :
    ¬quantifier.Decides filter body element := by
  rintro ⟨filtered, r, evaluated, decision⟩
  obtain ⟨waiting, found, judged⟩ := h
  generalize verdict : Verdict.adds waiting found = v at judged
  cases judged with
  | rejected rejects => exact nomatch filtered.symm.trans rejects
  | selected filtered' evaluated' =>
    cases Except.ok.inj (filtered.symm.trans filtered')
    cases Except.ok.inj (evaluated.symm.trans evaluated')
    rw [verdict_of_decision decision] at verdict
    exact nomatch verdict

theorem Decides.not_abstains (h : quantifier.Decides filter body element) :
    ¬quantifier.Abstains filter body element := by
  obtain ⟨filtered, r, evaluated, decision⟩ := h
  rintro (⟨failed, rejects⟩ | ⟨r', evaluated', dual⟩)
  · exact nomatch filtered.symm.trans rejects
  · cases Except.ok.inj (evaluated.symm.trans evaluated')
    exact decision.not_dual dual

/-- An element behind which a survey goes on leaves nothing open exactly if it abstains. -/
theorem Judged.abstains_iff {waiting : Filed Constraint} {found : Filed Violation}
    (judged : Judged quantifier filter body element (.adds waiting found))
    (wf : filter.IsWellFormed) (wb : body.IsWellFormed) :
    waiting = [] ↔ quantifier.Abstains filter body element := by
  generalize verdict : Verdict.adds waiting found = v at judged
  cases judged with
  | rejected filtered => exact iff_of_true (Verdict.adds.inj verdict).1 (.inl ⟨_, filtered⟩)
  | selected filtered evaluated =>
    rw [eq_nil_iff_of_adds (wf _ _ _ filtered) (wb _ _ _ evaluated) verdict.symm]
    constructor
    · rintro (⟨failed, rfl⟩ | dual)
      · exact .inl ⟨failed, filtered⟩
      · exact .inr ⟨_, evaluated, dual⟩
    · rintro (⟨failed, rejects⟩ | ⟨r, evaluated', dual⟩)
      · exact .inl ⟨failed, Except.ok.inj (filtered.symm.trans rejects)⟩
      · exact .inr (Except.ok.inj (evaluated'.symm.trans evaluated) ▸ dual)

theorem conclude_of_waiting {pending : Filed Constraint} (occupied : pending ≠ [])
    (violations : Filed Violation) (unmatched : Residual) :
    quantifier.conclude pending violations unmatched = .pending pending := by
  unfold conclude
  rw [if_neg]
  rwa [List.isEmpty_iff]

/-- Without a decision the whole is open, or it has the residual that is dual to a decision. -/
theorem dual_decision_conclude_iff {pending : Filed Constraint} {violations failed : Filed Violation} :
    quantifier.dual.Decision (quantifier.conclude pending violations (.conflict failed)) ↔
      pending = [] := by
  cases pending with
  | nil =>
    refine iff_of_true ?_ rfl
    cases quantifier with
    | universal => exact .existential
    | existential => cases violations <;> exact .universal _
  | cons under rest =>
    rw [conclude_of_waiting (List.cons_ne_nil _ _)]
    exact iff_of_false (by cases quantifier <;> exact nofun) (List.cons_ne_nil _ _)

theorem not_decision_conclude (pending : Filed Constraint) (violations failed : Filed Violation) :
    ¬quantifier.Decision (quantifier.conclude pending violations (.conflict failed)) := by
  by_cases occupied : pending = []
  · intro decision
    exact decision.not_dual (dual_decision_conclude_iff.mpr occupied)
  · rw [conclude_of_waiting occupied]
    cases quantifier <;> exact nofun

namespace Surveyed

variable {pending : Filed Constraint} {violations failed : Filed Violation}
  {elements : List (Path × Value)} {r : Residual}

/-- A survey decides at an element to which it comes. -/
theorem exists_of_decision
    (h : Surveyed quantifier filter body (.conflict failed) pending violations elements r)
    (decision : quantifier.Decision r) :
    ∃ element, ComesTo (quantifier.GoesOn filter body) element elements ∧
      quantifier.Decides filter body element := by
  induction h with
  | concluded pending violations => exact absurd decision (not_decision_conclude _ _ _)
  | decided judged => exact ⟨_, .here _, judged.decides.2⟩
  | added judged later ih =>
    obtain ⟨element, comes, decides⟩ := ih decision
    exact ⟨element, .later ⟨_, _, judged⟩ comes, decides⟩

/-- A survey with a decision has it from the first element that decides. -/
theorem exists_first_of_decision
    (h : Surveyed quantifier filter body (.conflict failed) pending violations elements r)
    (decision : quantifier.Decision r) :
    ∃ before element after, elements = before ++ element :: after ∧
      Judged quantifier filter body element (.decides r) ∧
      ∀ other ∈ before, ¬quantifier.Decides filter body other := by
  induction h with
  | concluded pending violations => exact absurd decision (not_decision_conclude _ _ _)
  | decided judged =>
    exact ⟨[], _, _, rfl, judged, fun _ member => absurd member List.not_mem_nil⟩
  | added judged later ih =>
    obtain ⟨before, element, after, rfl, judged', passed⟩ := ih decision
    exact ⟨_ :: before, element, after, rfl, judged',
      List.forall_mem_cons.mpr ⟨GoesOn.not_decides ⟨_, _, judged⟩, passed⟩⟩

/-- A survey over an element that decides has a decision. -/
theorem decision_of_mem
    (h : Surveyed quantifier filter body (.conflict failed) pending violations elements r)
    {element : Path × Value} (member : element ∈ elements)
    (decides : quantifier.Decides filter body element) : quantifier.Decision r := by
  induction h with
  | concluded pending violations => exact absurd member List.not_mem_nil
  | decided judged => exact judged.decision
  | added judged later ih =>
    rcases List.mem_cons.mp member with rfl | among
    · exact absurd decides (GoesOn.not_decides ⟨_, _, judged⟩)
    · exact ih among

/-- A survey has a decision exactly if some element decides. -/
theorem decision_iff
    (h : Surveyed quantifier filter body (.conflict failed) pending violations elements r) :
    quantifier.Decision r ↔ ∃ element ∈ elements, quantifier.Decides filter body element := by
  constructor
  · intro decision
    obtain ⟨element, comes, decides⟩ := h.exists_of_decision decision
    exact ⟨element, comes.mem, decides⟩
  · rintro ⟨element, member, decides⟩
    exact h.decision_of_mem member decides

/-- A survey without a decision comes to all elements. -/
theorem comesTo_of_not_decision
    (h : Surveyed quantifier filter body (.conflict failed) pending violations elements r)
    (undecided : ¬quantifier.Decision r) {element : Path × Value} (member : element ∈ elements) :
    ComesTo (quantifier.GoesOn filter body) element elements := by
  induction h with
  | concluded pending violations => exact absurd member List.not_mem_nil
  | decided judged => exact absurd judged.decision undecided
  | added judged later ih =>
    rcases List.mem_cons.mp member with rfl | among
    · exact .here _
    · exact .later ⟨_, _, judged⟩ (ih undecided among)

/-- Nothing is open and nothing decided exactly if all elements abstain. -/
theorem dual_decision_iff (wf : filter.IsWellFormed) (wb : body.IsWellFormed)
    (h : Surveyed quantifier filter body (.conflict failed) pending violations elements r) :
    quantifier.dual.Decision r ↔
      pending = [] ∧ ∀ element ∈ elements, quantifier.Abstains filter body element := by
  induction h with
  | concluded pending violations =>
    rw [dual_decision_conclude_iff]
    exact (and_iff_left fun _ member => absurd member List.not_mem_nil).symm
  | decided judged =>
    refine iff_of_false judged.decision.not_dual fun abstain => ?_
    exact judged.decides.2.not_abstains (abstain.2 _ List.mem_cons_self)
  | added judged later ih =>
    rw [ih, Filed.merge_eq_nil_iff, judged.abstains_iff wf wb, List.forall_mem_cons, and_assoc]

end Surveyed

end Quantifier

/-! ## Connectives -/

namespace Connective

/-- What a connective is over its parts. -/
def quantifier : Connective → Quantifier
  | .conjunction => .universal
  | .disjunction => .existential

/-- The residual of a connective, from those of all its parts. -/
def join : Connective → List Residual → Residual
  | .conjunction, rs => .conjoin rs
  | .disjunction, rs => .disjoin rs

theorem quantifier_dual (connective : Connective) : connective.dual.quantifier =
    connective.quantifier.dual := by
  cases connective <;> rfl

/-- The residual with one part more. -/
def further : Connective → Residual → Residual → Residual
  | .conjunction => .also
  | .disjunction => .otherwise

/-- The residual without any part. -/
def unit : Connective → Residual
  | .conjunction => .satisfied
  | .disjunction => .conflict []

theorem join_eq_foldl (connective : Connective) (rs : List Residual) :
    connective.join rs = rs.foldl connective.further connective.unit := by
  cases connective <;> rfl

variable {connective : Connective}

theorem decision_further_iff {r s : Residual} :
    connective.quantifier.Decision (connective.further r s) ↔
      connective.quantifier.Decision r ∨ connective.quantifier.Decision s := by
  cases connective <;> cases r <;> cases s <;>
    simp [quantifier, further, Residual.also, Residual.otherwise, Quantifier.decision_universal,
      Quantifier.decision_existential]

theorem dual_decision_further_iff {r s : Residual} :
    connective.quantifier.dual.Decision (connective.further r s) ↔
      connective.quantifier.dual.Decision r ∧ connective.quantifier.dual.Decision s := by
  cases connective <;> cases r <;> cases s <;>
    simp [quantifier, Quantifier.dual, further, Residual.also, Residual.otherwise,
      Quantifier.decision_universal, Quantifier.decision_existential]

theorem dual_decision_unit (connective : Connective) :
    connective.quantifier.dual.Decision connective.unit := by
  cases connective
  · exact .existential
  · exact .universal _

theorem decision_foldl_iff {rs : List Residual} {r : Residual} :
    connective.quantifier.Decision (rs.foldl connective.further r) ↔
      connective.quantifier.Decision r ∨ ∃ s ∈ rs, connective.quantifier.Decision s := by
  induction rs generalizing r with
  | nil => simp
  | cons s rs ih => rw [List.foldl_cons, ih, decision_further_iff, List.exists_mem_cons_iff, or_assoc]

theorem dual_decision_foldl_iff {rs : List Residual} {r : Residual} :
    connective.quantifier.dual.Decision (rs.foldl connective.further r) ↔
      connective.quantifier.dual.Decision r ∧ ∀ s ∈ rs, connective.quantifier.dual.Decision s := by
  induction rs generalizing r with
  | nil => simp
  | cons s rs ih =>
    rw [List.foldl_cons, ih, dual_decision_further_iff, List.forall_mem_cons, and_assoc]

/-- A connective is decided exactly if one part decides. -/
theorem decision_join_iff (connective : Connective) (rs : List Residual) :
    connective.quantifier.Decision (connective.join rs) ↔
      ∃ r ∈ rs, connective.quantifier.Decision r := by
  rw [join_eq_foldl, decision_foldl_iff, or_iff_right]
  exact fun decision => decision.not_dual (dual_decision_unit connective)

/-- Nothing is open and nothing decided exactly if no part has a say. -/
theorem dual_decision_join_iff (connective : Connective) (rs : List Residual) :
    connective.quantifier.dual.Decision (connective.join rs) ↔
      ∀ r ∈ rs, connective.quantifier.dual.Decision r := by
  rw [join_eq_foldl, dual_decision_foldl_iff, and_iff_right (dual_decision_unit connective)]

/-! ### One outcome after the other -/

/-- Whether no part that comes behind is evaluated. -/
def isFinal : Connective → Residual → Bool
  | .conjunction, _ => false
  | .disjunction, r => r.isSatisfied

theorem isFinal_further (connective : Connective) (r s : Residual) :
    connective.isFinal (connective.further r s) = (connective.isFinal r || connective.isFinal s) := by
  cases connective with
  | conjunction => rfl
  | disjunction => cases r <;> cases s <;> rfl

/-- Weighs outcomes one after the other against what there is so far. -/
def weigh (connective : Connective) : Residual → List Outcome → Outcome
  | r, [] => .ok r
  | r, outcome :: rest =>
    if connective.isFinal r then .ok r
    else do
      let s ← outcome
      weigh connective (connective.further r s) rest

theorem weigh_of_final {r : Residual} (final : connective.isFinal r = true)
    (outcomes : List Outcome) : connective.weigh r outcomes = .ok r := by
  cases outcomes with
  | nil => rfl
  | cons outcome rest => rw [weigh, if_pos final]

theorem weigh_cons {r : Residual} (goesOn : connective.isFinal r = false) (outcome : Outcome)
    (rest : List Outcome) : connective.weigh r (outcome :: rest) =
      outcome >>= fun s => connective.weigh (connective.further r s) rest := by
  rw [weigh, goesOn, if_neg Bool.false_ne_true]

theorem foldl_of_final {r : Residual} (final : connective.isFinal r = true) (rs : List Residual) :
    rs.foldl connective.further r = r := by
  cases connective with
  | conjunction => exact nomatch final
  | disjunction =>
    rw [Residual.isSatisfied_iff.mp final]
    exact Residual.foldl_otherwise_eq_satisfied_iff.mpr (.inl rfl)

/-- Weighing residuals comes to the same as joining them all. -/
theorem weigh_ok (r : Residual) (rs : List Residual) :
    connective.weigh r (rs.map Except.ok) = .ok (rs.foldl connective.further r) := by
  induction rs generalizing r with
  | nil => rfl
  | cons s rs ih =>
    cases final : connective.isFinal r with
    | true => rw [weigh_of_final final, foldl_of_final final]
    | false => rw [List.map_cons, weigh_cons final, ok_bind, ih, List.foldl_cons]

end Connective

namespace Policy

variable {registry : Registry} {document : Value} {place : Path} {positive : Bool}

theorem map_conjoin_eq_weigh (parts : List Policy) (r : Residual) :
    (evaluateAll registry parts document place positive).map (List.foldl Residual.also r) =
      Connective.conjunction.weigh r
        (parts.map fun p => p.evaluateAt registry document place positive) := by
  induction parts generalizing r with
  | nil =>
    rw [evaluateAll]
    rfl
  | cons p rest ih =>
    rw [evaluateAll, List.map_cons, Connective.weigh_cons rfl]
    cases p.evaluateAt registry document place positive with
    | error e => rfl
    | ok s =>
      rw [ok_bind, ok_bind, ← ih]
      cases evaluateAll registry rest document place positive <;> rfl

theorem map_disjoin_eq_weigh (parts : List Policy) {r : Residual}
    (goesOn : Connective.disjunction.isFinal r = false) :
    (evaluateSome registry parts document place positive).map (List.foldl Residual.otherwise r) =
      Connective.disjunction.weigh r
        (parts.map fun p => p.evaluateAt registry document place positive) := by
  induction parts generalizing r with
  | nil =>
    rw [evaluateSome]
    rfl
  | cons p rest ih =>
    rw [evaluateSome, List.map_cons, Connective.weigh_cons goesOn]
    cases p.evaluateAt registry document place positive with
    | error e => rfl
    | ok s =>
      have final := Connective.isFinal_further .disjunction r s
      rw [ok_bind, ok_bind]
      cases satisfied : s.isSatisfied with
      | true =>
        rw [if_pos rfl, Connective.weigh_of_final]
        · rfl
        · rw [final]
          exact Bool.or_eq_true_iff.mpr (.inr satisfied)
      | false =>
        rw [if_neg Bool.false_ne_true, ← ih]
        · cases evaluateSome registry rest document place positive <;> rfl
        · exact final.trans (Bool.or_eq_false_iff.mpr ⟨goesOn, satisfied⟩)

/-- A connective weighs the outcomes of its parts. -/
theorem evaluateAt_connected_eq_weigh (connective : Connective) (parts : List Policy) :
    (connected connective parts).evaluateAt registry document place positive =
      (connective.withPolarity positive).weigh (connective.withPolarity positive).unit
        (parts.map fun p => p.evaluateAt registry document place positive) := by
  rw [evaluateAt]
  cases connective.withPolarity positive with
  | conjunction => exact map_conjoin_eq_weigh parts .satisfied
  | disjunction => exact map_disjoin_eq_weigh parts rfl

/-- A connective joins the residuals of its parts. -/
theorem evaluateAt_connected {connective : Connective} {parts : List Policy} {rs : List Residual}
    (all : evaluateAll registry parts document place positive = .ok rs) :
    (connected connective parts).evaluateAt registry document place positive =
      .ok ((connective.withPolarity positive).join rs) := by
  have outcomes : (parts.map fun p => p.evaluateAt registry document place positive) =
      rs.map Except.ok := by
    rw [← List.forall₂_eq_eq_eq, List.forall₂_map_left_iff, List.forall₂_map_right_iff]
    exact forall₂_of_evaluateAll all
  rw [evaluateAt_connected_eq_weigh, outcomes, Connective.weigh_ok, Connective.join_eq_foldl]

end Policy

end ResidualPolicy
