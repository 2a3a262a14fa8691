import ResidualPolicy.Proofs.Evaluation.Contents
import ResidualPolicy.Proofs.Evaluation.Persistence
import ResidualPolicy.Proofs.Evaluation.Sameness
import ResidualPolicy.Proofs.Residual.Agreement
import ResidualPolicy.Proofs.Value.Places

/-!
# What an open residual asks for is enough

A residual that is open lists constraints. If the document grows, what was read is kept, and each of
those constraints is satisfied as a policy of its own, then the whole policy is satisfied
(`Policy.evaluate_of_settled`). That holds for policies without counts and filters, and as long as no
listed constraint stands in for a quantifier whose collection was missing.

Each listed constraint was moved to the place of the element that it is about, inverted under a
negation, and kept once if it came up in two forms. The places are reached again by their paths
(`Reaches`), and paths that equal them lead to the same values (`Path.IsSteady`), so a constraint that
was left out is satisfied with the one that was kept, whose operand is one of the policy, too.
-/

namespace ResidualPolicy

/-- No listed constraint stands in for a quantifier. -/
def Filed.IsGenuine (filed : Filed Constraint) : Prop :=
  ∀ under ∈ filed, ∀ c ∈ under.2, ¬c.IsStandIn

instance (filed : Filed Constraint) : Decidable filed.IsGenuine :=
  inferInstanceAs (Decidable (∀ under ∈ filed, ∀ c ∈ under.2, ¬c.IsStandIn))

/-- Each listed constraint is satisfied on a document, as a policy of its own. -/
def Filed.IsSettled (registry : Registry) (document : Value) (filed : Filed Constraint) : Prop :=
  ∀ under ∈ filed, ∀ c ∈ under.2, (Policy.leaf c).evaluate registry document = .ok .satisfied

variable {registry : Registry} {operands : List Value} {document : Value}

/-! ## Constraints that are met -/

/-- The constraint is no stand-in. If it compares with one of the operands, it is satisfied on the
document, unless another form of its path leads to a value that its path does not lead to. -/
def Constraint.Met (registry : Registry) (operands : List Value) (document : Value)
    (c : Constraint) : Prop :=
  ¬c.IsStandIn ∧ (c.operand ∈ operands → c.path.IsSteady document →
    c.evaluate registry document .root true = .ok .satisfied)

namespace Filed

/-- All that is listed, in whatever form, is met. -/
def Met (registry : Registry) (operands : List Value) (document : Value)
    (filed : Filed Constraint) : Prop :=
  ∀ c, filed.lists c = true → c.Met registry operands document

theorem met_merge {a b : Filed Constraint} :
    (a.merge b).Met registry operands document ↔
      a.Met registry operands document ∧ b.Met registry operands document := by
  simp only [Met, lists_merge, Bool.or_eq_true, or_imp, forall_and]

theorem met_nil : Met registry operands document [] := fun _ => nofun

end Filed

namespace Residual

/-- A residual is satisfied, or what it lists is. -/
def Met (registry : Registry) (operands : List Value) (document : Value) : Residual → Prop
  | .satisfied => True
  | .pending constraints => constraints.Met registry operands document
  | .conflict _ => False

theorem Met.of_waitFor {c : Constraint} (h : (waitFor c).Met registry operands document) :
    c.Met registry operands document :=
  h c (by simp [Filed.lists, Filed.single])

theorem Met.of_also {r s : Residual} (h : (r.also s).Met registry operands document) :
    r.Met registry operands document ∧ s.Met registry operands document := by
  cases r with
  | satisfied => exact ⟨trivial, satisfied_also s ▸ h⟩
  | pending a =>
    cases s with
    | satisfied => exact ⟨h, trivial⟩
    | pending b => exact Filed.met_merge.mp h
    | conflict w => exact h.elim
  | conflict v => cases s <;> exact h.elim

theorem Met.of_foldl_also {rs : List Residual} {r : Residual}
    (h : (rs.foldl also r).Met registry operands document) :
    r.Met registry operands document ∧ ∀ s ∈ rs, s.Met registry operands document := by
  induction rs generalizing r with
  | nil => exact ⟨h, fun _ member => absurd member List.not_mem_nil⟩
  | cons s rs ih =>
    obtain ⟨first, others⟩ := ih h
    obtain ⟨before, head⟩ := first.of_also
    exact ⟨before, List.forall_mem_cons.mpr ⟨head, others⟩⟩

theorem Met.of_otherwise {r s : Residual} (h : (r.otherwise s).Met registry operands document) :
    r.Met registry operands document ∨ s.Met registry operands document := by
  cases r with
  | satisfied => exact .inl trivial
  | pending a =>
    cases s with
    | satisfied => exact .inr trivial
    | conflict w => exact .inl h
    | pending b =>
      change (if _ then _ else _ : Filed Constraint).Met registry operands document at h
      split at h
      · exact .inr h
      · exact .inl h
  | conflict v =>
    cases s with
    | satisfied => exact .inr trivial
    | pending b => exact .inr h
    | conflict w => exact h.elim

/-- The residual of a disjunction is that of one part, as far as its constraints are met. -/
theorem Met.of_foldl_otherwise {rs : List Residual} {r : Residual}
    (h : (rs.foldl otherwise r).Met registry operands document) :
    r.Met registry operands document ∨ ∃ s ∈ rs, s.Met registry operands document := by
  induction rs generalizing r with
  | nil => exact .inl h
  | cons s rs ih =>
    rcases ih h with first | ⟨t, member, met⟩
    · rcases first.of_otherwise with before | head
      · exact .inl before
      · exact .inr ⟨s, List.mem_cons_self, head⟩
    · exact .inr ⟨t, List.mem_cons_of_mem _ member, met⟩

end Residual

namespace Constraint

/-- A constraint that is satisfied where it was moved to is satisfied where it stood. -/
theorem evaluate_of_under {c : Constraint} {place : Path} {v : Value}
    (reaches : Reaches document place v)
    (satisfied : (c.under place).evaluate registry document .root true = .ok .satisfied) :
    c.evaluate registry v place true = .ok .satisfied := by
  obtain ⟨found, op, there, registered, admitted⟩ := evaluate_eq_satisfied_iff.mp satisfied
  exact evaluate_eq_satisfied_iff.mpr
    ⟨found, op, reaches.find?_of_join there, registered, admitted⟩

/-- Equal constraints are satisfied together where equal paths lead to the same value. -/
theorem evaluate_of_same (respects : registry.RespectsOperands operands) {c d : Constraint}
    (hc : c.operand ∈ operands) (hd : d.operand ∈ operands) (h : (c == d) = true)
    (steady : c.path.IsSteady document)
    (satisfied : d.evaluate registry document .root true = .ok .satisfied) :
    c.evaluate registry document .root true = .ok .satisfied := by
  obtain ⟨paths, operator, operand, negated⟩ := beq_iff.mp h
  obtain ⟨found, op, there, registered, admitted⟩ := evaluate_eq_satisfied_iff.mp satisfied
  rw [← operator] at registered
  refine evaluate_eq_satisfied_iff.mpr
    ⟨found, op, steady d.path (BEq.symm paths) found there, registered, ?_⟩
  rw [admits, respects _ op registered found _ hc _ hd operand, negated]
  exact admitted

end Constraint

/-- What is listed is met when each listed constraint is satisfied. -/
theorem Filed.met_of_settled (respects : registry.RespectsOperands operands)
    {filed : Filed Constraint} (covered : filed.All (Constraint.IsOver operands))
    (genuine : filed.IsGenuine) (settled : filed.IsSettled registry document) :
    filed.Met registry operands document := by
  intro c listed
  obtain ⟨under, member, present⟩ := List.any_eq_true.mp listed
  obtain ⟨d, among, same⟩ := List.contains_iff_exists_mem_beq.mp present
  obtain ⟨-, operator, -⟩ := Constraint.beq_iff.mp same
  have held := settled under member d among
  rw [Policy.evaluate, Policy.evaluateAt] at held
  have own := (covered under member d among).resolve_right (genuine under member d among)
  refine ⟨fun standIn => genuine under member d among ?_, fun written steady =>
    Constraint.evaluate_of_same respects written own same steady held⟩
  unfold Constraint.IsStandIn at standIn ⊢
  rwa [← operator]

/-! ## Collections -/

/-- An evaluation whose residual is enough: where it is met, the evaluation is satisfied at the same
place of the grown document. -/
structure Settles (registry : Registry) (operands : List Value) (document : Value)
    (evaluation : AtPlace) (finds : FindsAt) : Prop where
  satisfied : ∀ {d e : Value} {place : Path} {r : Residual}, Reaches document place e →
    e.IsOrdered → d.GrowsTo e → Kept (finds d place) d e → evaluation d place = .ok r →
    r.Met registry operands document → evaluation e place = .ok .satisfied

/-- An element before and after growing, with the place that it is found at in the grown document. -/
structure GrownAt (document : Value) (a b : Path × Value) : Prop where
  place : a.1 = b.1
  grown : a.2.GrowsTo b.2
  reached : Reaches document b.1 b.2
  ordered : b.2.IsOrdered

namespace Quantifier

variable {quantifier : Quantifier} {filter body : AtPlace} {filterFinds bodyFinds : FindsAt}
  {unmatched : Residual}

/-- A part of what an element leaves open is enough for the body on that element. -/
theorem met_of_verdict {inner : Residual} {waiting : Filed Constraint} {found : Filed Violation}
    (verdict : quantifier.verdict .satisfied inner = .adds waiting found)
    (met : waiting.Met registry operands document)
    (relevant : quantifier = .universal ∨ waiting ≠ []) : inner.Met registry operands document := by
  cases inner with
  | satisfied => trivial
  | pending constraints =>
    cases quantifier <;> exact (Verdict.adds.inj verdict).1 ▸ met
  | conflict violations =>
    cases quantifier with
    | universal => exact nomatch verdict
    | existential =>
      rcases relevant with universal | occupied
      · exact nomatch universal
      · exact absurd (Verdict.adds.inj verdict).1.symm occupied

section Unfiltered

variable (unfiltered : ∀ v place, filter v place = .ok .satisfied)

include unfiltered

theorem Judged.of_unfiltered {element : Path × Value} {verdict : Verdict}
    (judged : Judged quantifier filter body element verdict) :
    ∃ inner, body element.2 element.1 = .ok inner ∧
      quantifier.verdict .satisfied inner = verdict := by
  cases judged with
  | rejected filtered =>
    rw [unfiltered] at filtered
    exact nomatch Except.ok.inj filtered
  | @selected selected inner filtered evaluated =>
    rw [unfiltered] at filtered
    exact ⟨inner, evaluated, by rw [Except.ok.inj filtered]⟩

variable {elements grown : List (Path × Value)} {pending : Filed Constraint}
  {violations : Filed Violation} {r : Residual}

/-- Where the residual of a universal quantifier is met, the body is satisfied on every element. -/
theorem Surveyed.forall_of_met (settles : Settles registry operands document body bodyFinds)
    (matched : List.Forall₂ (GrownAt document) elements grown)
    (kept : KeptAmong (surveyFinds .universal filter body filterFinds bodyFinds elements) elements
      grown)
    (hr : Surveyed .universal filter body unmatched pending violations elements r)
    (met : r.Met registry operands document) :
    pending.Met registry operands document ∧ ∀ b ∈ grown, body b.2 b.1 = .ok .satisfied := by
  induction matched generalizing pending violations with
  | nil =>
    cases hr with
    | concluded =>
      refine ⟨?_, fun _ member => absurd member List.not_mem_nil⟩
      by_cases occupied : pending = []
      · rw [occupied]
        exact Filed.met_nil
      · rw [conclude_of_waiting occupied] at met
        exact met
  | @cons a b rest rest' pair matched ih =>
    obtain ⟨place, d⟩ := a
    obtain ⟨place', e⟩ := b
    obtain ⟨rfl, grows, reached, ordered⟩ := pair
    cases hr with
    | decided judged =>
      cases judged.decision with
      | universal => exact met.elim
    | added judged later =>
      obtain ⟨both, others⟩ := ih (fun index spot found x y hx hy =>
        kept (index + 1) spot (mem_surveyFinds_later found judged) x y hx hy) later
      obtain ⟨before, waiting⟩ := Filed.met_merge.mp both
      obtain ⟨inner, evaluated, verdict⟩ := judged.of_unfiltered unfiltered
      have keptBody : Kept (bodyFinds d place) d e := fun spot found =>
        kept 0 spot (mem_surveyFinds_body found (unfiltered d place) fun _ => nofun) _ _ rfl rfl
      have head := settles.satisfied reached ordered grows keptBody evaluated
        (met_of_verdict verdict waiting (.inl rfl))
      exact ⟨before, List.forall_mem_cons.mpr ⟨head, others⟩⟩

/-- Where the residual of an existential quantifier is met, the body is satisfied on an element. -/
theorem Surveyed.exists_of_met (settles : Settles registry operands document body bodyFinds)
    (matched : List.Forall₂ (GrownAt document) elements grown)
    (kept : KeptAmong (surveyFinds .existential filter body filterFinds bodyFinds elements)
      elements grown) {failed : Filed Violation}
    (hr : Surveyed .existential filter body (.conflict failed) pending violations elements r)
    (met : r.Met registry operands document) :
    (pending ≠ [] ∧ pending.Met registry operands document) ∨
      ∃ b ∈ grown, body b.2 b.1 = .ok .satisfied := by
  induction matched generalizing pending violations with
  | nil =>
    cases hr with
    | concluded =>
      by_cases occupied : pending = []
      · rw [occupied] at met
        cases violations <;> exact met.elim
      · rw [conclude_of_waiting occupied] at met
        exact .inl ⟨occupied, met⟩
  | @cons a b rest rest' pair matched ih =>
    obtain ⟨place, d⟩ := a
    obtain ⟨place', e⟩ := b
    obtain ⟨rfl, grows, reached, ordered⟩ := pair
    have keptBody : Kept (bodyFinds d place) d e := fun spot found =>
      kept 0 spot (mem_surveyFinds_body found (unfiltered d place) fun _ => nofun) _ _ rfl rfl
    have head {inner : Residual} (evaluated : body d place = .ok inner)
        (met : inner.Met registry operands document) :
        ∃ b ∈ (place, e) :: rest', body b.2 b.1 = .ok .satisfied :=
      ⟨_, List.mem_cons_self,
        settles.satisfied reached ordered grows keptBody evaluated met⟩
    cases hr with
    | decided judged =>
      obtain ⟨inner, evaluated, verdict⟩ := judged.of_unfiltered unfiltered
      cases inner with
      | satisfied => exact .inr (head evaluated trivial)
      | pending constraints => exact nomatch verdict
      | conflict violations => exact nomatch verdict
    | @added _ waiting _ found _ _ _ judged later =>
      obtain ⟨inner, evaluated, verdict⟩ := judged.of_unfiltered unfiltered
      rcases ih (fun index spot found x y hx hy =>
        kept (index + 1) spot (mem_surveyFinds_later found judged) x y hx hy) later with
        ⟨occupied, both⟩ | ⟨b, member, satisfied⟩
      · obtain ⟨before, met⟩ := Filed.met_merge.mp both
        by_cases here : waiting = []
        · exact .inl ⟨fun empty => occupied (Filed.merge_eq_nil_iff.mpr ⟨empty, here⟩), before⟩
        · exact .inr (head evaluated (met_of_verdict verdict met (.inr here)))
      · exact .inr ⟨b, List.mem_cons_of_mem _ member, satisfied⟩

theorem survey_universal (each : ∀ b ∈ elements, body b.2 b.1 = .ok .satisfied) :
    survey .universal filter body unmatched [] violations elements = .ok .satisfied := by
  induction elements generalizing violations with
  | nil => rfl
  | cons b rest ih =>
    obtain ⟨first, others⟩ := List.forall_mem_cons.mp each
    rw [survey_of_selected (unfiltered b.2 b.1) (fun _ => nofun) first]
    exact ih others

theorem survey_existential {failed : Filed Violation}
    (bodies : ∀ b ∈ elements, ∃ s, body b.2 b.1 = .ok s)
    (some : ∃ b ∈ elements, body b.2 b.1 = .ok .satisfied) :
    survey .existential filter body (.conflict failed) pending violations elements =
      .ok .satisfied := by
  obtain ⟨b, member, satisfied⟩ := some
  obtain ⟨r, evaluated⟩ : ∃ r,
      survey .existential filter body (.conflict failed) pending violations elements = .ok r :=
    survey_ok (fun b _ => ⟨_, unfiltered b.2 b.1⟩) bodies pending violations
  have decides : Quantifier.existential.Decides filter body b :=
    ⟨unfiltered b.2 b.1, _, satisfied, .existential⟩
  have decision := (surveyed_of_survey evaluated).decision_of_mem member decides
  rw [evaluated, decision_existential.mp decision]

end Unfiltered

end Quantifier

/-! ## Parts of policies -/

namespace Policy

mutual

/-- Whether a policy has neither counts nor filters. -/
def isPlain : Policy → Bool
  | .leaf _ => true
  | .connected _ parts => arePlain parts
  | .negation p => isPlain p
  | .quantified _ _ none body => isPlain body
  | .quantified _ _ (some _) _ => false
  | .counted _ _ _ _ => false

/-- Whether all of several policies are plain. -/
def arePlain : List Policy → Bool
  | [] => true
  | p :: rest => isPlain p && arePlain rest

end

theorem arePlain_iff {parts : List Policy} :
    arePlain parts = true ↔ ∀ p ∈ parts, p.isPlain = true := by
  induction parts with
  | nil => exact ⟨fun _ _ member => absurd member List.not_mem_nil, fun _ => rfl⟩
  | cons p rest ih => rw [arePlain, Bool.and_eq_true, ih, List.forall_mem_cons]

/-- Where the constraints that a policy reports are met, the policy is satisfied. -/
abbrev Settles (registry : Registry) (operands : List Value) (document : Value) (p : Policy)
    (positive : Bool) : Prop :=
  ResidualPolicy.Settles registry operands document
    (fun d place => evaluateAt registry p d place positive)
    fun d place => findsAt registry p d place positive

variable {positive : Bool} {d e : Value} {place : Path}

theorem satisfied_of_evaluateAll {parts : List Policy}
    (settles : ∀ p ∈ parts, p.Settles registry operands document positive)
    (reached : Reaches document place e) (ordered : e.IsOrdered) (grown : d.GrowsTo e)
    (kept : Kept (findsAll registry parts d place positive) d e) {rs : List Residual}
    (evaluated : evaluateAll registry parts d place positive = .ok rs)
    (met : ∀ r ∈ rs, r.Met registry operands document) :
    ∀ p ∈ parts, evaluateAt registry p e place positive = .ok .satisfied := by
  induction parts generalizing rs with
  | nil => exact fun _ member => absurd member List.not_mem_nil
  | cons p rest ih =>
    obtain ⟨first, others⟩ := List.forall_mem_cons.mp settles
    obtain ⟨r, later, head, tail, rfl⟩ := evaluateAll_eq_ok evaluated
    obtain ⟨metHead, metTail⟩ := List.forall_mem_cons.mp met
    rw [findsAll] at kept
    obtain ⟨keptHead, keptTail⟩ := kept_append.mp kept
    exact List.forall_mem_cons.mpr
      ⟨first.satisfied reached ordered grown keptHead head metHead, ih others keptTail tail metTail⟩

theorem satisfied_of_evaluateSome {parts : List Policy}
    (settles : ∀ p ∈ parts, p.Settles registry operands document positive)
    (reached : Reaches document place e) (ordered : e.IsOrdered) (grown : d.GrowsTo e)
    (kept : Kept (findsSome registry parts d place positive) d e) {rs : List Residual}
    (evaluated : evaluateSome registry parts d place positive = .ok rs)
    (met : ∃ r ∈ rs, r.Met registry operands document) :
    ∃ p ∈ parts, evaluateAt registry p e place positive = .ok .satisfied := by
  induction parts generalizing rs with
  | nil =>
    rw [evaluateSome] at evaluated
    obtain ⟨r, member, -⟩ := met
    rw [← Except.ok.inj evaluated] at member
    exact absurd member List.not_mem_nil
  | cons p rest ih =>
    obtain ⟨first, others⟩ := List.forall_mem_cons.mp settles
    obtain ⟨r, head, ends⟩ := evaluateSome_eq_ok evaluated
    have here (met : r.Met registry operands document) :
        ∃ q ∈ p :: rest, evaluateAt registry q e place positive = .ok .satisfied := by
      rw [findsSome] at kept
      exact ⟨p, List.mem_cons_self,
        first.satisfied reached ordered grown (kept_append.mp kept).1 head met⟩
    rcases ends with ⟨rfl, -⟩ | ⟨further, later, tail, rfl⟩
    · exact here trivial
    · rw [findsSome_of_ne head further] at kept
      obtain ⟨s, member, metS⟩ := met
      rcases List.mem_cons.mp member with rfl | member
      · exact here metS
      · obtain ⟨q, among, satisfied⟩ :=
          ih others (kept_append.mp kept).2 tail ⟨s, member, metS⟩
        exact ⟨q, List.mem_cons_of_mem _ among, satisfied⟩

/-! ## The walk -/

theorem settles_leaf [PatternEngine] (builtins : registry.HasBuiltins) {c : Constraint}
    (isRead : c.path.IsRead)
    (known : registry.contains c.operator = true) (own : c.operand ∈ operands) :
    (Policy.leaf c).Settles registry operands document positive where
  satisfied {d e place r} reached ordered grown kept evaluated met := by
    rw [evaluateAt] at evaluated ⊢
    rw [findsAt] at kept
    cases there : c.path.find? d with
    | some found =>
      rw [there] at kept
      have unchanged : c.path.find? e = c.path.find? d :=
        kept (.here c.path) (List.mem_singleton_self _)
      rw [Constraint.evaluate_congr unchanged, evaluated]
      obtain ⟨op, registered⟩ := Registry.find?_of_contains known
      rw [Constraint.evaluate_found there registered] at evaluated
      rw [← Except.ok.inj evaluated] at met ⊢
      split at met
      · next admitted => rw [if_pos admitted]
      · exact met.elim
    | none =>
      rw [Constraint.evaluate_missing there, Constraint.withPolarity_under] at evaluated
      rw [← Except.ok.inj evaluated] at met
      -- What was reported is the constraint, inverted under a negation, moved to the place.
      have steady := reached.isSteady_join isRead.keys
      rw [← Constraint.path_withPolarity c positive] at steady
      have written : (c.withPolarity positive).operand ∈ operands := by
        rw [Constraint.operand_withPolarity]
        exact own
      have satisfied := Constraint.evaluate_of_under reached (met.of_waitFor.2 written steady)
      rwa [Constraint.evaluate_withPolarity (fun _ => builtins) known] at satisfied

theorem settles_connected {connective : Connective} {parts : List Policy}
    (known : ∀ p ∈ parts, registry.Knows p)
    (each : ∀ p ∈ parts, p.Settles registry operands document positive) :
    (Policy.connected connective parts).Settles registry operands document positive where
  satisfied {d e place r} reached ordered grown kept evaluated met := by
    obtain ⟨ss, all'⟩ := evaluateAll_ok fun p member =>
      evaluateAt_ok (known p member) e place positive
    have pairs := forall₂_of_evaluateAll all'
    rw [evaluateAt] at evaluated
    rw [findsAt] at kept
    rw [evaluateAt_connected all']
    cases joined : connective.withPolarity positive with
    | conjunction =>
      rw [joined] at evaluated kept
      obtain ⟨rs, all, rfl⟩ := map_eq_ok evaluated
      have satisfied := satisfied_of_evaluateAll each reached ordered grown kept all
        met.of_foldl_also.2
      refine congrArg Except.ok (Quantifier.decision_existential.mp
        ((Connective.dual_decision_join_iff .conjunction ss).mpr fun s member => ?_))
      obtain ⟨p, among, evaluated'⟩ := exists_mem_of_forall₂ pairs s member
      exact Except.ok.inj ((satisfied p among).symm.trans evaluated') ▸ .existential
    | disjunction =>
      rw [joined] at evaluated kept
      obtain ⟨rs, some, rfl⟩ := map_eq_ok evaluated
      -- The residual of a disjunction is that of one of its parts.
      obtain ⟨p, among, satisfied⟩ := satisfied_of_evaluateSome each reached ordered grown kept some
        (met.of_foldl_otherwise.resolve_left id)
      obtain ⟨s, member, evaluated'⟩ := exists_mem_of_forall₂ pairs.flip p among
      refine congrArg Except.ok (Quantifier.decision_existential.mp
        ((Connective.decision_join_iff .disjunction ss).mpr ⟨s, member, ?_⟩))
      exact Except.ok.inj (satisfied.symm.trans evaluated') ▸ .existential

/-- The elements of a grown collection are reached at the places where they are evaluated. -/
theorem grownAt_placedElements {binding : Path} {v : Value} (reached : Reaches document binding v)
    (ordered : v.IsOrdered) {elements elements' : List (Value × Value)}
    (listed : v.elements? = some elements')
    (matched : List.Forall₂ Value.GrownElement elements elements') :
    List.Forall₂ (GrownAt document) (placedElements binding elements)
      (placedElements binding elements') := by
  have each : ∀ b ∈ elements', Reaches document (binding.child b.1) b.2 ∧ b.2.IsOrdered :=
    fun b member => ⟨reached.element ordered listed member,
      Value.forall_parts_elements? ordered listed b member⟩
  clear listed
  unfold placedElements
  induction matched with
  | nil => exact .nil
  | cons pair _ ih =>
    obtain ⟨⟨reaches, ordered⟩, others⟩ := List.forall_mem_cons.mp each
    refine .cons ⟨congrArg binding.child pair.1, pair.2, reaches, ordered⟩ (ih others)

theorem settles_quantified {quantifier : Quantifier} {path : Path} {body : Policy}
    (isRead : path.IsRead) (known : registry.Knows body)
    (settles : body.Settles registry operands document positive) :
    (Policy.quantified quantifier path none body).Settles registry operands document positive where
  satisfied {d e place r} reached ordered grown kept evaluated met := by
    rw [evaluateAt] at evaluated ⊢
    rw [findsAt] at kept
    cases there : path.find? d with
    | none =>
      rw [there] at evaluated
      rw [← Except.ok.inj evaluated] at met
      exact absurd (isStandIn_standIn ..) met.of_waitFor.1
    | some collection =>
      obtain ⟨collection', there', grown'⟩ := grown.lookup? there
      change path.find? e = some collection' at there'
      rw [there] at evaluated kept
      rw [there']
      cases listed : collection.elements? with
      | none =>
        simp only [listed] at evaluated
        rw [← Except.ok.inj evaluated] at met
        exact met.elim
      | some elements =>
        obtain ⟨elements', listed', matched⟩ := grown'.elements? listed
        simp only [listed] at evaluated
        simp only [listed']
        rw [Option.bind_some, listed] at kept
        have reached' := reached.join isRead.keys there'
        have ordered' : collection'.IsOrdered := Value.forall_parts_lookup? ordered there'
        have elementwise := grownAt_placedElements reached' ordered' listed' matched
        have keptAmong :=
          keptAmong_placedElements there listed there' listed' kept (place.join path)
        have unfiltered (v : Value) (here : Path) :
            evaluateFilter registry none v here = .ok .satisfied := by rw [evaluateFilter]
        have surveyed := Quantifier.surveyed_of_survey evaluated
        cases quantified : quantifier.withPolarity positive with
        | universal =>
          rw [quantified] at surveyed keptAmong
          exact Quantifier.survey_universal unfiltered
            (surveyed.forall_of_met unfiltered settles elementwise keptAmong met).2
        | existential =>
          rw [quantified] at surveyed keptAmong
          rcases surveyed.exists_of_met unfiltered settles elementwise keptAmong met with
            ⟨occupied, -⟩ | one
          · exact absurd rfl occupied
          · exact Quantifier.survey_existential unfiltered
              (fun b _ => evaluateAt_ok known b.2 b.1 positive) one

/-- Where the constraints that a policy reports are met, the policy is satisfied. -/
theorem settles_of_isRead [PatternEngine] (builtins : registry.HasBuiltins) {p : Policy}
    (isRead : p.IsRead)
    (plain : p.isPlain = true) (known : registry.Knows p) (covered : p.IsOver operands) :
    p.Settles registry operands document positive := by
  induction isRead generalizing positive with
  | leaf places form takes =>
    exact settles_leaf builtins places (Registry.knows_leaf.mp known) (isOver_leaf.mp covered)
  | connected connective each ih =>
    have known := Registry.knows_connected.mp known
    have plain := arePlain_iff.mp plain
    have covered := isOver_connected.mp covered
    exact settles_connected known fun p member =>
      ih p member (plain p member) (known p member) (covered p member)
  | negation inner ih =>
    refine ⟨fun reached ordered grown kept evaluated met => ?_⟩
    rw [evaluateAt] at evaluated ⊢
    rw [findsAt] at kept
    have known := Registry.knows_negation.mp known
    exact (ih plain known covered).satisfied reached ordered grown kept evaluated met
  | @quantified quantifier path filter body places filters inner ihFilters ih =>
    cases filter with
    | some f => exact absurd plain Bool.false_ne_true
    | none =>
      have known := (Registry.knows_quantified.mp known).2
      exact settles_quantified places known (ih plain known (isOver_quantified.mp covered).2)
  | counted => exact absurd plain Bool.false_ne_true

/-! ## What open residuals ask for -/

theorem findsAll_eq_nil {parts : List Policy}
    (each : ∀ p ∈ parts, findsAt registry p d place positive = []) :
    findsAll registry parts d place positive = [] := by
  induction parts with
  | nil => rfl
  | cons p rest ih =>
    obtain ⟨first, others⟩ := List.forall_mem_cons.mp each
    rw [findsAll, first, ih others]
    rfl

theorem findsSome_eq_nil {parts : List Policy}
    (each : ∀ p ∈ parts, findsAt registry p d place positive = []) :
    findsSome registry parts d place positive = [] := by
  induction parts with
  | nil => rfl
  | cons p rest ih =>
    obtain ⟨first, others⟩ := List.forall_mem_cons.mp each
    rw [findsSome, first, ih others]
    split <;> rfl

/-- On the empty document nothing is found. -/
theorem findsAt_empty [PatternEngine] {p : Policy} (isRead : p.IsRead) (place : Path)
    (positive : Bool) :
    findsAt registry p (.object []) place positive = [] := by
  have missing {path : Path} (places : path.IsRead) : path.find? (.object []) = none := by
    obtain ⟨key, rest, keys⟩ := List.exists_cons_of_ne_nil places.occupied
    rw [Path.find?, keys]
    rfl
  induction isRead generalizing positive with
  | leaf places => rw [findsAt, missing places]; rfl
  | connected connective each ih =>
    rw [findsAt]
    split
    · exact findsAll_eq_nil fun p member => ih p member positive
    · exact findsSome_eq_nil fun p member => ih p member positive
  | negation inner ih =>
    rw [findsAt]
    exact ih (!positive)
  | quantified quantifier places => rw [findsAt, missing places]; rfl
  | counted places => rw [findsAt, missing places]; rfl

/-- What an open residual asks for is enough: once each constraint that it lists is satisfied on a
grown document, so is the whole policy. Of the empty document nothing is read, so there it is enough
for any object. Constraints that are the same are listed once, in the form that comes first, so
operators must not distinguish operands of the policy that are equal. They cannot where none is written
in two forms (`Registry.respectsOperands_of_distinct`). -/
theorem evaluate_of_settled [PatternEngine] (builtins : registry.HasBuiltins) {e : Value} {p : Policy}
    (respects : registry.RespectsOperands p.operandList) (read : ofExpr e = .ok p)
    (plain : p.isPlain = true) (known : registry.Knows p) :
    (∀ {d₁ d₂ : Value} {pending : Filed Constraint},
      p.evaluate registry d₁ = .ok (.pending pending) → pending.IsGenuine → d₁.GrowsTo d₂ →
      Kept (p.finds registry d₁) d₁ d₂ → d₂.IsOrdered → pending.IsSettled registry d₂ →
      p.evaluate registry d₂ = .ok .satisfied) ∧
    ∀ {entries : List (Value × Value)} {pending : Filed Constraint},
      p.evaluate registry (.object []) = .ok (.pending pending) → pending.IsGenuine →
      (Value.object entries).IsOrdered → pending.IsSettled registry (.object entries) →
      p.evaluate registry (.object entries) = .ok .satisfied := by
  have isRead := isRead_of_ofExpr read
  have covered : p.IsOver p.operandList := fun _ => id
  have enough {d₁ d₂ : Value} {pending : Filed Constraint}
      (evaluated : p.evaluate registry d₁ = .ok (.pending pending)) (genuine : pending.IsGenuine)
      (grown : d₁.GrowsTo d₂) (kept : Kept (p.finds registry d₁) d₁ d₂) (ordered : d₂.IsOrdered)
      (settled : pending.IsSettled registry d₂) : p.evaluate registry d₂ = .ok .satisfied :=
    (settles_of_isRead builtins isRead plain known covered).satisfied (.root d₂) ordered grown kept
      evaluated (Filed.met_of_settled respects (all_of_evaluateAt covered evaluated) genuine settled)
  refine ⟨enough, fun {entries pending} evaluated genuine ordered settled => ?_⟩
  have grown : (Value.object []).GrowsTo (.object entries) :=
    .object (fun _ => nofun) fun _ _ _ => nofun
  refine enough evaluated genuine grown (fun spot found => ?_) ordered settled
  rw [finds, findsAt_empty isRead] at found
  exact absurd found List.not_mem_nil

/-- Either the age is not above forty, or every item is in order. On a document with a higher age the
first part is violated and the items decide; on the empty document the first part is what is asked
for. -/
theorem evaluate_of_settled_of_items :
    let e : Value := .array [.string ":or",
      .array [.string ":not", .array [.string ":>", .array [.string ":age"], .ofNat 40]],
      .array [.string ":forall", .array [.string ":items"], .array [.string ":and",
        .array [.string ":=", .array [.string ":ok"], .bool true],
        .array [.string ":not",
          .array [.string ":starts-with", .array [.string ":id"], .string "x"]]]]]
    let age : Path := ⟨[.string "age"]⟩
    let older : Constraint := { path := age, operator := ">", operand := .ofNat 40 }
    let younger : Constraint := { older with negated := true }
    let ok : Constraint := { path := ⟨[.string "ok"]⟩, operator := "=", operand := .bool true }
    let prefixed : Constraint :=
      { path := ⟨[.string "id"]⟩, operator := "starts-with", operand := .string "x" }
    let items : Path := ⟨[.string "items"]⟩
    let p : Policy := .connected .disjunction [.negation (.leaf older),
      .quantified .universal items none
        (.connected .conjunction [.leaf ok, .negation (.leaf prefixed)])]
    let first : List (Value × Value) := [(.string "ok", .bool true)]
    let whole : Value := .object (Ascending.put (.string "id") (.string "a") first)
    let open₁ : Filed Constraint := [(items.child (.ofNat 0) |>.child (.string "id"),
      [{ prefixed.under (items.child (.ofNat 0)) with negated := true }])]
    let entries : List (Value × Value) :=
      [(.string "age", .ofNat 50), (.string "items", .array [.object first])]
    let d₁ : Value := .object entries
    let d₂ : Value := .object (Ascending.put (.string "items") (.array [whole]) entries)
    let known : List (Value × Value) := [(.string "age", .ofNat 30)]
    Registry.builtins.HasBuiltins ∧ Registry.builtins.RespectsOperands p.operandList ∧
      ofExpr e = .ok p ∧ p.isPlain = true ∧ Registry.builtins.Knows p ∧
      (p.evaluate .builtins d₁ = .ok (.pending open₁) ∧ open₁.IsGenuine ∧ d₁.GrowsTo d₂ ∧
        Kept (p.finds .builtins d₁) d₁ d₂ ∧ d₂.IsOrdered ∧ open₁.IsSettled .builtins d₂ ∧
        p.evaluate .builtins d₂ = .ok .satisfied) ∧
      (p.evaluate .builtins (.object []) = .ok (.pending [(age, [younger])]) ∧
        Filed.IsGenuine [(age, [younger])] ∧ (Value.object known).IsOrdered ∧
        Filed.IsSettled .builtins (.object known) [(age, [younger])] ∧
        p.evaluate .builtins (.object known) = .ok .satisfied) := by
  intro e age older younger ok prefixed items p first whole open₁ entries d₁ d₂ known
  have respects : Registry.builtins.RespectsOperands p.operandList := by
    have operands : p.operandList = [.ofNat 40, .bool true, .string "x"] := rfl
    refine Registry.respectsOperands_of_distinct fun o ho u hu same => ?_
    simp only [operands, List.mem_cons, List.not_mem_nil, or_false] at ho hu
    rcases ho with rfl | rfl | rfl <;> rcases hu with rfl | rfl | rfl <;>
      first | rfl | exact nomatch same
  have read : ofExpr e = .ok p := rfl
  have plain : p.isPlain = true := rfl
  have knows : Registry.builtins.Knows p := by decide +kernel
  have evaluated : p.evaluate .builtins d₁ = .ok (.pending open₁) := by
    unfold d₁ entries first open₁ p items prefixed ok older age
    rfl
  have genuine : open₁.IsGenuine := by decide
  have item : (Value.object first).GrowsTo whole := Value.growsTo_put fun _ there => nomatch there
  have list : (Value.array [.object first]).GrowsTo (.array ([.object first].set 0 whole)) :=
    Value.growsTo_set fun old there => Option.some.inj there ▸ item
  have grown : d₁.GrowsTo d₂ := Value.growsTo_put fun old there => Option.some.inj there ▸ list
  have kept : Kept (p.finds .builtins d₁) d₁ d₂ := by
    have finds : p.finds .builtins d₁ =
        [.here age, .inside items 0 (.here ok.path)] := by
      unfold d₁ entries first p items prefixed ok older age
      rfl
    rw [finds]
    exact List.forall_mem_cons.mpr ⟨rfl, List.forall_mem_singleton.mpr rfl⟩
  have ordered : d₂.IsOrdered := by decide +kernel
  have settled : open₁.IsSettled .builtins d₂ := by
    unfold open₁ d₂ entries whole first items prefixed
    exact List.forall_mem_singleton.mpr (List.forall_mem_singleton.mpr rfl)
  have evaluated' : p.evaluate .builtins (.object []) = .ok (.pending [(age, [younger])]) := by
    unfold p items prefixed ok younger older age
    rfl
  have genuine' : Filed.IsGenuine [(age, [younger])] := by decide
  have ordered' : (Value.object known).IsOrdered := by decide +kernel
  have settled' : Filed.IsSettled .builtins (.object known) [(age, [younger])] := by
    unfold younger known older age
    exact List.forall_mem_singleton.mpr (List.forall_mem_singleton.mpr rfl)
  have enough := evaluate_of_settled Registry.hasBuiltins_builtins respects read plain knows
  exact ⟨Registry.hasBuiltins_builtins, respects, read, plain, knows,
    ⟨evaluated, genuine, grown, kept, ordered, settled,
      enough.1 evaluated genuine grown kept ordered settled⟩,
    ⟨evaluated', genuine', ordered', settled', enough.2 evaluated' genuine' ordered' settled'⟩⟩

/-- What an open residual asks for is not enough where an operator distinguishes equal operands. Of a
divisor in two forms only the first is asked for, and the second is violated where the first is satisfied. -/
theorem conflict_of_settled :
    let expression (divisor : Number) : Value :=
      .array [.string ":multiple-of", .array [.string ":a"], .number divisor]
    let e : Value := .array [.string ":and", expression (.int 1152921504606846976),
      expression (.float ⟨0x43b0000000000000⟩)]
    let registry := Registry.builtins.after [.multipleOf]
    let document : Value := .object [(.string "a", .number (.int 0))]
    let whole : Constraint := .multipleOf (.int 1152921504606846976)
    let double : Constraint := .multipleOf (.float ⟨0x43b0000000000000⟩)
    ∃ p, registry.HasBuiltins ∧ ofExpr e = .ok p ∧ p.isPlain = true ∧ registry.Knows p ∧
      p.evaluate registry (.object []) = .ok (.waitFor whole) ∧
      Filed.IsGenuine (.single whole.path whole) ∧ (Value.object []).GrowsTo document ∧
      Kept (p.finds registry (.object [])) (.object []) document ∧ document.IsOrdered ∧
      Filed.IsSettled registry document (.single whole.path whole) ∧
      p.evaluate registry document = .ok (.violated double (.number (.int 0))) := by
  intro expression e registry document whole double
  have registered : registry.find? "multiple-of" = some .multipleOf := rfl
  have read : ofExpr e = .ok (conjunction multiples) := rfl
  have knows : registry.Knows (conjunction multiples) := by decide +kernel
  have listed : (conjunction multiples).evaluate registry (.object []) = .ok (.waitFor whole) := by
    show Except.ok (Residual.pending (Filed.file whole.path [double] (.single whole.path whole))) = _
    rw [Filed.file_single same_multiples]
    rfl
  have grown : (Value.object []).GrowsTo document := .object (fun _ => nofun) fun _ _ _ => nofun
  have kept : Kept ((conjunction multiples).finds registry (.object [])) (.object []) document := by
    rw [finds, findsAt_empty (isRead_of_ofExpr read)]
    exact fun _ member => absurd member List.not_mem_nil
  have ordered : document.IsOrdered := by decide +kernel
  have settled : Filed.IsSettled registry document (.single whole.path whole) := by
    refine List.forall_mem_singleton.mpr (List.forall_mem_singleton.mpr ?_)
    have first := Constraint.evaluate_multipleOf registered (.int 0) (.int 1152921504606846976)
    rw [if_pos (by decide +kernel)] at first
    exact first
  exact ⟨_, Registry.hasBuiltins_builtins.after _, read, rfl, knows, listed, by decide, grown, kept,
    ordered, settled, evaluate_multiples registered⟩

end Policy

end ResidualPolicy
