import ResidualPolicy.Proofs.Evaluation
import ResidualPolicy.Proofs.Residual.Congruence

/-!
# Evaluations that are compared step by step

Two evaluations are `Alike` if both fail with the same error, or both return and what they return is
related. An evaluation is a sequence of steps that may fail, and so is the comparison. It comes down to
the steps: to the elements of collections (`Quantifier.survey_related`), to parts
(`Policy.evaluateAll_related`, `Policy.evaluateSome_related`), and to how their residuals are combined
(`Filed.Congruence`).
-/

namespace ResidualPolicy

universe u v

/-! ## Steps that fail alike -/

/-- Both fail with the same error, or both return and what they return is related. -/
inductive Alike {ε : Type u} {α β : Type v} (related : α → β → Prop) :
    Except ε α → Except ε β → Prop where
  | error (e : ε) : Alike related (.error e) (.error e)
  | ok {a : α} {b : β} (h : related a b) : Alike related (.ok a) (.ok b)

namespace Alike

variable {ε : Type u} {α β γ δ : Type v} {related : α → β → Prop} {after : γ → δ → Prop}
  {x : Except ε α} {y : Except ε β}

theorem bind (h : Alike related x y) {f : α → Except ε γ} {g : β → Except ε δ}
    (each : ∀ a b, related a b → Alike after (f a) (g b)) : Alike after (x >>= f) (y >>= g) := by
  cases h with
  | error e => exact .error e
  | ok h => exact each _ _ h

theorem map (h : Alike related x y) {f : α → γ} {g : β → δ}
    (each : ∀ a b, related a b → after (f a) (g b)) : Alike after (x.map f) (y.map g) := by
  cases h with
  | error e => exact .error e
  | ok h => exact .ok (each _ _ h)

theorem ite {x' : Except ε α} {y' : Except ε β} (h : Alike related x y) (h' : Alike related x' y')
    (condition : Prop) [Decidable condition] :
    Alike related (if condition then x else x') (if condition then y else y') := by
  split
  · exact h
  · exact h'

end Alike

theorem Registry.lookup_alike (registry : Registry) (id : String) :
    Alike (fun op op' => op = op' ∧ registry.find? id = some op) (registry.lookup id)
      (registry.lookup id) := by
  cases found : registry.lookup id with
  | error e => exact .error e
  | ok op => exact .ok ⟨rfl, lookup_eq_ok.mp found⟩

/-! ## Collections -/

/-- Evaluations that are alike on elements that are near each other. -/
abbrev AtPlace.Relates (near : Path × Value → Path × Value → Prop)
    (related : Residual → Residual → Prop) (f g : AtPlace) : Prop :=
  ∀ a b, near a b → Alike related (f a.2 a.1) (g b.2 b.1)

variable {near : Path × Value → Path × Value → Prop} {filter filter' body body' : AtPlace}
  {elements elements' : List (Path × Value)}

theorem Quantifier.survey_related (quantifier : Quantifier)
    {waiting : Filed Constraint → Filed Constraint → Prop}
    {failing : Filed Violation → Filed Violation → Prop}
    (congruence : Filed.Congruence waiting failing)
    (filters : filter.Relates near (Residual.Related waiting failing) filter')
    (bodies : body.Relates near (Residual.Related waiting failing) body')
    {unmatched unmatched' : Residual} (others : unmatched.Related waiting failing unmatched')
    (each : List.Forall₂ near elements elements') {a b : Filed Constraint} {v w : Filed Violation}
    (waits : waiting a b) (fails : failing v w) :
    Alike (Residual.Related waiting failing)
      (quantifier.survey filter body unmatched a v elements)
      (quantifier.survey filter' body' unmatched' b w elements') := by
  induction each generalizing a b v w with
  | nil => exact .ok (congruence.conclude quantifier waits fails others)
  | @cons element element' rest rest' first _ ih =>
    unfold survey
    refine (filters _ _ first).bind fun selected selected' hs => ?_
    have selects := hs
    cases hs with
    | conflict _ => exact ih waits fails
    | _ =>
      refine (bodies _ _ first).bind fun r r' inner => ?_
      have verdicts := congruence.verdict quantifier selects inner
      generalize quantifier.verdict _ r = verdict, quantifier.verdict _ r' = verdict'
        at verdicts ⊢
      cases verdicts with
      | decides h => exact .ok h
      | adds more found =>
        exact ih (congruence.waiting_merge waits more) (congruence.failing_merge fails found)

section

variable {related : Residual → Residual → Prop}

theorem countPassing_related
    (satisfied : ∀ r s, related r s → r.isSatisfied = s.isSatisfied)
    (filters : filter.Relates near related filter') (each : List.Forall₂ near elements elements') :
    Alike Eq (countPassing filter elements) (countPassing filter' elements') := by
  induction each with
  | nil => exact .ok rfl
  | cons first _ ih =>
    unfold countPassing
    refine (filters _ _ first).bind fun r r' both => ih.bind fun count count' counted => ?_
    rw [satisfied r r' both, counted]
    exact .ok rfl

/-! ## Parts -/

namespace Policy

variable {registry : Registry} {v w : Value} {place place' : Path} {positive positive' : Bool}
  {ps qs : List Policy}

theorem evaluateAll_related
    (each : List.Forall₂ (fun p q => Alike related (evaluateAt registry p v place positive)
      (evaluateAt registry q w place' positive')) ps qs) :
    Alike (List.Forall₂ related) (evaluateAll registry ps v place positive)
      (evaluateAll registry qs w place' positive') := by
  induction each with
  | nil =>
    rw [evaluateAll, evaluateAll]
    exact .ok .nil
  | cons first _ ih =>
    rw [evaluateAll, evaluateAll]
    exact first.bind fun r s both => ih.bind fun rs ss rest => .ok (.cons both rest)

theorem evaluateSome_related
    (satisfied : ∀ r s, related r s → r.isSatisfied = s.isSatisfied)
    (each : List.Forall₂ (fun p q => Alike related (evaluateAt registry p v place positive)
      (evaluateAt registry q w place' positive')) ps qs) :
    Alike (List.Forall₂ related) (evaluateSome registry ps v place positive)
      (evaluateSome registry qs w place' positive') := by
  induction each with
  | nil =>
    rw [evaluateSome, evaluateSome]
    exact .ok .nil
  | cons first _ ih =>
    rw [evaluateSome, evaluateSome]
    refine first.bind fun r s both => ?_
    rw [satisfied r s both]
    split
    · exact .ok (.cons both .nil)
    · exact ih.bind fun rs ss rest => .ok (.cons both rest)

end Policy

end

end ResidualPolicy
