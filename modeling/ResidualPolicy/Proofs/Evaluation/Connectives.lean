import ResidualPolicy.Pattern.Reader
import ResidualPolicy.Proofs.Evaluation.Decision
import ResidualPolicy.Proofs.Residual.Selection

/-!
# Parts of connectives

What a connective means depends on what its parts mean alone, and on their order. Which residual it
has is said by one rule for conjunctions and one for disjunctions (`Policy.evaluate_selects`).

How the parts are grouped does not matter, and neither does a part that comes again
(`Policy.evaluateAt_regrouped`). This includes policies with unknown operators, since a connective
weighs the outcomes of its parts from the first one on, and a disjunction only up to one that is
satisfied (`Connective.weigh`). The laws of `weigh` come from those of `further`, with which it weighs:
that is associative, it has a unit, and a residual that has been weighed before changes nothing.
-/

namespace ResidualPolicy

/-- Only a well-formed residual is returned. -/
def Outcome.IsWellFormed (outcome : Outcome) : Prop :=
  ∀ r, outcome = .ok r → r.WellFormed

namespace Connective

variable {connective : Connective}

/-! ## The rules -/

/-- Which residual a connective has, from those of its parts. -/
def Rule : Connective → List Residual → Residual → Prop
  | .conjunction => Residual.ConjunctionRule
  | .disjunction => Residual.DisjunctionRule

theorem rule_join (connective : Connective) {rs : List Residual} (hrs : ∀ r ∈ rs, r.WellFormed) :
    connective.Rule rs (connective.join rs) := by
  cases connective with
  | conjunction => exact Residual.conjunctionRule_conjoin hrs
  | disjunction => exact Residual.disjunctionRule_disjoin hrs

/-! ## One part more -/

theorem wellFormed_unit (connective : Connective) : connective.unit.WellFormed := by
  cases connective with
  | conjunction => exact .satisfied
  | disjunction => exact .conflict Filed.wellFormed_nil

theorem wellFormed_further {r s : Residual} (hr : r.WellFormed) (hs : s.WellFormed) :
    (connective.further r s).WellFormed := by
  cases connective with
  | conjunction => exact hr.also hs
  | disjunction => exact hr.otherwise hs

theorem further_unit (connective : Connective) (r : Residual) :
    connective.further r connective.unit = r := by
  cases connective with
  | conjunction => exact Residual.also_satisfied r
  | disjunction => exact Residual.otherwise_unit r

theorem further_assoc {r s t : Residual} (hr : r.WellFormed) (hs : s.WellFormed)
    (ht : t.WellFormed) : connective.further (connective.further r s) t =
      connective.further r (connective.further s t) := by
  cases connective with
  | conjunction => exact Residual.also_assoc hr hs ht
  | disjunction => exact Residual.otherwise_assoc hr hs ht

theorem further_further_self {r s : Residual} (hr : r.WellFormed) (hs : s.WellFormed) :
    connective.further (connective.further r s) r = connective.further r s := by
  cases connective with
  | conjunction => exact Residual.also_also_self hr hs
  | disjunction => exact Residual.otherwise_otherwise_self hr hs

/-- What makes no difference keeps making none when another part has been weighed. -/
theorem further_absorbs {r s t : Residual} (hr : r.WellFormed) (hs : s.WellFormed)
    (ht : t.WellFormed) (absorbed : connective.further r s = r) :
    connective.further (connective.further r t) s = connective.further r t := by
  calc connective.further (connective.further r t) s
      = connective.further (connective.further (connective.further r s) t) s := by rw [absorbed]
    _ = connective.further r (connective.further (connective.further s t) s) := by
      rw [further_assoc hr hs ht, further_assoc hr (wellFormed_further hs ht) hs]
    _ = connective.further (connective.further r s) t := by
      rw [further_further_self hs ht, further_assoc hr hs ht]
    _ = connective.further r t := by rw [absorbed]

theorem further_self {r : Residual} (hr : r.WellFormed) : connective.further r r = r := by
  calc connective.further r r
      = connective.further (connective.further r connective.unit) r := by rw [further_unit]
    _ = connective.further r connective.unit := further_further_self hr (wellFormed_unit connective)
    _ = r := further_unit connective r

/-! ## Weighing outcomes -/

variable {outcomes : List Outcome}

theorem weigh_append (r : Residual) (outcomes more : List Outcome) :
    connective.weigh r (outcomes ++ more) =
      connective.weigh r outcomes >>= fun s => connective.weigh s more := by
  induction outcomes generalizing r with
  | nil => rfl
  | cons outcome rest ih =>
    cases final : connective.isFinal r with
    | true => rw [weigh_of_final final, weigh_of_final final, ok_bind, weigh_of_final final]
    | false =>
      rw [List.cons_append, weigh_cons final, weigh_cons final]
      cases outcome with
      | error e => rfl
      | ok s => exact ih _

theorem wellFormed_weigh {r : Residual} (hr : r.WellFormed)
    (ho : ∀ o ∈ outcomes, Outcome.IsWellFormed o) :
    Outcome.IsWellFormed (connective.weigh r outcomes) := by
  induction outcomes generalizing r with
  | nil =>
    intro s eq
    rwa [← Except.ok.inj eq]
  | cons outcome rest ih =>
    obtain ⟨first, others⟩ := List.forall_mem_cons.mp ho
    intro s eq
    cases final : connective.isFinal r with
    | true =>
      rw [weigh_of_final final] at eq
      rwa [← Except.ok.inj eq]
    | false =>
      rw [weigh_cons final] at eq
      obtain ⟨t, found, later⟩ := bind_eq_ok eq
      exact ih (wellFormed_further hr (first t found)) others s later

/-- What there is so far can be kept apart from what comes. -/
theorem weigh_further {r s : Residual} (hr : r.WellFormed) (hs : s.WellFormed)
    (ho : ∀ o ∈ outcomes, Outcome.IsWellFormed o) (goesOn : connective.isFinal r = false) :
    connective.weigh (connective.further r s) outcomes =
      (connective.weigh s outcomes).map (connective.further r) := by
  induction outcomes generalizing s with
  | nil => rfl
  | cons outcome rest ih =>
    obtain ⟨first, others⟩ := List.forall_mem_cons.mp ho
    have final' := isFinal_further connective r s
    rw [goesOn, Bool.false_or] at final'
    cases final : connective.isFinal s with
    | true =>
      rw [weigh_of_final final, weigh_of_final (final'.trans final)]
      rfl
    | false =>
      rw [weigh_cons final, weigh_cons (final'.trans final)]
      cases outcome with
      | error e => rfl
      | ok t =>
        have ht := first t rfl
        rw [ok_bind, ok_bind, further_assoc hr hs ht]
        exact ih (wellFormed_further hs ht) others

/-- Outcomes that have been weighed on their own count as much as they do one by one. -/
theorem weigh_group {r : Residual} (hr : r.WellFormed)
    (ho : ∀ o ∈ outcomes, Outcome.IsWellFormed o) :
    connective.weigh r [connective.weigh connective.unit outcomes] = connective.weigh r outcomes := by
  cases final : connective.isFinal r with
  | true => rw [weigh_of_final final, weigh_of_final final]
  | false =>
    have whole := weigh_further hr (wellFormed_unit connective) ho final
    rw [further_unit] at whole
    rw [weigh_cons final, whole]
    cases connective.weigh connective.unit outcomes <;> rfl

theorem absorbs_weigh {r s t : Residual} (hr : r.WellFormed) (hs : s.WellFormed)
    (ho : ∀ o ∈ outcomes, Outcome.IsWellFormed o) (absorbed : connective.further r s = r)
    (weighed : connective.weigh r outcomes = .ok t) : connective.further t s = t := by
  induction outcomes generalizing r with
  | nil => rwa [← Except.ok.inj weighed]
  | cons outcome rest ih =>
    obtain ⟨first, others⟩ := List.forall_mem_cons.mp ho
    cases final : connective.isFinal r with
    | true =>
      rw [weigh_of_final final] at weighed
      rwa [← Except.ok.inj weighed]
    | false =>
      rw [weigh_cons final] at weighed
      obtain ⟨u, found, later⟩ := bind_eq_ok weighed
      have hu := first u found
      exact ih (wellFormed_further hr hu) others (further_absorbs hr hs hu absorbed) later

/-- An outcome that has been weighed changes nothing when it comes again, if it comes to that. -/
theorem final_or_absorbs {r t : Residual} {outcome : Outcome} (hr : r.WellFormed)
    (ho : ∀ o ∈ outcomes, Outcome.IsWellFormed o) (weighed : connective.weigh r outcomes = .ok t)
    (member : outcome ∈ outcomes) :
    connective.isFinal t = true ∨ ∃ s, outcome = .ok s ∧ connective.further t s = t := by
  induction outcomes generalizing r with
  | nil => exact absurd member List.not_mem_nil
  | cons head rest ih =>
    obtain ⟨first, others⟩ := List.forall_mem_cons.mp ho
    cases final : connective.isFinal r with
    | true =>
      rw [weigh_of_final final] at weighed
      exact .inl (Except.ok.inj weighed ▸ final)
    | false =>
      rw [weigh_cons final] at weighed
      obtain ⟨u, found, later⟩ := bind_eq_ok weighed
      have hu := first u found
      rcases List.mem_cons.mp member with rfl | among
      · -- From here on what there is so far absorbs the outcome, whatever is weighed behind it.
        have absorbed : connective.further (connective.further r u) u = connective.further r u := by
          rw [further_assoc hr hu hu, further_self hu]
        exact .inr ⟨u, found, absorbs_weigh (wellFormed_further hr hu) hu others absorbed later⟩
      · exact ih (wellFormed_further hr hu) others later among

theorem weigh_repeated {r : Residual} {outcome : Outcome} (hr : r.WellFormed)
    (ho : ∀ o ∈ outcomes, Outcome.IsWellFormed o) (member : outcome ∈ outcomes)
    (more : List Outcome) :
    connective.weigh r (outcomes ++ outcome :: more) = connective.weigh r (outcomes ++ more) := by
  rw [weigh_append, weigh_append]
  cases weighed : connective.weigh r outcomes with
  | error e => rfl
  | ok t =>
    rw [ok_bind, ok_bind]
    cases final : connective.isFinal t with
    | true => rw [weigh_of_final final, weigh_of_final final]
    | false =>
      rcases final_or_absorbs hr ho weighed member with final' | ⟨s, rfl, absorbed⟩
      · exact absurd (final.symm.trans final') Bool.false_ne_true
      · rw [weigh_cons final, ok_bind, absorbed]

theorem weigh_regrouped {before : List Outcome} {r : Residual} (hr : r.WellFormed)
    (hb : ∀ o ∈ before, Outcome.IsWellFormed o) (ho : ∀ o ∈ outcomes, Outcome.IsWellFormed o)
    (more : List Outcome) :
    connective.weigh r (before ++ [connective.weigh connective.unit outcomes] ++ more) =
      connective.weigh r (before ++ outcomes ++ more) := by
  rw [weigh_append, weigh_append, weigh_append r (before ++ outcomes),
    weigh_append r before outcomes]
  cases weighed : connective.weigh r before with
  | error e => rfl
  | ok s =>
    rw [ok_bind, ok_bind, weigh_group (wellFormed_weigh hr hb s weighed) ho]

end Connective

namespace Policy

variable {registry : Registry} {document : Value} {place : Path} {positive : Bool}

/-! ## Selection -/

theorem evaluateAt_rule {parts : List Policy} {rs : List Residual}
    (all : evaluateAll registry parts document place positive = .ok rs) (connective : Connective) :
    ∃ r, (connected connective parts).evaluateAt registry document place positive = .ok r ∧
      (connective.withPolarity positive).Rule rs r := by
  refine ⟨_, evaluateAt_connected all, Connective.rule_join _ fun r member => ?_⟩
  obtain ⟨p, -, evaluated⟩ := exists_mem_of_forall₂ (forall₂_of_evaluateAll all) r member
  exact wellFormed_of_evaluateAt evaluated

/-- Where all operators are registered, each part has a residual alone, and those of a conjunction and
a disjunction follow from these by their rules. -/
theorem evaluate_selects {parts : List Policy} (known : ∀ p ∈ parts, registry.Knows p)
    (document : Value) :
    ∃ rs, List.Forall₂ (fun p r => p.evaluate registry document = .ok r) parts rs ∧
      (∃ r, (connected .conjunction parts).evaluate registry document = .ok r ∧
        Residual.ConjunctionRule rs r) ∧
      ∃ r, (connected .disjunction parts).evaluate registry document = .ok r ∧
        Residual.DisjunctionRule rs r := by
  obtain ⟨rs, all⟩ : ∃ rs, evaluateAll registry parts document .root true = .ok rs :=
    evaluateAll_ok fun p member => evaluateAt_ok (known p member) document .root true
  exact ⟨rs, forall₂_of_evaluateAll all, evaluateAt_rule all .conjunction,
    evaluateAt_rule all .disjunction⟩

/-- Three parts are violated, two of them at the lowest path, and two wait for the same value. -/
theorem evaluate_selects_of_ties :
    let a : Path := ⟨[.string "a"]⟩
    let c : Path := ⟨[.string "c"]⟩
    let equals (path : Path) (n : Nat) : Constraint :=
      { path, operator := "=", operand := .ofNat n }
    let parts : List Policy := [.leaf (equals ⟨[.string "b"]⟩ 1), .leaf (equals c 3),
      .leaf (equals a 1), .leaf (equals a 2), .leaf (equals c 3)]
    let document : Value := .object [(.string "a", .ofNat 0), (.string "b", .ofNat 0)]
    let violations : Filed Violation := [(a, [⟨equals a 1, .ofNat 0⟩])]
    let constraints : Filed Constraint := [(c, [equals c 3])]
    (∀ p ∈ parts, Registry.builtins.Knows p) ∧
      (connected .conjunction parts).evaluate .builtins document = .ok (.conflict violations) ∧
      (connected .disjunction parts).evaluate .builtins document = .ok (.pending constraints) ∧
      ∃ rs, List.Forall₂ (fun p r => p.evaluate .builtins document = .ok r) parts rs ∧
        Residual.ConjunctionRule rs (.conflict violations) ∧
        Residual.DisjunctionRule rs (.pending constraints) := by
  intro a c equals parts document violations constraints
  have known : ∀ p ∈ parts, Registry.builtins.Knows p := by decide +kernel
  have conjunction : (connected .conjunction parts).evaluate .builtins document =
      .ok (.conflict violations) := by
    dsimp only [parts, document, violations, equals, a, c]
    rfl
  have disjunction : (connected .disjunction parts).evaluate .builtins document =
      .ok (.pending constraints) := by
    dsimp only [parts, document, constraints, equals, a, c]
    rfl
  obtain ⟨rs, each, ⟨r, evaluated, rule⟩, s, evaluated', rule'⟩ := evaluate_selects known document
  cases Except.ok.inj (conjunction.symm.trans evaluated)
  cases Except.ok.inj (disjunction.symm.trans evaluated')
  exact ⟨known, conjunction, disjunction, rs, each, rule, rule'⟩

/-! ## Regrouping -/

theorem wellFormed_outcomes (parts : List Policy) :
    ∀ outcome ∈ parts.map fun p => p.evaluateAt registry document place positive,
      Outcome.IsWellFormed outcome := by
  intro outcome member r found
  obtain ⟨p, -, rfl⟩ := List.mem_map.mp member
  exact wellFormed_of_evaluateAt found

/-- Parts of a connective may be grouped in another connective of the same sort, a single part is as
good as itself, and a part that comes again changes nothing. -/
theorem evaluateAt_regrouped (registry : Registry) (connective : Connective)
    (xs ys zs : List Policy) (x : Policy) (document : Value) (place : Path) (positive : Bool) :
    let outcome := fun p : Policy => p.evaluateAt registry document place positive
    outcome (.connected connective (xs ++ [.connected connective ys] ++ zs)) =
        outcome (.connected connective (xs ++ ys ++ zs)) ∧
      outcome (.connected connective [x]) = outcome x ∧
      outcome (.connected connective (xs ++ x :: ys ++ x :: zs)) =
        outcome (.connected connective (xs ++ x :: ys ++ zs)) := by
  intro outcome
  have unit := (connective.withPolarity positive).wellFormed_unit
  have weighed (parts : List Policy) : outcome (.connected connective parts) =
      (connective.withPolarity positive).weigh (connective.withPolarity positive).unit
        (parts.map outcome) := evaluateAt_connected_eq_weigh connective parts
  refine ⟨?_, evaluateAt_single connective x document place positive, ?_⟩
  · rw [weighed, weighed, List.map_append, List.map_append, List.map_singleton, weighed,
      List.map_append, List.map_append]
    exact Connective.weigh_regrouped unit (wellFormed_outcomes xs) (wellFormed_outcomes ys) _
  · have comes : outcome x ∈ (xs ++ x :: ys).map outcome :=
      List.mem_map_of_mem (List.mem_append_right xs List.mem_cons_self)
    have split (rest : List Policy) : (xs ++ x :: ys ++ rest).map outcome =
        (xs ++ x :: ys).map outcome ++ rest.map outcome := List.map_append
    rw [weighed, weighed, split, split, List.map_cons]
    exact Connective.weigh_repeated unit (wellFormed_outcomes _) comes _

end Policy

end ResidualPolicy
