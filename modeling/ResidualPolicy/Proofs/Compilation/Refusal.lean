import ResidualPolicy.Proofs.Compilation

/-!
# What compiling refuses

Compiling fails for two reasons only: an operator of the normal form is not registered, or custom
operators are used although a fallback is ruled out. Otherwise the tier depends on the normal form
and the options alone (`tier_compileSet`). Neither reason comes up later if it is not there at once,
for operators are never unregistered.

The operators that are checked are those of the normal form, and those that are looked up by an
interpreted policy and by a fallback are the ones that the policies were written with. Both are
registered or neither is (`ConstraintSet.covered_ofPolicies_iff`), so whatever compiles never meets
an unknown operator.
-/

namespace ResidualPolicy

variable {registry : Registry} {policies : List Policy} {set : ConstraintSet}
  {options : CompileOptions}

namespace CompiledPolicy

/-- The first operator of a normal form that is not registered. -/
def unregistered? (registry : Registry) (set : ConstraintSet) : Option String :=
  set.operators.find? fun id => !registry.contains id

/-- Why compiling fails, if it does. -/
def refusal? (registry : Registry) (set : ConstraintSet) (options : CompileOptions) :
    Option CompileError :=
  match unregistered? registry set, options.fallback with
  | some id, _ => some (.unknownOperator ⟨id⟩)
  | none, .disabled =>
    if set.isBuiltinOnly then none else some (.missingFallback set.customOperators)
  | none, _ => none

/-- The tier that is chosen if compiling does not fail. -/
def tierFor (set : ConstraintSet) (options : CompileOptions) : Tier :=
  let ceiling := options.ceiling.getD .specialized
  if set.hasComplex || ceiling == .interpreted then .interpreted
  else if !set.isBuiltinOnly || ceiling == .guarded then .guarded
  else if (specializedEvaluator? options set).isSome then .specialized
  else .generic

/-! ## Success and failure -/

theorem unregistered?_eq_none_iff : unregistered? registry set = none ↔ set.Covered registry := by
  rw [unregistered?, List.find?_eq_none, ConstraintSet.covered_iff_operators]
  simp

theorem checkOperators_eq :
    checkOperators registry set =
      match unregistered? registry set with
      | some id => .error (.unknownOperator ⟨id⟩)
      | none => .ok () := rfl

/-- Where the operators are registered, choosing can not fail. -/
theorem tier_choose (covered : set.Covered registry) (fallback : Option Evaluator) :
    (choose registry policies set options fallback).map Prod.fst = .ok (tierFor set options) := by
  have generic : genericEvaluator registry set =
      .ok (Plan.ofFiled registry.judge set.constraints).evaluator := by
    rw [genericEvaluator, Plan.ofSet_registeredCheck covered]
  unfold choose tierFor
  dsimp only
  split
  · rfl
  · split
    · rw [generic]
      rfl
    · cases specializedEvaluator? options set with
      | some evaluator => rfl
      | none =>
        rw [generic]
        rfl

/-- Where the operators are registered and a fallback is found, compiling succeeds. -/
theorem tier_compileSet_of_fallback (covered : set.Covered registry) {fallback : Option Evaluator}
    (found : fallbackOf policies set options.fallback = .ok fallback) :
    (compileSet registry policies set options).map tier = .ok (tierFor set options) := by
  obtain ⟨⟨tier, evaluator⟩, chosen, same⟩ :=
    map_eq_ok (@tier_choose registry policies set options covered fallback)
  rw [compileSet, checkOperators_eq, unregistered?_eq_none_iff.mpr covered, found]
  dsimp only
  rw [ok_bind, ok_bind, chosen, ← same]
  rfl

/-- Compiling fails for the reasons given, and the tier is the one that normal form and options
determine. -/
theorem tier_compileSet :
    (compileSet registry policies set options).map tier =
      match refusal? registry set options with
      | some e => .error e
      | none => .ok (tierFor set options) := by
  unfold refusal?
  cases missing : unregistered? registry set with
  | some id =>
    rw [compileSet, checkOperators_eq, missing]
    rfl
  | none =>
    have covered := unregistered?_eq_none_iff.mp missing
    cases asked : options.fallback with
    | synthesized => exact tier_compileSet_of_fallback covered (congrArg _ asked)
    | supplied evaluator => exact tier_compileSet_of_fallback covered (congrArg _ asked)
    | disabled =>
      have found : fallbackOf policies set options.fallback = _ := congrArg _ asked
      rw [fallbackOf] at found
      dsimp only
      by_cases builtin : set.isBuiltinOnly = true
      · rw [if_pos builtin] at found ⊢
        exact tier_compileSet_of_fallback covered found
      · rw [if_neg builtin] at found ⊢
        rw [compileSet, checkOperators_eq, missing, found]
        rfl

theorem tier_of_compileSet {p : CompiledPolicy}
    (compiled : compileSet registry policies set options = .ok p) :
    refusal? registry set options = none ∧ p.tier = tierFor set options := by
  have both := @tier_compileSet registry policies set options
  rw [compiled] at both
  cases refused : refusal? registry set options with
  | some e => exact nomatch refused ▸ both
  | none => exact ⟨rfl, Except.ok.inj (refused ▸ both)⟩

theorem exists_of_refusal?_eq_none (h : refusal? registry set options = none) :
    ∃ p, compileSet registry policies set options = .ok p := by
  have both := @tier_compileSet registry policies set options
  rw [h] at both
  obtain ⟨p, compiled, -⟩ := map_eq_ok both
  exact ⟨p, compiled⟩

theorem compileSet_eq_error_iff {e : CompileError} :
    compileSet registry policies set options = .error e ↔
      refusal? registry set options = some e := by
  have both := @tier_compileSet registry policies set options
  cases refused : refusal? registry set options with
  | none =>
    obtain ⟨p, compiled⟩ := @exists_of_refusal?_eq_none registry policies set options refused
    rw [compiled]
    exact ⟨nofun, nofun⟩
  | some other =>
    cases compiled : compileSet registry policies set options with
    | error f =>
      rw [compiled, refused] at both
      simp [Except.error.inj both]
    | ok p =>
      rw [compiled, refused] at both
      exact nomatch both

/-- What compiles now compiles by a registry that has grown. -/
theorem refusal?_after (h : refusal? registry set options = none) (later : List Operator) :
    refusal? (registry.after later) set options = none := by
  unfold refusal? at h ⊢
  cases missing : unregistered? registry set with
  | some id => exact nomatch missing ▸ h
  | none =>
    rw [unregistered?_eq_none_iff.mpr ((unregistered?_eq_none_iff.mp missing).after later)]
    rw [missing] at h
    exact h

/-- Compiling reports an unknown operator if and only if some operator of the normal form is not
registered. That a fallback is missing comes second. -/
theorem refusal?_eq_unknown_iff :
    (∃ e, refusal? registry set options = some (.unknownOperator e)) ↔ ¬ set.Covered registry := by
  rw [← unregistered?_eq_none_iff]
  unfold refusal?
  cases unregistered? registry set with
  | some id => simp
  | none => cases options.fallback <;> simp

/-- Where the operators are registered, compiling fails only for want of a fallback for the custom ones. -/
theorem refusal?_of_covered (covered : set.Covered registry) {e : CompileError} :
    refusal? registry set options = some e ↔
      options.fallback = .disabled ∧ set.customOperators ≠ [] ∧
        e = .missingFallback set.customOperators := by
  unfold refusal?
  rw [unregistered?_eq_none_iff.mpr covered]
  cases options.fallback with
  | disabled =>
    dsimp only
    rw [ConstraintSet.isBuiltinOnly]
    cases set.customOperators with
    | nil => simp
    | cons id more => simp [eq_comm]
  | _ => simp

/-! ## Evaluation -/

/-- What has been compiled evaluates without failing, however the registry grows. -/
theorem evaluate_ok [PatternEngine] (complete : registry.Complete) (faithful : options.IsFaithful)
    {p : CompiledPolicy}
    (compiled : compileSet registry policies (.ofPolicies policies) options = .ok p)
    (later : List Operator) (document : Value) :
    ∃ r, p.evaluate (registry.after later) document = .ok r := by
  rcases evaluate_cases complete faithful compiled later document with same | ⟨-, -, ran⟩
  · have covered := ConstraintSet.covered_of_operators (compileSet_eq_ok compiled).1
    rw [same]
    exact interpret_ok (complete.after later) (covered.after later) document
  · exact ⟨_, ran⟩

/-- Unknown operators are caught when compiling: policies are refused for one if and only if they
were written with one, and those that are not refused never meet one, whatever is registered
afterwards. -/
theorem compile_catches_unknown [PatternEngine] {start : Registry} (initial : start.IsInitial)
    (before : List Operator) (policies : List Policy) {options : CompileOptions}
    (standard : options.IsStandard) :
    ((∃ e, compile (start.after before) policies options = .error (.unknownOperator e)) ↔
        ∃ q ∈ policies, ¬ (start.after before).Knows q) ∧
      ∀ p, compile (start.after before) policies options = .ok p →
        ∀ (later : List Operator) (document : Value),
          ∃ r, p.evaluate ((start.after before).after later) document = .ok r := by
  have complete := initial.complete.after before
  refine ⟨?_, fun p compiled later document =>
    evaluate_ok complete standard.isFaithful compiled later document⟩
  have refused (e : UnknownOperator) :
      compile (start.after before) policies options = .error (.unknownOperator e) ↔
        refusal? (start.after before) (.ofPolicies policies) options = some (.unknownOperator e) :=
    compileSet_eq_error_iff
  simp only [refused, refusal?_eq_unknown_iff, ConstraintSet.covered_ofPolicies_iff complete]
  simp

/-- A disjunction with a negated comparison and a custom operator, which is interpreted, and an
operator that nobody has registered. -/
theorem compile_catches_unknown_of_disjunction :
    let like : Operator := ⟨"like", fun v o => v == o, .any, false⟩
    let role : Constraint :=
      { path := ⟨[.string "role"]⟩, operator := "like", operand := .string "admin" }
    let age : Constraint :=
      { path := ⟨[.string "age"]⟩, operator := "<", operand := .number (.int 18) }
    let near : Constraint := { role with operator := "near" }
    let either : Policy := .connected .disjunction [.leaf role, .negation (.leaf age)]
    let options : CompileOptions := { specializer := some inlineSpecializer }
    Registry.builtins.IsInitial ∧ options.IsStandard ∧
      (∃ e, compile (Registry.builtins.after [like]) [either, .leaf near] options =
        .error (.unknownOperator e)) ∧
      ∃ p, compile (Registry.builtins.after [like]) [either] options = .ok p ∧
        p.tier = .interpreted ∧ ∀ (later : List Operator) (document : Value),
          ∃ r, p.evaluate ((Registry.builtins.after [like]).after later) document = .ok r := by
  intro like role age near either options
  have initial : Registry.builtins.IsInitial := .inl rfl
  have standard : options.IsStandard := ⟨.inl rfl, .inr rfl⟩
  have unknown : ¬ (Registry.builtins.after [like]).Knows (.leaf near) := fun known =>
    absurd (known "near" (List.mem_singleton_self _)) (by decide)
  have interpreted : (compile (Registry.builtins.after [like]) [either] options).map tier =
      .ok .interpreted := by decide +kernel
  obtain ⟨p, compiled, tier⟩ := map_eq_ok interpreted
  obtain ⟨refused, -⟩ := compile_catches_unknown initial [like] [either, .leaf near] standard
  obtain ⟨-, evaluates⟩ := compile_catches_unknown initial [like] [either] standard
  exact ⟨initial, standard, refused.mpr ⟨.leaf near, by simp, unknown⟩, p, compiled, tier,
    evaluates p compiled⟩

end CompiledPolicy

end ResidualPolicy
