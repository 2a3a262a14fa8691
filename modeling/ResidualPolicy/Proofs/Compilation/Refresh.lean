import ResidualPolicy.Proofs.Compilation.Refusal

/-!
# Stale policies and their refreshing

The version of a registry counts the registrations that have succeeded (`Registry.version_after`),
so a guarded policy is stale as soon as there has been one since its compilation, and never before.
Refreshing compiles the policy again. Nothing that was checked the first time can fail the second
time, and the tier does not depend on the registry, so the outcome is the policy brought up to date.
-/

namespace ResidualPolicy

namespace CompiledPolicy

variable {registry : Registry} {policies : List Policy} {set : ConstraintSet}
  {options : CompileOptions} {p : CompiledPolicy}

/-! ## What has been compiled at some time -/

/-- The policy has been compiled by a registry that has grown into the present one. -/
def WasCompiled (p : CompiledPolicy) (registry : Registry) : Prop :=
  ∃ (earlier : Registry) (later : List Operator), registry = earlier.after later ∧
    compileSet earlier p.policies p.set p.options = .ok p

theorem wasCompiled_of_compileSet (compiled : compileSet registry policies set options = .ok p) :
    p.WasCompiled registry := by
  obtain ⟨-, -, -, -, rfl, rfl, rfl⟩ := compileSet_eq_ok compiled
  exact ⟨registry, [], rfl, compiled⟩

theorem WasCompiled.after (was : p.WasCompiled registry) (later : List Operator) :
    p.WasCompiled (registry.after later) := by
  obtain ⟨earlier, between, rfl, compiled⟩ := was
  exact ⟨earlier, between ++ later, (Registry.after_append earlier between later).symm, compiled⟩

theorem WasCompiled.tier (was : p.WasCompiled registry) : p.tier = tierFor p.set p.options := by
  obtain ⟨earlier, later, rfl, compiled⟩ := was
  exact (tier_of_compileSet compiled).2

/-- Compiling the policy again does not fail. -/
theorem WasCompiled.refusal?_eq_none (was : p.WasCompiled registry) :
    refusal? registry p.set p.options = none := by
  obtain ⟨earlier, later, rfl, compiled⟩ := was
  exact refusal?_after (tier_of_compileSet compiled).1 later

/-- A policy is stale if and only if it is guarded and something has been registered since its
compilation. -/
theorem isStale_after_iff (compiled : compileSet registry policies set options = .ok p)
    (later : List Operator) :
    p.isStale (registry.after later) = true ↔
      p.tier = .guarded ∧ registry.accepted later ≠ [] := by
  obtain ⟨-, -, -, version, -⟩ := compileSet_eq_ok compiled
  rw [isStale, version, Registry.version_after, Bool.and_eq_true, beq_iff_eq, bne_iff_ne, ne_eq,
    Nat.add_eq_left, List.length_eq_zero_iff]

/-- What a refreshed policy has in common with the one it comes from, and what it does not. -/
structure IsRefreshed (fresh p : CompiledPolicy) (registry : Registry) : Prop where
  set : fresh.set = p.set
  policies : fresh.policies = p.policies
  options : fresh.options = p.options
  tier : fresh.tier = p.tier
  version : fresh.version = registry.version
  current : fresh.isStale registry = false

theorem not_isStale_of_version (version : p.version = registry.version) :
    p.isStale registry = false := by
  rw [isStale, version, bne_self_eq_false, Bool.and_false]

theorem WasCompiled.refresh (was : p.WasCompiled registry) {fresh : CompiledPolicy}
    (refreshed : p.refresh registry = .ok fresh) : fresh.IsRefreshed p registry := by
  obtain ⟨-, -, -, version, set, policies, options⟩ := compileSet_eq_ok refreshed
  refine ⟨set, policies, options, ?_, version, not_isStale_of_version version⟩
  rw [(tier_of_compileSet refreshed).2, was.tier]

theorem WasCompiled.exists_refresh (was : p.WasCompiled registry) :
    ∃ fresh, p.refresh registry = .ok fresh ∧ fresh.IsRefreshed p registry := by
  obtain ⟨fresh, refreshed⟩ := @exists_of_refusal?_eq_none registry p.policies _ _
    was.refusal?_eq_none
  exact ⟨fresh, refreshed, was.refresh refreshed⟩

/-! ## Refreshing -/

/-- After any attempts to register operators, a compiled policy is stale if and only if it is
guarded and one of them has succeeded. It still has the version of its compilation. Refreshing it
succeeds and gives what compiling its policies gives, which has the same tier and normal form, is
not stale and returns the residual of the policies by the registry of the moment. Of equal
constraints one is checked, so the operators must not distinguish equal operands of the policies.
They cannot where none is written in two forms (`Registry.respectsOperands_of_distinct`). -/
theorem refresh_after [PatternEngine] {start : Registry} (initial : start.IsInitial)
    {before : List Operator}
    {policies : List Policy} {options : CompileOptions} {p : CompiledPolicy}
    (compiled : compile (start.after before) policies options = .ok p) (later : List Operator) :
    let now := (start.after before).after later
    (p.isStale now = true ↔ p.tier = .guarded ∧ (start.after before).accepted later ≠ []) ∧
      p.version = (start.after before).version ∧
      ∃ fresh, p.refresh now = .ok fresh ∧ compile now policies options = .ok fresh ∧
        fresh.tier = p.tier ∧ fresh.set = p.set ∧ fresh.version = now.version ∧
        fresh.isStale now = false ∧
        (options.IsFaithful → now.RespectsOperands (Policy.operandLists policies) →
          ∀ document : Value, document.ArraysFit →
            ∃ r, fresh.evaluate now document = .ok r ∧
              (Policy.conjunction policies).evaluate now document = .ok r) := by
  intro now
  obtain ⟨-, -, -, version, set, own, asked⟩ := compileSet_eq_ok compiled
  have was : p.WasCompiled now := (wasCompiled_of_compileSet compiled).after later
  obtain ⟨fresh, refreshed, same⟩ := was.exists_refresh
  have again : compile now policies options = .ok fresh := by
    rw [refresh, set, own, asked] at refreshed
    exact refreshed
  refine ⟨isStale_after_iff compiled later, version, fresh, refreshed, again, same.tier, same.set,
    same.version, same.current, fun faithful respects document fit => ?_⟩
  have complete := (initial.complete.after before).after later
  exact evaluate_compileSet_of_respects complete respects.conjunction faithful again [] fit

/-- A guarded policy whose custom operator is replaced, after an attempt to replace a built-in
one. -/
theorem refresh_after_of_replaced :
    let like : Operator := ⟨"like", fun v o => v == o, .any, false⟩
    let unlike : Operator := ⟨"like", fun v o => !(v == o), .any, false⟩
    let refused : Operator := ⟨"=", fun _ _ => true, .any, false⟩
    let role : Constraint :=
      { path := ⟨[.string "role"]⟩, operator := "like", operand := .string "admin" }
    let team : Constraint :=
      { path := ⟨[.string "team"]⟩, operator := "=", operand := .string "ops" }
    let policies : List Policy := [.leaf role, .negation (.leaf team)]
    let options : CompileOptions := { specializer := some inlineSpecializer }
    let document : Value := .object [(.string "role", .string "admin")]
    let now := (Registry.builtins.after [like]).after [refused, unlike]
    Registry.builtins.IsInitial ∧ options.IsFaithful ∧
      now.RespectsOperands (Policy.operandLists policies) ∧ document.ArraysFit ∧
      ∃ p, compile (Registry.builtins.after [like]) policies options = .ok p ∧
        p.isStale now = true ∧ ∃ fresh, p.refresh now = .ok fresh ∧ fresh.tier = .guarded ∧
          fresh.isStale now = false ∧ ∃ r, fresh.evaluate now document = .ok r ∧
            (Policy.conjunction policies).evaluate now document = .ok r := by
  intro like unlike refused role team policies options document now
  have initial : Registry.builtins.IsInitial := .inl rfl
  have standard : options.IsStandard := ⟨.inl rfl, .inr rfl⟩
  have lawful : now.Lawful := by
    refine Registry.Lawful.after (initial.lawful.after (List.forall_mem_singleton.mpr ?_))
      (List.forall_mem_cons.mpr ⟨?_, List.forall_mem_singleton.mpr ?_⟩)
    · exact Operator.respectsEquality_of_eq (f := id) fun _ _ => rfl
    · exact Operator.respectsEquality_of_eq (f := fun _ => true) fun _ _ => rfl
    · exact Operator.respectsEquality_of_eq (f := not) fun _ _ => rfl
  have respects := lawful.respectsOperands (Policy.operandLists policies)
  have fit : document.ArraysFit :=
    Value.arraysFit_object (List.forall_mem_singleton.mpr (Value.arraysFit_string "admin"))
  have guarded : (compile (Registry.builtins.after [like]) policies options).map tier =
      .ok .guarded := by decide +kernel
  have replaced : (Registry.builtins.after [like]).accepted [refused, unlike] ≠ [] :=
    List.isEmpty_eq_false_iff.mp (by decide +kernel)
  obtain ⟨p, compiled, tier⟩ := map_eq_ok guarded
  obtain ⟨stale, -, fresh, refreshed, -, same, -, -, current, evaluates⟩ :=
    refresh_after initial compiled [refused, unlike]
  exact ⟨initial, standard.isFaithful, respects, fit, p, compiled, stale.mpr ⟨tier, replaced⟩, fresh,
    refreshed, same.trans tier, current, evaluates standard.isFaithful respects document fit⟩

/-- A refreshed policy and the interpreter differ where an operator distinguishes equal operands. The
guarded policy checks the first of two constraints, and the second is violated. -/
theorem evaluate_refresh_ne :
    let before := Registry.builtins.after [.multipleOf]
    let now := before.after [{ id := "near", holds := fun _ _ => true }]
    let document : Value := .object [(.string "a", .number (.int 0))]
    let double : Constraint := .multipleOf (.float ⟨0x43b0000000000000⟩)
    Registry.builtins.IsInitial ∧ CompileOptions.IsFaithful {} ∧ document.ArraysFit ∧
      ∃ p fresh, compile before Policy.multiples {} = .ok p ∧ p.tier = .guarded ∧
        p.isStale now = true ∧ p.refresh now = .ok fresh ∧
        fresh.evaluate now document = .ok .satisfied ∧
        (Policy.conjunction Policy.multiples).evaluate now document =
          .ok (.violated double (.number (.int 0))) := by
  intro before now document double
  have registered : now.find? "multiple-of" = some .multipleOf := rfl
  have faithful : CompileOptions.IsFaithful {} :=
    CompileOptions.IsStandard.isFaithful ⟨.inl rfl, .inl rfl⟩
  have fit : document.ArraysFit := by
    refine Value.arraysFit_object (List.forall_mem_singleton.mpr ?_)
    exact Value.arraysFit_number _
  have run : (compile before Policy.multiples {}).bind (fun p =>
      (p.refresh now).map fun fresh => (p.tier, p.isStale now,
        (fresh.evaluate now document).toOption.map Residual.isSatisfied)) =
      .ok (.guarded, true, some true) := by decide +kernel
  obtain ⟨p, compiled, run⟩ := bind_eq_ok run
  obtain ⟨fresh, refreshed, found⟩ := map_eq_ok run
  obtain ⟨tier, found⟩ := Prod.mk.inj found
  obtain ⟨stale, found⟩ := Prod.mk.inj found
  obtain ⟨r, evaluated, satisfied⟩ := Option.map_eq_some_iff.mp found
  rw [Residual.isSatisfied_iff.mp satisfied] at evaluated
  exact ⟨.inl rfl, faithful, fit, p, fresh, compiled, tier, stale, refreshed,
    eq_ok_of_toOption evaluated, Policy.evaluate_multiples registered⟩

end CompiledPolicy

end ResidualPolicy
