import ResidualPolicy.Proofs.Compilation.Refusal

/-!
# Custom operators and the tier

Whether a policy may run without a guard is decided by the operators of the normal form. Rewriting
puts built-in operators in the place of built-in operators only, and what is left out because it is
there already uses no others, so the custom operators of a normal form are those of the policies
(`mem_operators_ofPolicies_iff`). Hence the tiers without a guard and the refusal for want of a
fallback speak about the policies as they were written.
-/

namespace ResidualPolicy

namespace Policy

/-- The custom operators of several policies, in ascending order. -/
def customOperators (policies : List Policy) : List String :=
  (Ascending.ofMembers (policies.flatMap operatorList)).filter fun id => !isBuiltin id

variable {policies : List Policy}

theorem mem_customOperators {id : String} :
    id ∈ customOperators policies ↔
      (∃ p ∈ policies, id ∈ p.operatorList) ∧ isBuiltin id = false := by
  rw [customOperators, List.mem_filter, Registry.mem_ofMembers, List.mem_flatMap, Bool.not_eq_true']

theorem customOperators_eq_nil_iff :
    customOperators policies = [] ↔ ∀ p ∈ policies, p.UsesOnly (isBuiltin · = true) := by
  rw [List.eq_nil_iff_forall_not_mem]
  constructor
  · intro none p member id used
    by_contra custom
    exact none id (mem_customOperators.mpr ⟨⟨p, member, used⟩, Bool.not_eq_true _ ▸ custom⟩)
  · intro builtin id custom
    obtain ⟨⟨p, member, used⟩, apart⟩ := mem_customOperators.mp custom
    rw [builtin p member id used] at apart
    exact Bool.noConfusion apart

end Policy

namespace ConstraintSet

variable {policies : List Policy}

/-- A custom operator is used by a normal form if and only if it is used by one of the policies. -/
theorem mem_operators_ofPolicies_iff {id : String} (custom : isBuiltin id = false) :
    id ∈ (ofPolicies policies).operators ↔ ∃ p ∈ policies, id ∈ p.operatorList := by
  -- Being another operator than this one is true of all built-in operators.
  have alike : BuiltinsAlike (· ≠ id) := by
    intro a b _ same
    have builtin := isBuiltin_id b
    rw [same, custom] at builtin
    exact Bool.noConfusion builtin
  have absent : (∀ other ∈ (ofPolicies policies).operators, other ≠ id) ↔
      ∀ p ∈ policies, ∀ other ∈ p.operatorList, other ≠ id :=
    usesOnly_iff_operators.symm.trans (usesOnly_ofPolicies_iff alike)
  simpa using not_congr absent

/-- The custom operators of a normal form are those of the policies. -/
theorem customOperators_ofPolicies :
    (ofPolicies policies).customOperators = Policy.customOperators policies := by
  refine Ascending.IsAscending.eq_of_mem_iff ((Ascending.isAscending_ofMembers _).filter _)
    ((Ascending.isAscending_ofMembers _).filter _) fun id => ?_
  rw [customOperators, List.mem_filter, Policy.mem_customOperators, Bool.not_eq_true']
  exact and_congr_left mem_operators_ofPolicies_iff

theorem isBuiltinOnly_iff {set : ConstraintSet} :
    set.isBuiltinOnly = true ↔ set.customOperators = [] :=
  List.isEmpty_iff

end ConstraintSet

namespace CompiledPolicy

variable {registry : Registry} {policies : List Policy} {set : ConstraintSet}
  {options : CompileOptions}

/-! ## Tiers -/

/-- The tier is not above the ceiling. -/
theorem tierFor_le {ceiling : Tier} (given : ceiling ∈ options.ceiling) :
    tierFor set options ≤ ceiling := by
  have asked : options.ceiling.getD .specialized = ceiling := by
    rw [given]
    rfl
  have special (found : (specializedEvaluator? options set).isSome = true) :
      ceiling = .specialized := by
    by_contra lower
    rw [specializedEvaluator?, asked, if_neg (by simpa using lower)] at found
    exact Bool.false_ne_true found
  unfold tierFor
  dsimp only
  rw [asked]
  split
  · exact Nat.zero_le _
  · next above =>
    split
    · cases ceiling <;> first | decide | simp at above
    · next higher =>
      split
      · next found =>
        rw [special found]
        exact Nat.le_refl _
      · cases ceiling <;> first | decide | simp at above higher

/-- Without a guard run only constraints on built-in operators. -/
theorem flat_of_unguarded {p : CompiledPolicy}
    (compiled : compileSet registry policies set options = .ok p)
    (unguarded : p.tier = .generic ∨ p.tier = .specialized) :
    set.complex = [] ∧ set.customOperators = [] := by
  obtain ⟨-, -, chosen, -⟩ := compileSet_eq_ok compiled
  generalize choice : (p.tier, p.evaluator) = c at chosen
  cases chosen with
  | interpreted => simp [(Prod.mk.inj choice).1] at unguarded
  | guarded flat generic => simp [(Prod.mk.inj choice).1] at unguarded
  | specialized flat builtin special => exact ⟨flat, ConstraintSet.isBuiltinOnly_iff.mp builtin⟩
  | generic flat builtin generic => exact ⟨flat, ConstraintSet.isBuiltinOnly_iff.mp builtin⟩

/-- Custom operators can not be hidden from compiling. Those of the normal form are those of the
policies, under negations, in filters and bodies, and as comparators of counts. Where all operators
are registered, compiling fails only if a fallback is ruled out and there are custom operators, and
then it lists all of them in order. Without a guard run only policies that use none and have no
complex part in their normal form, and no tier is above the ceiling. -/
theorem compile_sees_custom_operators [PatternEngine] {start : Registry} (initial : start.IsInitial)
    (before : List Operator) (policies : List Policy) (options : CompileOptions) :
    (ConstraintSet.ofPolicies policies).customOperators = Policy.customOperators policies ∧
      ((∀ q ∈ policies, (start.after before).Knows q) →
        ∀ e, compile (start.after before) policies options = .error e ↔
          options.fallback = .disabled ∧ Policy.customOperators policies ≠ [] ∧
            e = .missingFallback (Policy.customOperators policies)) ∧
      ∀ p, compile (start.after before) policies options = .ok p →
        (p.tier = .generic ∨ p.tier = .specialized →
          (∀ q ∈ policies, q.UsesOnly (isBuiltin · = true)) ∧ p.set.complex = []) ∧
        ∀ ceiling ∈ options.ceiling, p.tier ≤ ceiling := by
  have complete := initial.complete.after before
  refine ⟨ConstraintSet.customOperators_ofPolicies, fun known e => ?_, fun p compiled => ⟨?_, ?_⟩⟩
  · rw [← ConstraintSet.customOperators_ofPolicies]
    exact compileSet_eq_error_iff.trans
      (refusal?_of_covered ((ConstraintSet.covered_ofPolicies_iff complete).mpr known))
  · intro unguarded
    obtain ⟨flat, none⟩ := flat_of_unguarded compiled unguarded
    obtain ⟨-, -, -, -, same, -⟩ := compileSet_eq_ok compiled
    rw [ConstraintSet.customOperators_ofPolicies] at none
    rw [same]
    exact ⟨Policy.customOperators_eq_nil_iff.mp none, flat⟩
  · intro ceiling given
    rw [(tier_of_compileSet compiled).2]
    exact tierFor_le given

/-- A custom operator that is used under a negation, in a filter and as the comparator of a count,
and policies without one under a ceiling. -/
theorem compile_sees_custom_operators_of_near :
    let near : Operator := ⟨"near", fun v o => v == o, .any, false⟩
    let registry := Registry.builtins.after [near]
    let path (name : String) : Path := ⟨[.string name]⟩
    let close : Policy :=
      .leaf { path := path "place", operator := "near", operand := .string "home" }
    let adult : Policy :=
      .leaf { path := path "age", operator := ">=", operand := .number (.int 18) }
    let policies : List Policy :=
      [.negation (.connected .disjunction
        [.negation adult, .quantified .universal (path "trips") (some close) adult]),
        .negation (.counted (path "trips") none "near" (.ofNat 0))]
    let plain : CompileOptions := { ceiling := some .generic, fallback := .disabled }
    Registry.builtins.IsInitial ∧ (∀ q ∈ policies, registry.Knows q) ∧
      compile registry policies { fallback := .disabled } = .error (.missingFallback ["near"]) ∧
      ∃ p, compile registry [adult, adult] plain = .ok p ∧ p.tier = .generic ∧
        (∀ q ∈ [adult, adult], q.UsesOnly (isBuiltin · = true)) ∧ p.set.complex = [] ∧
        p.tier ≤ .generic := by
  intro near registry path close adult policies plain
  have initial : Registry.builtins.IsInitial := .inl rfl
  have known : ∀ q ∈ policies, registry.Knows q := by decide +kernel
  have listed : Policy.customOperators policies = ["near"] := by decide +kernel
  obtain ⟨-, refused, -⟩ :=
    compile_sees_custom_operators initial [near] policies { fallback := .disabled }
  have generic : (compile registry [adult, adult] plain).map tier = .ok .generic := by
    decide +kernel
  obtain ⟨p, compiled, tier⟩ := map_eq_ok generic
  obtain ⟨-, -, succeeds⟩ := compile_sees_custom_operators initial [near] [adult, adult] plain
  obtain ⟨unguarded, below⟩ := succeeds p compiled
  obtain ⟨builtin, flat⟩ := unguarded (.inl tier)
  refine ⟨initial, known, ?_, p, compiled, tier, builtin, flat, below .generic rfl⟩
  refine (refused known _).mpr ⟨rfl, ?_, ?_⟩
  · rw [listed]
    exact List.cons_ne_nil _ _
  · rw [listed]

end CompiledPolicy

end ResidualPolicy
