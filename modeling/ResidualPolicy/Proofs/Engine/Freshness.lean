import ResidualPolicy.Proofs.Compilation.Refresh
import ResidualPolicy.Proofs.Engine

/-!
# Compiling through the cache is like compiling

What an engine finds in its cache may have been compiled a while ago, from other policies with the
same normal form, and may have been refreshed with the options stored in it. It is none the worse
for that. Every entry has been compiled with the present options by an earlier state of the present
registry (`PolicyCache.Consistent`), and whether compiling succeeds, and with which tier, depends on
the normal form and the options alone as soon as the operators are registered.

Normal forms are looked up by their equality, which does not tell an integer from a double of the
same value. Where a specializer tells them apart, the tier may be the one for an equal normal form
(`CompileOptions.AcceptsSame`).
-/

namespace ResidualPolicy

variable {registry : Registry} {policies : List Policy} {options : CompileOptions}

/-! ## Normal forms that are the same -/

/-- Whether the specializer accepts a normal form does not depend on how its numbers are held. -/
def CompileOptions.AcceptsSame (options : CompileOptions) : Prop :=
  ∀ specialize ∈ options.specializer, ∀ a b : ConstraintSet, (a == b) = true → a.complex = [] →
    a.isBuiltinOnly = true → (specialize a).isSome = (specialize b).isSome

theorem CompileOptions.IsStandard.acceptsSame [PatternEngine] (standard : options.IsStandard) :
    options.AcceptsSame := by
  intro specialize asked a b same flat builtin
  rcases standard.specializer with none | inline
  · rw [none] at asked
    exact nomatch asked
  · rw [inline] at asked
    have simple : a.hasComplex = false := by rw [ConstraintSet.hasComplex, flat]; rfl
    rw [← Option.some.inj asked, isSome_inlineSpecializer simple builtin]
    rw [ConstraintSet.hasComplex_of_same same] at simple
    rw [ConstraintSet.isBuiltinOnly_of_same same] at builtin
    exact (isSome_inlineSpecializer simple builtin).symm

namespace CompiledPolicy

variable {a b : ConstraintSet}

theorem refusal?_of_same (h : (a == b) = true) :
    refusal? registry a options = refusal? registry b options := by
  unfold refusal? unregistered? ConstraintSet.isBuiltinOnly ConstraintSet.customOperators
  rw [ConstraintSet.operators_of_same h]

theorem isSome_specializedEvaluator?_of_same (accepts : options.AcceptsSame) (h : (a == b) = true)
    (flat : a.complex = []) (builtin : a.isBuiltinOnly = true) :
    (specializedEvaluator? options a).isSome = (specializedEvaluator? options b).isSome := by
  unfold specializedEvaluator?
  split
  · cases asked : options.specializer with
    | none => rfl
    | some specialize => exact accepts specialize asked a b h flat builtin
  · rfl

theorem tierFor_of_same (accepts : options.AcceptsSame) (h : (a == b) = true) :
    tierFor a options = tierFor b options := by
  unfold tierFor
  rw [← ConstraintSet.hasComplex_of_same h, ← ConstraintSet.isBuiltinOnly_of_same h]
  dsimp only
  split
  · rfl
  · next flat =>
    split
    · rfl
    · next builtin =>
      rw [Bool.or_eq_true, not_or, ConstraintSet.hasComplex] at flat
      rw [Bool.or_eq_true, not_or] at builtin
      rw [isSome_specializedEvaluator?_of_same accepts h (by simpa using flat.1)
        (by simpa using builtin.1)]

end CompiledPolicy

/-! ## The cache -/

namespace PolicyCache

variable {cache : PolicyCache}

/-- Every entry is filed under its own normal form and has been compiled with these options, when
the registry was an earlier one. -/
def Consistent (options : CompileOptions) (registry : Registry) (cache : PolicyCache) : Prop :=
  ∀ entry ∈ cache,
    entry.1 = entry.2.set ∧ entry.2.options = options ∧ entry.2.WasCompiled registry

theorem Consistent.after (consistent : cache.Consistent options registry)
    (later : List Operator) : cache.Consistent options (registry.after later) := by
  intro entry member
  obtain ⟨filed, asked, was⟩ := consistent entry member
  exact ⟨filed, asked, was.after later⟩

/-- A look-up compares normal forms, so what it finds has one that is the same. -/
theorem Consistent.of_get? (consistent : cache.Consistent options registry) {set : ConstraintSet}
    {p : CompiledPolicy} (hit : cache.get? set = some p) :
    (p.set == set) = true ∧ p.options = options ∧ p.WasCompiled registry := by
  obtain ⟨key, member, same⟩ := mem_of_get? hit
  obtain ⟨filed, asked, was⟩ := consistent _ member
  exact ⟨filed ▸ same, asked, was⟩

/-- What is compiled through a cache has the normal form that was asked for and is not stale, and
the cache stays consistent. -/
theorem Consistent.compile (consistent : cache.Consistent options registry) {p : CompiledPolicy}
    {next : PolicyCache} (compiled : cache.compile registry policies options = .ok (p, next)) :
    ((p.set == .ofPolicies policies) = true ∧ p.options = options ∧ p.WasCompiled registry) ∧
      p.isStale registry = false ∧ next.Consistent options registry := by
  cases compiles_of_compile compiled with
  | found hit current => exact ⟨consistent.of_get? hit, current, consistent⟩
  | @refreshed old _ hit _ refreshed =>
    obtain ⟨form, asked, was⟩ := consistent.of_get? hit
    have same := was.refresh refreshed
    have was' := CompiledPolicy.wasCompiled_of_compileSet refreshed
    have asked' : p.options = options := same.options.trans asked
    refine ⟨⟨same.set ▸ form, asked', was'⟩, same.current, forall_mem_store consistent
      (fun missing => ?_) fun key other hit' ⟨filed, _⟩ => ?_⟩
    · exact nomatch missing ▸ hit
    -- The new entry takes over the key of the old one, and refreshing keeps the normal form.
    · cases hit.symm.trans hit'
      exact ⟨filed.trans same.set.symm, asked', was'⟩
  | missed missing built =>
    obtain ⟨-, -, -, version, set, -, asked⟩ := CompiledPolicy.compileSet_eq_ok built
    have was := CompiledPolicy.wasCompiled_of_compileSet built
    refine ⟨⟨set ▸ BEq.rfl, asked, was⟩, CompiledPolicy.not_isStale_of_version version,
      forall_mem_store consistent (fun _ => ⟨set.symm, asked, was⟩)
        fun _ _ hit => nomatch missing ▸ hit⟩

/-- Compiling through a cache fails if and only if compiling does, and for the same reason. -/
theorem Consistent.compile_eq_error_iff (consistent : cache.Consistent options registry)
    {e : CompileError} :
    cache.compile registry policies options = .error e ↔
      CompiledPolicy.compile registry policies options = .error e := by
  unfold PolicyCache.compile
  dsimp only
  cases hit : cache.get? (.ofPolicies policies) with
  | none =>
    rw [CompiledPolicy.compile]
    cases CompiledPolicy.compileSet registry policies (.ofPolicies policies) options with
    | error f => simp
    | ok q => exact ⟨nofun, nofun⟩
  | some old =>
    -- Neither fails: the normal form has been compiled before.
    obtain ⟨form, asked, was⟩ := consistent.of_get? hit
    have accepted := was.refusal?_eq_none
    rw [asked, CompiledPolicy.refusal?_of_same form] at accepted
    obtain ⟨q, built⟩ := @CompiledPolicy.exists_of_refusal?_eq_none registry policies _ _ accepted
    obtain ⟨fresh, refreshed, -⟩ := was.exists_refresh
    rw [CompiledPolicy.compile, built]
    dsimp only
    split
    · rw [refreshed]
      exact ⟨nofun, nofun⟩
    · exact ⟨nofun, nofun⟩

end PolicyCache

namespace Engine

/-! ## Engines -/

section
variable [PatternEngine] {engine : Engine}

/-- The cache fits the options and the registry of the engine. -/
def Consistent (engine : Engine) : Prop :=
  engine.cache.Consistent engine.options engine.registry

theorem Consistent.compile (consistent : engine.Consistent) {p : CompiledPolicy} {next : Engine}
    (compiled : engine.compile = .ok (p, next)) :
    ((p.set == .ofPolicies engine.policies) = true ∧ p.options = engine.options ∧
      p.WasCompiled engine.registry) ∧ p.isStale engine.registry = false ∧ next.Consistent := by
  obtain ⟨⟨q, cache⟩, found, same⟩ := map_eq_ok compiled
  obtain ⟨rfl, rfl⟩ := Prod.mk.inj same
  exact PolicyCache.Consistent.compile consistent found

/-- Every command keeps the cache consistent. -/
theorem Consistent.perform (consistent : engine.Consistent) (command : Command) :
    (engine.perform command).Consistent := by
  have compiling : (engine.perform .compile).Consistent := by
    rcases perform_compile engine with failed | ⟨p, compiled⟩
    · rw [failed]
      exact consistent
    · exact (consistent.compile compiled).2.2
  cases command with
  | addPolicy p => exact consistent
  | clearPolicies => exact consistent
  | register op =>
    show ((engine.register op).toOption.getD engine).Consistent
    rw [registry_register]
    exact PolicyCache.Consistent.after consistent [op]
  -- Entries that were compiled with other options do not outlive them.
  | setOptions options => exact fun _ member => absurd member List.not_mem_nil
  | clearCache => exact fun _ member => absurd member List.not_mem_nil
  | compile => exact compiling
  | eval document => exact perform_eval engine document ▸ compiling

theorem Consistent.after (consistent : engine.Consistent) (commands : List Command) :
    (engine.after commands).Consistent := by
  induction commands generalizing engine with
  | nil => exact consistent
  | cons command rest ih => exact ih (consistent.perform command)

/-- Whatever has been done to an engine, compiling through its cache fails if and only if compiling
its policies with its options does, and for the same reason. What it returns is not stale, has the
normal form of the policies, and has the tier that compiling them now would choose, unless that
hangs on how numbers are held. Every entry of the cache is filed under its own normal form. -/
theorem compile_after (registry : Registry) (commands : List Command) :
    let engine := after { registry } commands
    let compiled := CompiledPolicy.compile engine.registry engine.policies engine.options
    (∀ e, engine.compile = .error e ↔ compiled = .error e) ∧
      (∀ p next, engine.compile = .ok (p, next) → p.isStale engine.registry = false ∧
        (p.set == .ofPolicies engine.policies) = true ∧
        (engine.options.AcceptsSame → compiled.map CompiledPolicy.tier = .ok p.tier)) ∧
      ∀ entry ∈ engine.cache, entry.1 = entry.2.set := by
  intro engine compiled
  have start : ({ registry } : Engine).Consistent := fun _ member => absurd member List.not_mem_nil
  have consistent : engine.Consistent := start.after commands
  have fails (e : CompileError) : engine.compile = .error e ↔ compiled = .error e := by
    rw [← PolicyCache.Consistent.compile_eq_error_iff consistent, Engine.compile]
    cases engine.cache.compile engine.registry engine.policies engine.options <;> simp [Except.map]
  refine ⟨fails, fun p next found => ?_, fun entry member => (consistent entry member).1⟩
  obtain ⟨⟨form, asked, was⟩, current, -⟩ := consistent.compile found
  refine ⟨current, form, fun accepts => ?_⟩
  have same : CompiledPolicy.tierFor (.ofPolicies engine.policies) engine.options = p.tier := by
    rw [was.tier, asked, CompiledPolicy.tierFor_of_same accepts form]
  cases built : compiled with
  | error e =>
    rw [(fails e).mpr built] at found
    exact nomatch found
  | ok q => exact congrArg Except.ok ((CompiledPolicy.tier_of_compileSet built).2.trans same)

end

/-- A guarded policy that has been compiled, overtaken by a registration, and is asked for with its
constraints in reversed order. -/
theorem compile_after_of_overtaken :
    let like : Operator := ⟨"like", fun v o => v == o, .any, false⟩
    let unlike : Operator := ⟨"like", fun v o => !(v == o), .any, false⟩
    let role : Policy :=
      .leaf { path := ⟨[.string "role"]⟩, operator := "like", operand := .string "admin" }
    let age (n : Number) : Policy :=
      .leaf { path := ⟨[.string "age"]⟩, operator := ">=", operand := .number n }
    let commands : List Command := [.register like, .addPolicy role, .addPolicy (age (.int 9)),
      .setOptions { ceiling := some .generic, specializer := some inlineSpecializer }, .compile,
      .register unlike, .clearPolicies,
      .addPolicy (age (.float ⟨0x4022000000000000⟩)), .addPolicy role]
    let engine : Engine := after { registry := .builtins } commands
    let set := ConstraintSet.ofPolicies engine.policies
    (engine.cache.get? set).map (·.isStale engine.registry) = some true ∧
      engine.options.AcceptsSame ∧
      ∃ p next, engine.compile = .ok (p, next) ∧ p.isStale engine.registry = false ∧
        (p.set == set) = true ∧ p.tier = .guarded ∧
        (CompiledPolicy.compile engine.registry engine.policies engine.options).map
          CompiledPolicy.tier = .ok p.tier ∧
        ∀ entry ∈ engine.cache, entry.1 = entry.2.set := by
  intro like unlike role age commands engine set
  have stale : (engine.cache.get? set).map (·.isStale engine.registry) = some true := by
    decide +kernel
  have respects : like.RespectsEquality ∧ unlike.RespectsEquality :=
    ⟨Operator.respectsEquality_of_eq (f := id) fun _ _ => rfl,
      Operator.respectsEquality_of_eq (f := not) fun _ _ => rfl⟩
  have allowed : ∀ command ∈ commands, command.Allowed := by
    simp only [commands, List.forall_mem_cons]
    exact ⟨respects.1, trivial, trivial, ⟨.inl rfl, .inr rfl⟩, trivial, respects.2, trivial, trivial,
      trivial, fun _ member => absurd member List.not_mem_nil⟩
  have accepts : engine.options.AcceptsSame :=
    (coherent_after (.inl rfl) allowed).standard.acceptsSame
  have guarded : engine.compile.map (fun found => found.1.tier) = .ok .guarded := by decide +kernel
  obtain ⟨⟨p, next⟩, compiled, tier⟩ := map_eq_ok guarded
  obtain ⟨-, fresh, filed⟩ := compile_after .builtins commands
  obtain ⟨current, form, same⟩ := fresh p next compiled
  exact ⟨stale, accepts, p, next, compiled, current, form, tier, same accepts, filed⟩

/-- The tier is not that of compiling anew where the specializer tells equal normal forms apart. One that
declines doubles is not asked again when an integer has been compiled before. -/
theorem tier_compile_ne :
    let isInteger (c : Constraint) : Bool := c.operand matches .number (.int _)
    let picky : Specializer := fun set =>
      if set.constraintList.all isInteger then inlineSpecializer set else none
    let age (n : Number) : Policy :=
      .leaf { path := ⟨[.string "age"]⟩, operator := ">=", operand := .number n }
    let commands : List Command := [.setOptions { specializer := some picky },
      .addPolicy (age (.int 1152921504606846976)), .compile, .clearPolicies,
      .addPolicy (age (.float ⟨0x43b0000000000000⟩))]
    let engine : Engine := after { registry := .builtins } commands
    ∃ p next, engine.compile = .ok (p, next) ∧ p.tier = .specialized ∧
      (CompiledPolicy.compile engine.registry engine.policies engine.options).map
        CompiledPolicy.tier = .ok .generic := by
  intro isInteger picky age commands engine
  have kept : engine.compile.map (fun found => found.1.tier) = .ok .specialized := by
    decide +kernel
  have anew : (CompiledPolicy.compile engine.registry engine.policies engine.options).map
      CompiledPolicy.tier = .ok .generic := by decide +kernel
  obtain ⟨⟨p, next⟩, compiled, tier⟩ := map_eq_ok kept
  exact ⟨p, next, compiled, tier, anew⟩

end Engine

end ResidualPolicy
