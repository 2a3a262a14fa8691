import ResidualPolicy.Proofs.Plan
import ResidualPolicy.Proofs.Policy.Negation

/-!
# Every tier gives the residual of the interpreter

Compiling chooses among four evaluators. The interpreted tier walks the policies as they were
written. The other three run one plan: with the operands built in or not, the checks judge like the
operators (`ofSet_registeredCheck`, `ofSet_specializedCheck`), and the guard lets the plan run only
while the registry is the one of the compilation, which its version tells.

So a compiled policy returns what interpreting the conjunction of its policies returns by the
registry of the moment, whatever has been registered since the compilation
(`evaluate_compileSet`). Of equal constraints a plan checks one, so the operators of the compilation
must not distinguish equal operands of the policies. Specializers other than the inline one are held
to what they promise (`Specializer.IsFaithful`).
-/

namespace ResidualPolicy

variable {registry : Registry} {set : ConstraintSet} {document : Value}

/-! ## Operators of a normal form -/

namespace ConstraintSet

theorem mem_operators {id : String} :
    id ∈ set.operators ↔ (∃ under ∈ set.constraints, ∃ c ∈ under.2, c.operator = id) ∨
      ∃ p ∈ set.complex, id ∈ p.operatorList := by
  rw [operators, Registry.mem_ofMembers, List.mem_append, List.mem_map, List.mem_flatMap]
  refine or_congr ⟨?_, ?_⟩ Iff.rfl
  · rintro ⟨c, listed, rfl⟩
    obtain ⟨under, member, among⟩ := mem_constraintList.mp listed
    exact ⟨under, member, c, among, rfl⟩
  · rintro ⟨under, member, c, among, rfl⟩
    exact ⟨c, mem_constraintList.mpr ⟨under, member, among⟩, rfl⟩

theorem usesOnly_iff_operators {P : String → Prop} :
    set.UsesOnly P ↔ ∀ id ∈ set.operators, P id := by
  refine ⟨fun uses id used => ?_, fun h => ⟨?_, ?_⟩⟩
  · rcases mem_operators.mp used with ⟨under, member, c, among, rfl⟩ | ⟨p, member, among⟩
    · exact uses.constraints under member c among
    · exact uses.complex p member id among
  · exact fun under member c among => h _ (mem_operators.mpr (.inl ⟨under, member, c, among, rfl⟩))
  · exact fun p member id used => h id (mem_operators.mpr (.inr ⟨p, member, used⟩))

theorem covered_iff_operators :
    set.Covered registry ↔ ∀ id ∈ set.operators, registry.contains id = true :=
  covered_iff_usesOnly.trans usesOnly_iff_operators

theorem covered_of_operators (h : ∀ id ∈ set.operators, registry.contains id = true) :
    Covered registry set :=
  covered_iff_operators.mpr h

theorem Covered.after (covered : set.Covered registry) (later : List Operator) :
    set.Covered (registry.after later) where
  constraints under member c among :=
    Registry.contains_after (covered.constraints under member c among) later
  complex p member id used := Registry.contains_after (covered.complex p member id used) later

theorem isBuiltin_of_mem_operators (h : set.isBuiltinOnly = true) :
    ∀ id ∈ set.operators, isBuiltin id = true := by
  intro id used
  have none := List.isEmpty_iff.mp h
  simpa using List.filter_eq_nil_iff.mp none id used

theorem isBuiltin_of_isBuiltinOnly (h : set.isBuiltinOnly = true) :
    ∀ under ∈ set.constraints, ∀ c ∈ under.2, isBuiltin c.operator = true :=
  fun under member c among =>
    isBuiltin_of_mem_operators h _ (mem_operators.mpr (.inl ⟨under, member, c, among, rfl⟩))

/-- Where the built-in operators are registered, no others are needed. -/
theorem covered_of_isBuiltinOnly [PatternEngine] (builtins : registry.HasBuiltins)
    (h : set.isBuiltinOnly = true) :
    set.Covered registry := by
  refine covered_of_operators fun id used => ?_
  obtain ⟨builtin, rfl⟩ := exists_of_isBuiltin (isBuiltin_of_mem_operators h id used)
  exact Registry.contains_of_find? (builtins builtin)

end ConstraintSet

/-! ## Plans -/

namespace Plan

/-- The operators of a registry judge the constraints of a plan. -/
theorem ofSet_registeredCheck (covered : set.Covered registry) :
    ofSet (registeredCheck registry) set = .ok (ofFiled registry.judge set.constraints) := by
  refine ofSet_eq_ofFiled fun under member c among => ?_
  obtain ⟨op, registered⟩ := Registry.find?_of_contains (covered.constraints under member c among)
  rw [registeredCheck, Registry.lookup_eq_ok.mpr registered]
  refine congrArg Except.ok (funext fun found => ?_)
  rw [Registry.judge, registered, Option.any_some]

/-- Building the operands in does not change the plan. -/
theorem ofSet_specializedCheck [PatternEngine] (complete : registry.Complete)
    (covered : set.Covered registry) (builtin : set.isBuiltinOnly = true) :
    ofSet specializedCheck set = .ok (ofFiled registry.judge set.constraints) := by
  refine ofSet_eq_ofFiled fun under member c among => ?_
  have own := ConstraintSet.isBuiltin_of_isBuiltinOnly builtin under member c among
  have all := Constraint.hasBuiltins_of_known complete
    (covered.constraints under member c among) own
  obtain ⟨a, named⟩ := exists_of_isBuiltin own
  have special : specialize? c.operator c.operand = some (a.check c.operand) := by
    rw [specialize?, ← named, Builtin.ofId?_id]
    rfl
  rw [specializedCheck, special]
  refine congrArg Except.ok (funext fun found => ?_)
  rw [Registry.judge, ← named, all a, Option.any_some, Builtin.check_eq_holds]
  rfl

end Plan

section

variable [PatternEngine]

/-- The options under which every evaluator comes from the policies: the fallback interprets them or
is ruled out, and operands are built in or not. -/
structure CompileOptions.IsStandard (options : CompileOptions) : Prop where
  fallback : options.fallback = .synthesized ∨ options.fallback = .disabled
  specializer : options.specializer = none ∨ options.specializer = some inlineSpecializer

/-- What a specializer promises about constraints on built-in operators, which is all that it is
asked for: its evaluators return what checking them by the registered operators returns. -/
def Specializer.IsFaithful (specialize : Specializer) : Prop :=
  ∀ (set : ConstraintSet) (evaluator : Evaluator), specialize set = some evaluator →
    set.complex = [] → set.isBuiltinOnly = true →
      ∀ registry : Registry, registry.Complete → set.Covered registry →
        ∀ document, evaluator registry document =
          .ok ((Plan.ofFiled registry.judge set.constraints).run document)

theorem inlineSpecializer_isFaithful : Specializer.IsFaithful inlineSpecializer := by
  intro set evaluator special _ builtin registry complete covered document
  unfold inlineSpecializer at special
  split at special
  · exact nomatch special
  · rw [Plan.ofSet_specializedCheck complete covered builtin] at special
    rw [← Option.some.inj special]
    rfl

/-- Constraints on built-in operators are accepted by the inline specializer. -/
theorem isSome_inlineSpecializer (flat : set.hasComplex = false)
    (builtin : set.isBuiltinOnly = true) : (inlineSpecializer set).isSome = true := by
  have covered := ConstraintSet.covered_of_isBuiltinOnly Registry.hasBuiltins_builtins builtin
  have complete : Registry.builtins.Complete := Registry.IsInitial.complete (.inl rfl)
  rw [inlineSpecializer, flat, Plan.ofSet_specializedCheck complete covered builtin]
  rfl

/-- The options under which every evaluator is as good as one that comes from the policies: the
fallback interprets them or is ruled out, and the specializer keeps its promise. -/
structure CompileOptions.IsFaithful (options : CompileOptions) : Prop where
  fallback : options.fallback = .synthesized ∨ options.fallback = .disabled
  specializer : ∀ specialize ∈ options.specializer, specialize.IsFaithful

theorem CompileOptions.IsStandard.isFaithful {options : CompileOptions}
    (standard : options.IsStandard) : options.IsFaithful where
  fallback := standard.fallback
  specializer specialize asked := by
    rcases standard.specializer with none | inline
    · rw [none] at asked
      exact nomatch asked
    · rw [inline] at asked
      exact Option.some.inj asked ▸ inlineSpecializer_isFaithful

end

namespace CompiledPolicy

/-! ## What compiling chooses -/

/-- The ways to choose tier and evaluator. -/
inductive Chosen (registry : Registry) (policies : List Policy) (set : ConstraintSet)
    (options : CompileOptions) (fallback : Option Evaluator) : Tier × Evaluator → Prop where
  | interpreted : Chosen registry policies set options fallback (.interpreted, interpret policies)
  | guarded {fast : Evaluator} (flat : set.complex = [])
      (generic : genericEvaluator registry set = .ok fast) :
      Chosen registry policies set options fallback
        (.guarded, guard registry.version fast (fallback.getD (interpret policies)))
  | specialized {evaluator : Evaluator} (flat : set.complex = [])
      (builtin : set.isBuiltinOnly = true)
      (special : options.specializer.bind (fun specialize => specialize set) = some evaluator) :
      Chosen registry policies set options fallback (.specialized, evaluator)
  | generic {evaluator : Evaluator} (flat : set.complex = []) (builtin : set.isBuiltinOnly = true)
      (generic : genericEvaluator registry set = .ok evaluator) :
      Chosen registry policies set options fallback (.generic, evaluator)

variable {policies : List Policy} {options : CompileOptions} {fallback : Option Evaluator}

theorem chosen_of_choose {choice : Tier × Evaluator}
    (h : choose registry policies set options fallback = .ok choice) :
    Chosen registry policies set options fallback choice := by
  unfold choose at h
  dsimp only at h
  split at h
  · rw [← Except.ok.inj h]
    exact .interpreted
  · next flat =>
    rw [Bool.or_eq_true, not_or, ConstraintSet.hasComplex] at flat
    have flat : set.complex = [] := by simpa using flat.1
    split at h
    · obtain ⟨fast, generic, h⟩ := bind_eq_ok h
      rw [← Except.ok.inj h]
      exact .guarded flat generic
    · next builtin =>
      rw [Bool.or_eq_true, not_or] at builtin
      have builtin : set.isBuiltinOnly = true := by simpa using builtin.1
      split at h
      · next evaluator special =>
        rw [← Except.ok.inj h]
        refine .specialized flat builtin ?_
        unfold specializedEvaluator? at special
        split at special
        · exact special
        · exact nomatch special
      · obtain ⟨evaluator, generic, h⟩ := bind_eq_ok h
        rw [← Except.ok.inj h]
        exact .generic flat builtin generic

/-- All that a successful compilation does. -/
theorem compileSet_eq_ok {p : CompiledPolicy}
    (h : compileSet registry policies set options = .ok p) :
    (∀ id ∈ set.operators, registry.contains id = true) ∧
      fallbackOf policies set options.fallback = .ok p.fallback ∧
      Chosen registry policies set options p.fallback (p.tier, p.evaluator) ∧
      p.version = registry.version ∧ p.set = set ∧ p.policies = policies ∧ p.options = options := by
  obtain ⟨_, checked, h⟩ := bind_eq_ok h
  obtain ⟨fallback, fell, h⟩ := bind_eq_ok h
  obtain ⟨⟨tier, evaluator⟩, chosen, h⟩ := bind_eq_ok h
  rw [← Except.ok.inj h]
  refine ⟨fun id used => ?_, fell, chosen_of_choose chosen, rfl, rfl, rfl, rfl⟩
  unfold checkOperators at checked
  split at checked
  · exact nomatch checked
  · next none => simpa using List.find?_eq_none.mp none id used

/-! ## Evaluation -/

/-- Two registries judge alike by the operators of a normal form. -/
def JudgeAlike (registry other : Registry) (set : ConstraintSet) : Prop :=
  ∀ under ∈ set.constraints, ∀ c ∈ under.2, ∀ d : Constraint, d.operator = c.operator →
    registry.judge d = other.judge d

theorem judgeAlike_self (registry : Registry) (set : ConstraintSet) :
    JudgeAlike registry registry set := fun _ _ _ _ _ _ => rfl

theorem evaluator_of_generic {fast : Evaluator} (covered : set.Covered registry)
    (h : genericEvaluator registry set = .ok fast) :
    fast = (Plan.ofFiled registry.judge set.constraints).evaluator := by
  rw [genericEvaluator, Plan.ofSet_registeredCheck covered] at h
  exact (Except.ok.inj h).symm

section

variable [PatternEngine]

/-- Built-in operators judge alike in all registries. -/
theorem judgeAlike_of_builtinOnly {other : Registry} (complete : registry.Complete)
    (covered : set.Covered registry) (complete' : other.Complete) (covered' : set.Covered other)
    (builtin : set.isBuiltinOnly = true) : JudgeAlike registry other set := by
  intro under member c among d same
  have own := ConstraintSet.isBuiltin_of_isBuiltinOnly builtin under member c among
  have all := Constraint.hasBuiltins_of_known complete
    (covered.constraints under member c among) own
  have all' := Constraint.hasBuiltins_of_known complete'
    (covered'.constraints under member c among) own
  exact Registry.judge_of_builtin all all' (same ▸ own)

/-- A plan runs like the interpreter, if its registry judges like the interpreter's and does not
distinguish operands of the policies that are equal. -/
theorem interpret_eq_run {other : Registry} {policies : List Policy}
    (flat : (ConstraintSet.ofPolicies policies).complex = []) (complete : registry.Complete)
    (covered : (ConstraintSet.ofPolicies policies).Covered registry)
    (respects : other.RespectsOperands (Policy.conjunction policies).operandList)
    (alike : JudgeAlike registry other (.ofPolicies policies)) (fit : document.ArraysFit) :
    interpret policies registry document =
      .ok ((Plan.ofFiled other.judge
        (ConstraintSet.ofPolicies policies).constraints).run document) := by
  -- Both sides are the conjunction of the constraints that were added, in the order of adding.
  rw [ConstraintSet.ofPolicies_eq] at flat covered alike ⊢
  obtain ⟨cs, added, own, amounts⟩ := ConstraintSet.flat_addUnder flat
  rw [added] at covered alike ⊢
  obtain ⟨-, known⟩ := @ConstraintSet.operators_foldl_addConstraint
    (registry.contains · = true) cs .empty covered.constraints
  obtain ⟨-, judged⟩ := @ConstraintSet.operators_foldl_addConstraint
    (fun id => ∀ d : Constraint, d.operator = id → registry.judge d = other.judge d) cs .empty alike
  have residuals : cs.map (Constraint.residual registry.judge document) =
      cs.map (Constraint.residual other.judge document) := by
    refine List.map_congr_left fun c member => ?_
    rw [Constraint.residual, Constraint.residual, judged c member c rfl]
  rw [ConstraintSet.run_registered respects fit own, ← residuals]
  exact amounts registry complete known document

/-- The interpreter does not fail on policies whose operators are all registered. -/
theorem interpret_ok {policies : List Policy} (complete : registry.Complete)
    (covered : (ConstraintSet.ofPolicies policies).Covered registry) (document : Value) :
    ∃ r, interpret policies registry document = .ok r := by
  rw [ConstraintSet.ofPolicies_eq] at covered
  exact Policy.evaluateAt_ok (ConstraintSet.covered_addUnder complete covered).2 _ _ _

theorem fallback_interprets {options : CompileOptions} (faithful : options.IsFaithful)
    {fallback : Option Evaluator} (h : fallbackOf policies set options.fallback = .ok fallback) :
    fallback.getD (interpret policies) = interpret policies := by
  rcases faithful.fallback with chosen | chosen
  · rw [chosen] at h
    rw [← Except.ok.inj h]
    rfl
  · rw [chosen, fallbackOf] at h
    split at h
    · rw [← Except.ok.inj h]
      rfl
    · exact nomatch h

theorem evaluate_of_special {options : CompileOptions} (faithful : options.IsFaithful)
    {evaluator : Evaluator}
    (h : options.specializer.bind (fun specialize => specialize set) = some evaluator)
    (flat : set.complex = []) (builtin : set.isBuiltinOnly = true) (complete : registry.Complete)
    (covered : set.Covered registry) (document : Value) :
    evaluator registry document =
      .ok ((Plan.ofFiled registry.judge set.constraints).run document) := by
  obtain ⟨specialize, asked, special⟩ := Option.bind_eq_some_iff.mp h
  exact faithful.specializer specialize asked set evaluator special flat builtin registry complete
    covered document

/-- What a compiled policy does by a later registry: it interprets its policies, or it runs the plan
of the compilation, whose operators judge as they did then. -/
theorem evaluate_cases (complete : registry.Complete) {policies : List Policy}
    {options : CompileOptions} (faithful : options.IsFaithful) {p : CompiledPolicy}
    (compiled : compileSet registry policies set options = .ok p) (later : List Operator)
    (document : Value) :
    p.evaluate (registry.after later) document =
        interpret policies (registry.after later) document ∨
      set.complex = [] ∧ JudgeAlike (registry.after later) registry set ∧
        p.evaluate (registry.after later) document =
          .ok ((Plan.ofFiled registry.judge set.constraints).run document) := by
  obtain ⟨known, fell, chosen, -⟩ := compileSet_eq_ok compiled
  have covered := ConstraintSet.covered_of_operators known
  have covered' := covered.after later
  have complete' := complete.after later
  have alike (builtin : set.isBuiltinOnly = true) :=
    judgeAlike_of_builtinOnly complete' covered' complete covered builtin
  rw [evaluate]
  generalize choice : (p.tier, p.evaluator) = c at chosen
  cases chosen with
  | interpreted =>
    rw [(Prod.mk.inj choice).2]
    exact .inl rfl
  | guarded flat generic =>
    rw [(Prod.mk.inj choice).2, fallback_interprets faithful fell, guard]
    split
    · next version =>
      -- The guard holds, so the registry is still the one of the compilation.
      rw [Registry.after_eq_of_version_eq (beq_iff_eq.mp version),
        evaluator_of_generic covered generic]
      exact .inr ⟨flat, judgeAlike_self _ _, rfl⟩
    · exact .inl rfl
  | specialized flat builtin special =>
    have plans := Plan.ofFiled_congr fun under member c among =>
      alike builtin under member c among c rfl
    rw [(Prod.mk.inj choice).2,
      evaluate_of_special faithful special flat builtin complete' covered' document, plans]
    exact .inr ⟨flat, alike builtin, rfl⟩
  | generic flat builtin generic =>
    rw [(Prod.mk.inj choice).2, evaluator_of_generic covered generic]
    exact .inr ⟨flat, alike builtin, rfl⟩

/-- A compiled policy returns what the interpreter returns for its policies by the registry of the
moment, if the registry of the compilation does not distinguish operands of the policies that are
equal. -/
theorem evaluate_compileSet_of_respects (complete : registry.Complete) {policies : List Policy}
    (respects : registry.RespectsOperands (Policy.conjunction policies).operandList)
    {options : CompileOptions} (faithful : options.IsFaithful) {p : CompiledPolicy}
    (compiled : compileSet registry policies (.ofPolicies policies) options = .ok p)
    (later : List Operator) (fit : document.ArraysFit) :
    ∃ r, p.evaluate (registry.after later) document = .ok r ∧
      (Policy.conjunction policies).evaluate (registry.after later) document = .ok r := by
  have covered := (ConstraintSet.covered_of_operators (compileSet_eq_ok compiled).1).after later
  -- The interpreter always returns, so agreeing with it is enough.
  obtain ⟨r, returned⟩ := interpret_ok (complete.after later) covered document
  refine ⟨r, .trans ?_ returned, returned⟩
  rcases evaluate_cases complete faithful compiled later document with same | ⟨flat, alike, ran⟩
  · exact same
  · rw [ran, interpret_eq_run flat (complete.after later) covered respects alike fit]

/-- A compiled policy returns what the interpreter returns for its policies by the registry of the
moment. -/
theorem evaluate_compileSet (complete : registry.Complete) (lawful : registry.Lawful)
    {policies : List Policy} {options : CompileOptions} (standard : options.IsStandard)
    {p : CompiledPolicy}
    (compiled : compileSet registry policies (.ofPolicies policies) options = .ok p)
    (later : List Operator) (fit : document.ArraysFit) :
    ∃ r, p.evaluate (registry.after later) document = .ok r ∧
      (Policy.conjunction policies).evaluate (registry.after later) document = .ok r :=
  evaluate_compileSet_of_respects complete (lawful.respectsOperands _) standard.isFaithful compiled
    later fit

/-- All tiers give the residual of the interpreter: a policy compiled by a registry that has grown
from an initial one returns, after any further registrations, what interpreting the conjunction of
its policies returns. -/
theorem evaluate_compile {start : Registry} (initial : start.IsInitial) {before : List Operator}
    (respects : ∀ op ∈ before, op.RespectsEquality) {policies : List Policy}
    {options : CompileOptions} (standard : options.IsStandard) {p : CompiledPolicy}
    (compiled : compile (start.after before) policies options = .ok p) (later : List Operator)
    {document : Value} (fit : document.ArraysFit) :
    ∃ r, p.evaluate ((start.after before).after later) document = .ok r ∧
      (Policy.conjunction policies).evaluate ((start.after before).after later) document = .ok r :=
  evaluate_compileSet (initial.complete.after before) (initial.lawful.after respects) standard
    compiled later fit

end

/-- A guarded policy on a custom operator that is replaced after the compilation. -/
theorem evaluate_compile_of_replaced :
    let like : Operator := ⟨"like", fun v o => v == o, .any, false⟩
    let unlike : Operator := ⟨"like", fun v o => !(v == o), .any, false⟩
    let role : Constraint :=
      { path := ⟨[.string "role"]⟩, operator := "like", operand := .string "admin" }
    let team : Constraint :=
      { path := ⟨[.string "team"]⟩, operator := "=", operand := .string "ops" }
    let options : CompileOptions := { specializer := some inlineSpecializer }
    let document : Value := .object [(.string "role", .string "admin")]
    Registry.builtins.IsInitial ∧ (∀ op ∈ [like], op.RespectsEquality) ∧ options.IsStandard ∧
      document.ArraysFit ∧
      ∃ p, compile (Registry.builtins.after [like]) [.leaf role, .leaf team] options = .ok p ∧
        p.tier = .guarded ∧
        ∃ r, p.evaluate ((Registry.builtins.after [like]).after [unlike]) document = .ok r ∧
          (Policy.conjunction [.leaf role, .leaf team]).evaluate
            ((Registry.builtins.after [like]).after [unlike]) document = .ok r := by
  intro like unlike role team options document
  have initial : Registry.builtins.IsInitial := .inl rfl
  have respects : ∀ op ∈ [like], op.RespectsEquality :=
    List.forall_mem_singleton.mpr (Operator.respectsEquality_of_eq (f := id) fun _ _ => rfl)
  have standard : options.IsStandard := ⟨.inl rfl, .inr rfl⟩
  have fit : document.ArraysFit :=
    Value.arraysFit_object (List.forall_mem_singleton.mpr (Value.arraysFit_string "admin"))
  have guarded : (compile (Registry.builtins.after [like]) [.leaf role, .leaf team]
      options).map CompiledPolicy.tier = .ok .guarded := by decide +kernel
  obtain ⟨p, compiled, tier⟩ := map_eq_ok guarded
  exact ⟨initial, respects, standard, fit, p, compiled, tier,
    evaluate_compile initial respects standard compiled [unlike] fit⟩

end CompiledPolicy

end ResidualPolicy
