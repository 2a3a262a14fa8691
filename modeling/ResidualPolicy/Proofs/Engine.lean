import Mathlib.Data.List.Induction
import ResidualPolicy.Engine
import ResidualPolicy.Proofs.Compilation
import ResidualPolicy.Proofs.Sameness

/-!
# What an engine remembers

An engine files what it has compiled under the normal form of its policies, and a list with the same
normal form gets what was compiled from the first one. So an evaluation returns the residual of a
list of policies that the engine has held at some time, by the registry of the moment. `Coherent`
is the invariant behind this.

This list need not be the present one. If nothing in the normal form is complex, both give the same
residual (`interpret_same`). Otherwise the two may be in conflict with the document over different
constraints: the normal form files constraints apart from the complex parts, and of two violations
at the same path the one that is written first is reported.
-/

namespace ResidualPolicy

/-! ## Compiled policies that are kept -/

/-- A policy compiled from the normal form of its own list, by a registry that has grown into the
present one. -/
structure CompiledPolicy.IsKept [PatternEngine] (p : CompiledPolicy) (registry : Registry) : Prop where
  standard : p.options.IsStandard
  normal : p.set = .ofPolicies p.policies
  compiled : ∃ (earlier : Registry) (later : List Operator), earlier.Complete ∧ earlier.Lawful ∧
    registry = earlier.after later ∧ compileSet earlier p.policies p.set p.options = .ok p

namespace CompiledPolicy

variable [PatternEngine] {registry : Registry} {p : CompiledPolicy}

/-- What has just been compiled from a list of policies. -/
theorem isKept_of_compileSet (complete : registry.Complete) (lawful : registry.Lawful)
    {policies : List Policy} {options : CompileOptions} (standard : options.IsStandard)
    (compiled : compileSet registry policies (.ofPolicies policies) options = .ok p) :
    p.IsKept registry ∧ p.policies = policies := by
  obtain ⟨-, -, -, -, set, own, asked⟩ := compileSet_eq_ok compiled
  refine ⟨⟨asked ▸ standard, ?_, registry, [], complete, lawful, rfl, ?_⟩, own⟩
  · rw [set, own]
  · rw [own, set, asked]
    exact compiled

/-- Refreshing does not change the list that a policy is compiled from. -/
theorem IsKept.refresh (kept : p.IsKept registry) (complete : registry.Complete)
    (lawful : registry.Lawful) {fresh : CompiledPolicy} (h : p.refresh registry = .ok fresh) :
    fresh.IsKept registry ∧ fresh.policies = p.policies := by
  rw [CompiledPolicy.refresh, kept.normal] at h
  exact isKept_of_compileSet complete lawful kept.standard h

theorem IsKept.attempt (kept : p.IsKept registry) (op : Operator) :
    p.IsKept (registry.attempt op) := by
  obtain ⟨earlier, later, complete, lawful, rfl, compiled⟩ := kept.compiled
  exact ⟨kept.standard, kept.normal, earlier, later ++ [op], complete, lawful,
    (Registry.after_append earlier later [op]).symm, compiled⟩

/-- The operators of a kept policy are registered. -/
theorem IsKept.contains (kept : p.IsKept registry) {id : String} (used : id ∈ p.set.operators) :
    registry.contains id = true := by
  obtain ⟨earlier, later, -, -, rfl, compiled⟩ := kept.compiled
  exact Registry.contains_after ((compileSet_eq_ok compiled).1 id used) later

/-- A kept policy returns what interpreting its own list returns. -/
theorem IsKept.evaluate (kept : p.IsKept registry) {document : Value} (fit : document.ArraysFit) :
    ∃ r, p.evaluate registry document = .ok r ∧
      (Policy.conjunction p.policies).evaluate registry document = .ok r := by
  obtain ⟨earlier, later, complete, lawful, rfl, compiled⟩ := kept.compiled
  rw [kept.normal] at compiled
  exact evaluate_compileSet complete lawful kept.standard compiled later fit

end CompiledPolicy

namespace PolicyCache

/-- Every entry is kept under its normal form and comes from a list of policies that was held. -/
def Coherent [PatternEngine] (held : List Policy → Prop) (registry : Registry)
    (cache : PolicyCache) : Prop :=
  ∀ entry ∈ cache, entry.1 = entry.2.set ∧ entry.2.IsKept registry ∧ held entry.2.policies

variable {held : List Policy → Prop} {registry : Registry} {cache : PolicyCache}

theorem get?_cons (key : ConstraintSet) (old : CompiledPolicy) (rest : PolicyCache)
    (set : ConstraintSet) :
    get? ((key, old) :: rest) set = if key == set then some old else get? rest set := by
  unfold get?
  rw [List.find?_cons]
  cases (key == set) <;> rfl

theorem mem_of_get? {set : ConstraintSet} {p : CompiledPolicy} (h : cache.get? set = some p) :
    ∃ key, (key, p) ∈ cache ∧ (key == set) = true := by
  induction cache with
  | nil => exact nomatch h
  | cons entry rest ih =>
    obtain ⟨key, old⟩ := entry
    rw [get?_cons] at h
    split at h
    · next same =>
      rw [← Option.some.inj h]
      exact ⟨key, List.mem_cons_self .., same⟩
    · obtain ⟨key, member, same⟩ := ih h
      exact ⟨key, List.mem_cons_of_mem _ member, same⟩

/-- Storing replaces what a look-up finds, or adds an entry if it finds nothing. -/
theorem mem_store {set : ConstraintSet} {p : CompiledPolicy}
    {entry : ConstraintSet × CompiledPolicy} (h : entry ∈ cache.store set p) :
    entry ∈ cache ∨ (cache.get? set = none ∧ entry = (set, p)) ∨
      ∃ key old, cache.get? set = some old ∧ (key, old) ∈ cache ∧ entry = (key, p) := by
  induction cache with
  | nil => exact .inr (.inl ⟨rfl, List.mem_singleton.mp h⟩)
  | cons first rest ih =>
    obtain ⟨key, old⟩ := first
    rw [store] at h
    rw [get?_cons]
    split at h
    · next same =>
      rw [if_pos same]
      rcases List.mem_cons.mp h with here | later
      · exact .inr (.inr ⟨key, old, rfl, List.mem_cons_self .., here⟩)
      · exact .inl (List.mem_cons_of_mem _ later)
    · next other =>
      rw [if_neg other]
      rcases List.mem_cons.mp h with here | later
      · exact .inl (here ▸ List.mem_cons_self ..)
      · rcases ih later with before | added | ⟨key, old, found, member, replaced⟩
        · exact .inl (List.mem_cons_of_mem _ before)
        · exact .inr (.inl added)
        · exact .inr (.inr ⟨key, old, found, List.mem_cons_of_mem _ member, replaced⟩)

/-- What is true of all entries stays true when an entry is added or replaced by one like it. -/
theorem forall_mem_store {P : ConstraintSet × CompiledPolicy → Prop} (all : ∀ entry ∈ cache, P entry)
    {set : ConstraintSet} {p : CompiledPolicy} (added : cache.get? set = none → P (set, p))
    (replaced : ∀ key old, cache.get? set = some old → P (key, old) → P (key, p)) :
    ∀ entry ∈ cache.store set p, P entry := by
  intro entry stored
  rcases mem_store stored with member | ⟨missing, rfl⟩ | ⟨key, old, found, member, rfl⟩
  · exact all entry member
  · exact added missing
  · exact replaced key old found (all _ member)

/-- The ways to compile through a cache. -/
inductive Compiles (cache : PolicyCache) (registry : Registry) (policies : List Policy)
    (options : CompileOptions) : CompiledPolicy × PolicyCache → Prop where
  | found {p : CompiledPolicy} (hit : cache.get? (.ofPolicies policies) = some p)
      (current : p.isStale registry = false) :
      Compiles cache registry policies options (p, cache)
  | refreshed {old p : CompiledPolicy} (hit : cache.get? (.ofPolicies policies) = some old)
      (stale : old.isStale registry = true) (refreshed : old.refresh registry = .ok p) :
      Compiles cache registry policies options (p, cache.store (.ofPolicies policies) p)
  | missed {p : CompiledPolicy} (missing : cache.get? (.ofPolicies policies) = none)
      (built : CompiledPolicy.compile registry policies options = .ok p) :
      Compiles cache registry policies options (p, cache.store (.ofPolicies policies) p)

theorem compiles_of_compile {policies : List Policy} {options : CompileOptions}
    {result : CompiledPolicy × PolicyCache}
    (compiled : cache.compile registry policies options = .ok result) :
    Compiles cache registry policies options result := by
  unfold PolicyCache.compile at compiled
  dsimp only at compiled
  split at compiled
  · next old hit =>
    split at compiled
    · next stale =>
      obtain ⟨fresh, refreshed, compiled⟩ := bind_eq_ok compiled
      rw [← Except.ok.inj compiled]
      exact .refreshed hit stale refreshed
    · next current =>
      rw [← Except.ok.inj compiled]
      exact .found hit (Bool.eq_false_iff.mpr current)
  · next missing =>
    obtain ⟨fresh, built, compiled⟩ := bind_eq_ok compiled
    rw [← Except.ok.inj compiled]
    exact .missed missing built

/-- All that compiling through a cache does: what it returns is kept under the same normal form, and
the cache stays coherent. -/
theorem Coherent.compile [PatternEngine] (coherent : Coherent held registry cache)
    (complete : registry.Complete)
    (lawful : registry.Lawful) {policies : List Policy} (holds : held policies)
    {options : CompileOptions} (standard : options.IsStandard) {p : CompiledPolicy}
    {next : PolicyCache} (compiled : cache.compile registry policies options = .ok (p, next)) :
    p.IsKept registry ∧ held p.policies ∧ (p.set == .ofPolicies policies) = true ∧
      Coherent held registry next := by
  -- An entry is filed under its own normal form, which the look-up has compared.
  have entry {old : CompiledPolicy} (hit : cache.get? (.ofPolicies policies) = some old) :
      (old.set == ConstraintSet.ofPolicies policies) = true ∧ old.IsKept registry ∧
        held old.policies := by
    obtain ⟨key, member, same⟩ := mem_of_get? hit
    obtain ⟨filed, kept, before⟩ := coherent _ member
    exact ⟨filed ▸ same, kept, before⟩
  cases compiles_of_compile compiled with
  | found hit =>
    obtain ⟨form, kept, before⟩ := entry hit
    exact ⟨kept, before, form, coherent⟩
  | @refreshed old _ hit _ refreshed =>
    obtain ⟨form, kept, before⟩ := entry hit
    obtain ⟨kept', own⟩ := kept.refresh complete lawful refreshed
    -- Refreshing compiles the list of the entry again, not the list that asks for it.
    have unchanged : p.set = old.set := by rw [kept'.normal, kept.normal, own]
    have holds' : held p.policies := own ▸ before
    refine ⟨kept', holds', unchanged ▸ form, forall_mem_store coherent (fun missing => ?_)
      fun key other hit' ⟨filed, _⟩ => ?_⟩
    · exact nomatch missing ▸ hit
    · cases hit.symm.trans hit'
      exact ⟨filed.trans unchanged.symm, kept', holds'⟩
  | missed missing built =>
    obtain ⟨kept, own⟩ := CompiledPolicy.isKept_of_compileSet complete lawful standard built
    have form : p.set = .ofPolicies policies := by rw [kept.normal, own]
    have holds' : held p.policies := own ▸ holds
    refine ⟨kept, holds', form ▸ BEq.rfl, forall_mem_store coherent (fun _ => ?_)
      fun _ _ hit => nomatch missing ▸ hit⟩
    exact ⟨form.symm, kept, holds'⟩

end PolicyCache

namespace Engine

/-! ## Histories -/

/-- What can be done to an engine. -/
inductive Command where
  | addPolicy (p : Policy)
  | clearPolicies
  | register (op : Operator)
  | setOptions (options : CompileOptions)
  | clearCache
  | compile
  | eval (document : Value)

section

variable [PatternEngine]

/-- Registered predicates do not distinguish equal values, and evaluators come from the policies. -/
def Command.Allowed : Command → Prop
  | .register op => op.RespectsEquality
  | .setOptions options => options.IsStandard
  | _ => True

/-- The engine after a command. A command that fails changes nothing. -/
def perform (engine : Engine) : Command → Engine
  | .addPolicy p => engine.addPolicy p
  | .clearPolicies => engine.clearPolicies
  | .register op => (engine.register op).toOption.getD engine
  | .setOptions options => engine.setOptions options
  | .clearCache => engine.clearCache
  | .compile => (engine.compile.map Prod.snd).toOption.getD engine
  | .eval document => ((engine.eval document).map Prod.snd).toOption.getD engine

/-- The engine after several commands. -/
def after (engine : Engine) (commands : List Command) : Engine :=
  commands.foldl perform engine

/-- What is true of an engine at all times. -/
structure Coherent (held : List Policy → Prop) (engine : Engine) : Prop where
  complete : engine.registry.Complete
  lawful : engine.registry.Lawful
  standard : engine.options.IsStandard
  cache : engine.cache.Coherent held engine.registry

end

section
variable [PatternEngine] {held : List Policy → Prop} {engine : Engine}

/-- What is compiled comes from a list of policies that was held and has the same normal form. -/
theorem Coherent.compile (coherent : engine.Coherent held) (holds : held engine.policies)
    {p : CompiledPolicy} {next : Engine} (compiled : engine.compile = .ok (p, next)) :
    (p.IsKept engine.registry ∧ held p.policies ∧
      (p.set == .ofPolicies engine.policies) = true) ∧ next.Coherent held := by
  obtain ⟨⟨q, cache⟩, found, same⟩ := map_eq_ok compiled
  obtain ⟨rfl, rfl⟩ := Prod.mk.inj same
  obtain ⟨kept, before, form, remembered⟩ :=
    coherent.cache.compile coherent.complete coherent.lawful holds coherent.standard found
  exact ⟨⟨kept, before, form⟩, coherent.complete, coherent.lawful, coherent.standard, remembered⟩

theorem registry_of_compile {p : CompiledPolicy} {next : Engine}
    (compiled : engine.compile = .ok (p, next)) : next.registry = engine.registry := by
  obtain ⟨⟨q, cache⟩, -, same⟩ := map_eq_ok compiled
  rw [← (Prod.mk.inj same).2]

theorem registry_register (engine : Engine) (op : Operator) :
    (engine.register op).toOption.getD engine =
      { engine with registry := engine.registry.attempt op } := by
  unfold register Registry.attempt
  cases engine.registry.register op <;> rfl

/-- What an engine is after compiling: itself, if that fails, and else what comes with the result. -/
theorem perform_compile (engine : Engine) :
    engine.perform .compile = engine ∨ ∃ p, engine.compile = .ok (p, engine.perform .compile) := by
  show (engine.compile.map Prod.snd).toOption.getD engine = engine ∨
    ∃ p, engine.compile = .ok (p, (engine.compile.map Prod.snd).toOption.getD engine)
  cases engine.compile with
  | error e => exact .inl rfl
  | ok result => exact .inr ⟨result.1, rfl⟩

/-- Evaluating changes an engine in the same way as compiling. -/
theorem perform_eval (engine : Engine) (document : Value) :
    engine.perform (.eval document) = engine.perform .compile := by
  show ((engine.eval document).map Prod.snd).toOption.getD engine =
    (engine.compile.map Prod.snd).toOption.getD engine
  rw [eval]
  cases engine.compile <;> rfl

/-- Every command keeps an engine coherent. -/
theorem Coherent.perform (coherent : engine.Coherent held) (holds : held engine.policies)
    {command : Command} (allowed : command.Allowed) : (engine.perform command).Coherent held := by
  have compiling : (engine.perform .compile).Coherent held := by
    rcases perform_compile engine with failed | ⟨p, compiled⟩
    · rw [failed]
      exact coherent
    · exact (coherent.compile holds compiled).2
  obtain ⟨complete, lawful, standard, cache⟩ := coherent
  cases command with
  | addPolicy p => exact ⟨complete, lawful, standard, cache⟩
  | clearPolicies => exact ⟨complete, lawful, standard, cache⟩
  | register op =>
    show ((engine.register op).toOption.getD engine).Coherent held
    rw [registry_register]
    refine ⟨complete.after [op], lawful.after (List.forall_mem_singleton.mpr allowed), standard,
      fun entry member => ?_⟩
    -- One more registration lies between the compilation and the present.
    obtain ⟨filed, kept, before⟩ := cache entry member
    exact ⟨filed, kept.attempt op, before⟩
  | setOptions options =>
    exact ⟨complete, lawful, allowed, fun _ member => absurd member List.not_mem_nil⟩
  | clearCache =>
    exact ⟨complete, lawful, standard, fun _ member => absurd member List.not_mem_nil⟩
  | compile => exact compiling
  | eval document => exact perform_eval engine document ▸ compiling

theorem Coherent.mono {other : List Policy → Prop} (coherent : engine.Coherent held)
    (h : ∀ policies, held policies → other policies) : engine.Coherent other where
  complete := coherent.complete
  lawful := coherent.lawful
  standard := coherent.standard
  cache entry member := by
    obtain ⟨filed, kept, before⟩ := coherent.cache entry member
    exact ⟨filed, kept, h _ before⟩

/-- A list of policies that an engine has held in the course of some commands. -/
def Held (engine : Engine) (commands : List Command) (policies : List Policy) : Prop :=
  ∃ earlier, earlier <+: commands ∧ (engine.after earlier).policies = policies

/-- All engines that are reached from a new one are coherent. -/
theorem coherent_after {registry : Registry} (initial : registry.IsInitial)
    {commands : List Command} (allowed : ∀ command ∈ commands, command.Allowed) :
    (after { registry } commands).Coherent (Held { registry } commands) := by
  -- Induction from the end: the last command acts on the engine that the others have led to.
  induction commands using List.reverseRecOn with
  | nil =>
    exact ⟨initial.complete, initial.lawful, ⟨.inl rfl, .inr rfl⟩,
      fun _ member => absurd member List.not_mem_nil⟩
  | append_singleton commands command ih =>
    obtain ⟨before, last⟩ := List.forall_mem_append.mp allowed
    have reached : after { registry } (commands ++ [command]) =
        (after { registry } commands).perform command := List.foldl_append ..
    have coherent : (after { registry } commands).Coherent
        (Held { registry } (commands ++ [command])) :=
      (ih before).mono fun policies ⟨earlier, part, same⟩ =>
        ⟨earlier, part.trans (List.prefix_append ..), same⟩
    rw [reached]
    exact coherent.perform ⟨commands, List.prefix_append .., rfl⟩
      (List.forall_mem_singleton.mp last)

/-! ## Evaluation -/

/-- Lists with the same flat normal form have the same residual. -/
theorem interpret_same {registry : Registry} (complete : registry.Complete)
    (lawful : registry.Lawful) {policies others : List Policy}
    (same : (ConstraintSet.ofPolicies policies == .ofPolicies others) = true)
    (flat : (ConstraintSet.ofPolicies others).complex = [])
    (covered : (ConstraintSet.ofPolicies policies).Covered registry)
    (covered' : (ConstraintSet.ofPolicies others).Covered registry) {document : Value}
    (fit : document.ArraysFit) {r s : Residual}
    (first : CompiledPolicy.interpret policies registry document = .ok r)
    (second : CompiledPolicy.interpret others registry document = .ok s) : (r == s) = true := by
  have flat' := (ConstraintSet.complex_eq_nil_iff_of_same same).mpr flat
  have judges : JudgesSame registry.judge := fun c d equal found => lawful.judge_congr equal found
  have alike (set : ConstraintSet) := CompiledPolicy.judgeAlike_self registry set
  have respects (policies : List Policy) :=
    lawful.respectsOperands (Policy.conjunction policies).operandList
  rw [CompiledPolicy.interpret_eq_run flat' complete covered (respects _) (alike _) fit] at first
  rw [CompiledPolicy.interpret_eq_run flat complete covered' (respects _) (alike _) fit] at second
  rw [← Except.ok.inj first, ← Except.ok.inj second]
  exact Plan.run_ofFiled_same fit judges same

/-- The evaluation of an engine at any time: the residual is that of a list of policies which the
engine has held and whose normal form is the present one. It is the residual of the present policies
if this is the same list, or if the normal form is flat. -/
theorem eval_after {registry : Registry} (initial : registry.IsInitial) {commands : List Command}
    (allowed : ∀ command ∈ commands, command.Allowed) {p : CompiledPolicy} {next : Engine}
    (compiled : (after { registry } commands).compile = .ok (p, next)) {document : Value}
    (fit : document.ArraysFit) :
    ∃ r s, (after { registry } commands).eval document = .ok (.ok r, next) ∧
      (after { registry } commands).interpret document = .ok s ∧
      (Policy.conjunction p.policies).evaluate (after { registry } commands).registry document =
        .ok r ∧
      Held { registry } commands p.policies ∧
      (ConstraintSet.ofPolicies p.policies ==
        .ofPolicies (after { registry } commands).policies) = true ∧
      (p.policies = (after { registry } commands).policies ∨
        (ConstraintSet.ofPolicies (after { registry } commands).policies).complex = [] →
          (r == s) = true) := by
  have coherent := coherent_after initial allowed
  have present : Held { registry } commands (after { registry } commands).policies :=
    ⟨commands, List.prefix_rfl, rfl⟩
  -- From here on only the invariant matters, not the history.
  generalize after { registry } commands = engine at compiled coherent present ⊢
  obtain ⟨⟨kept, before, same⟩, -⟩ := coherent.compile present compiled
  rw [kept.normal] at same
  have covered := ConstraintSet.covered_of_operators fun id used => kept.contains used
  have covered' : (ConstraintSet.ofPolicies engine.policies).Covered engine.registry := by
    refine ConstraintSet.covered_of_operators fun id used => kept.contains ?_
    rw [kept.normal, ConstraintSet.operators_of_same same]
    exact used
  obtain ⟨r, fast, slow⟩ := kept.evaluate fit
  obtain ⟨s, current⟩ := CompiledPolicy.interpret_ok coherent.complete covered' document
  have evaluated : engine.eval document = .ok (.ok r, next) := by
    rw [eval, compiled, ← fast, ← registry_of_compile compiled]
    rfl
  refine ⟨r, s, evaluated, current, slow, before, same, ?_⟩
  rintro (own | flat)
  · have equal : r = s := by
      rw [own] at slow
      exact Except.ok.inj (slow.symm.trans current)
    exact equal ▸ BEq.rfl
  · rw [kept.normal] at covered
    exact interpret_same coherent.complete coherent.lawful same flat covered covered' fit slow
      current

end

/-- Two constraints in reversed order, and a custom operator replaced after the compilation. -/
theorem eval_after_of_reversed :
    let like : Operator := ⟨"like", fun v o => v == o, .any, false⟩
    let unlike : Operator := ⟨"like", fun v o => !(v == o), .any, false⟩
    let role : Policy :=
      .leaf { path := ⟨[.string "role"]⟩, operator := "like", operand := .string "admin" }
    let team : Policy :=
      .leaf { path := ⟨[.string "team"]⟩, operator := "=", operand := .string "ops" }
    let commands : List Command := [.register like, .addPolicy role, .addPolicy team, .compile,
      .clearPolicies, .addPolicy team, .addPolicy role, .register unlike]
    let engine : Engine := after { registry := .builtins } commands
    let document : Value := .object [(.string "role", .string "admin")]
    Registry.builtins.IsInitial ∧ (∀ command ∈ commands, command.Allowed) ∧ document.ArraysFit ∧
      ∃ p next, engine.compile = .ok (p, next) ∧ p.tier = .guarded ∧
        ∃ r s, engine.eval document = .ok (.ok r, next) ∧ engine.interpret document = .ok s ∧
          (r == s) = true := by
  intro like unlike role team commands engine document
  have initial : Registry.builtins.IsInitial := .inl rfl
  have respects : like.RespectsEquality ∧ unlike.RespectsEquality :=
    ⟨Operator.respectsEquality_of_eq (f := id) fun _ _ => rfl,
      Operator.respectsEquality_of_eq (f := not) fun _ _ => rfl⟩
  have allowed : ∀ command ∈ commands, command.Allowed := by
    simp only [commands, List.forall_mem_cons]
    exact ⟨respects.1, trivial, trivial, trivial, trivial, trivial, trivial, respects.2,
      fun _ member => absurd member List.not_mem_nil⟩
  have fit : document.ArraysFit :=
    Value.arraysFit_object (List.forall_mem_singleton.mpr (Value.arraysFit_string "admin"))
  have guarded : engine.compile.map (fun found => found.1.tier) = .ok .guarded := by decide +kernel
  have flat : (ConstraintSet.ofPolicies engine.policies).complex = [] :=
    List.isEmpty_iff.mp (by decide +kernel)
  obtain ⟨⟨p, next⟩, compiled, tier⟩ := map_eq_ok guarded
  obtain ⟨r, s, evaluated, interpreted, -, -, -, alike⟩ := eval_after initial allowed compiled fit
  exact ⟨initial, allowed, fit, p, next, compiled, tier, r, s, evaluated, interpreted,
    alike (.inr flat)⟩

/-- A disjunction and a constraint in reversed order are compiled as before, and an evaluation
reports the constraint where the interpreter reports the disjunction. -/
theorem eval_ne_interpret :
    let admin : Policy :=
      .leaf { path := ⟨[.string "role"]⟩, operator := "=", operand := .string "admin" }
    let owner : Policy :=
      .leaf { path := ⟨[.string "role"]⟩, operator := "=", operand := .string "owner" }
    let ops : Policy :=
      .leaf { path := ⟨[.string "team"]⟩, operator := "=", operand := .string "ops" }
    let either : Policy := .connected .disjunction [owner, ops]
    let commands : List Command := [.addPolicy admin, .addPolicy either, .compile,
      .clearPolicies, .addPolicy either, .addPolicy admin]
    let engine : Engine := after { registry := .builtins } commands
    let document : Value :=
      .object [(.string "role", .string "guest"), (.string "team", .string "x")]
    (∀ command ∈ commands, command.Allowed) ∧ document.ArraysFit ∧
      ∃ p next r s, engine.compile = .ok (p, next) ∧ engine.eval document = .ok (.ok r, next) ∧
        engine.interpret document = .ok s ∧ (r == s) = false := by
  intro admin owner ops either commands engine document
  have allowed : ∀ command ∈ commands, command.Allowed := by
    simp only [commands, List.forall_mem_cons]
    exact ⟨trivial, trivial, trivial, trivial, trivial, trivial,
      fun _ member => absurd member List.not_mem_nil⟩
  have fit : document.ArraysFit := by
    refine Value.arraysFit_object (List.forall_mem_cons.mpr ⟨Value.arraysFit_string _, ?_⟩)
    exact List.forall_mem_singleton.mpr (Value.arraysFit_string _)
  have apart : (engine.eval document).map (fun found => found.1.toOption.bind fun r =>
      (engine.interpret document).toOption.map fun s => r == s) = .ok (some false) := by
    decide +kernel
  obtain ⟨⟨outcome, next⟩, evaluated, apart⟩ := map_eq_ok apart
  obtain ⟨r, returned, apart⟩ := Option.bind_eq_some_iff.mp apart
  obtain ⟨s, returned', apart⟩ := Option.map_eq_some_iff.mp apart
  obtain ⟨⟨p, _⟩, compiled, same⟩ := map_eq_ok evaluated
  have returns : outcome = .ok r := eq_ok_of_toOption returned
  rw [returns] at evaluated
  rw [(Prod.mk.inj same).2] at compiled
  exact ⟨allowed, fit, p, next, r, s, compiled, evaluated, eq_ok_of_toOption returned', apart⟩

end Engine

end ResidualPolicy
