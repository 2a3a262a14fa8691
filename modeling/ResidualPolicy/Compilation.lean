import ResidualPolicy.ConstraintSet
import ResidualPolicy.Evaluation

/-!
# Compilation

A list of policies is compiled by bringing it into normal form and choosing the fastest strategy that
its operators allow. Strategies are ordered by tier:

* an interpreted policy is evaluated as it was given, by the operators of the moment;
* a guarded policy checks each constraint by the operators that were registered at compilation, as
  long as the registry has not changed, and takes its fallback afterwards;
* a generic policy checks the same way without the guard, which built-in operators do not need;
* a specialized policy has the operands built into its checks.

A compiled policy is a value. It does not hold the registry: evaluating it takes the registry of the
moment, whose version tells a guarded policy whether anything has changed.
-/

namespace ResidualPolicy

/-- Strategies of evaluation, slowest first. -/
inductive Tier where
  | interpreted
  | guarded
  | generic
  | specialized
  deriving DecidableEq, Repr

/-- Name of a tier. -/
def Tier.text : Tier → String
  | .interpreted => "T0"
  | .guarded => "T1"
  | .generic => "T2"
  | .specialized => "T3"

/-- Place of a tier among the others. -/
def Tier.rank : Tier → Nat
  | .interpreted => 0
  | .guarded => 1
  | .generic => 2
  | .specialized => 3

instance : LE Tier := ⟨fun a b => a.rank ≤ b.rank⟩

instance (a b : Tier) : Decidable (a ≤ b) :=
  inferInstanceAs (Decidable (a.rank ≤ b.rank))

/-- An evaluation of documents by the registry of the moment. -/
abbrev Evaluator := Registry → Value → Outcome

/-- Makes an evaluator for constraints on built-in operators, or declines. -/
abbrev Specializer := ConstraintSet → Option Evaluator

/-- What a guarded policy does once the registry has changed. -/
inductive Fallback where
  /-- The policies are interpreted. -/
  | synthesized
  | supplied (evaluator : Evaluator)
  /-- Policies with custom operators are refused. -/
  | disabled

/-- Name of a fallback in a dump. -/
def Fallback.name : Fallback → String
  | .synthesized => "Synthesize"
  | .supplied _ => "Supplied"
  | .disabled => "Disabled"

/-- How to compile. -/
structure CompileOptions where
  /-- The highest tier to choose; any if missing. -/
  ceiling : Option Tier := none
  fallback : Fallback := .synthesized
  /-- Without a specializer no policy is specialized. -/
  specializer : Option Specializer := none

/-- Dump of the options; functions can not be shown. -/
def CompileOptions.dump (options : CompileOptions) : List Char :=
  let ceiling := match options.ceiling with
    | none => "None"
    | some tier => "Some(" ++ tier.text ++ ")"
  "CompileOptions \x7b tier: ".toList ++ ceiling.toList ++
    ", fallback: ".toList ++ options.fallback.name.toList ++
    ", specializer: ".toList ++ Json.boolText options.specializer.isSome ++ " \x7d".toList

/-- Policies can not be compiled. -/
inductive CompileError where
  /-- Custom operators are used, but a fallback is ruled out. -/
  | missingFallback (operators : List String)
  | unknownOperator (e : UnknownOperator)
  deriving DecidableEq, Repr

/-- Wording of the error. -/
def CompileError.message : CompileError → String
  | .missingFallback operators =>
    "custom operators " ++ ", ".intercalate (operators.map fun id => "`" ++ id ++ "`") ++
      " require a fallback evaluator"
  | .unknownOperator e => e.message

/-! ## Plans -/

/-- The constraints on one path, each with the predicate that decides it. -/
structure PathPlan where
  path : Path
  checks : List (Constraint × (Value → Bool))

/-- Constraints in the order in which they are checked. -/
abbrev Plan := List PathPlan

namespace Plan

/-- The plan of a constraint set, given how to find the predicate of a constraint. -/
def ofSet {ε : Type} (check : Constraint → Except ε (Value → Bool)) (set : ConstraintSet) :
    Except ε Plan :=
  set.constraints.mapM fun (path, constraints) => do
    let checks ← constraints.mapM fun c => do
      let holds ← check c
      return (c, holds)
    return ⟨path, checks⟩

/-- The predicate of a constraint by the operators of a registry. -/
def registeredCheck (registry : Registry) (c : Constraint) : Except UnknownOperator (Value → Bool) :=
  (registry.lookup c.operator).map fun op found => c.admits op.holds found

/-- The predicate of a constraint on a built-in operator, with the operand built in. -/
def specializedCheck [PatternEngine] (c : Constraint) : Except UnknownOperator (Value → Bool) :=
  match specialize? c.operator c.operand with
  | some holds => .ok fun found => holds found != c.negated
  | none => .error ⟨c.operator⟩

/-- Goes through the paths of a plan in order. The first constraint that fails ends the evaluation;
the constraints on a missing path are open. -/
def runFrom (document : Value) : Filed Constraint → Plan → Residual
  | pending, [] => .ofPending pending
  | pending, step :: rest =>
    match step.path.find? document with
    | none =>
      runFrom document (Ascending.put step.path (step.checks.map Prod.fst) pending) rest
    | some found =>
      match step.checks.find? fun check => !check.2 found with
      | some (c, _) => .violated c found
      | none => runFrom document pending rest

/-- Evaluates a plan on a document. -/
def run (plan : Plan) (document : Value) : Residual :=
  plan.runFrom document []

/-- A plan as an evaluator. It consults no registry. -/
def evaluator (plan : Plan) : Evaluator :=
  fun _ document => .ok (plan.run document)

end Plan

/-- The specializer that builds the operands of built-in operators into their predicates. It declines
policies that are more than constraints. -/
def inlineSpecializer [PatternEngine] : Specializer := fun set =>
  if set.hasComplex then none
  else (Plan.ofSet Plan.specializedCheck set).toOption.map Plan.evaluator

/-! ## Compiled policies -/

/-- A list of policies with the evaluator that was chosen for it. -/
structure CompiledPolicy where
  tier : Tier
  /-- Version of the registry at compilation. -/
  version : Nat
  set : ConstraintSet
  evaluator : Evaluator
  fallback : Option Evaluator
  policies : List Policy
  options : CompileOptions

namespace CompiledPolicy

/-- Interprets the conjunction of policies. -/
def interpret (policies : List Policy) : Evaluator := fun registry document =>
  (Policy.conjunction policies).evaluate registry document

/-- Takes `fast` while the registry has a certain version and `slow` otherwise. -/
def guard (version : Nat) (fast slow : Evaluator) : Evaluator := fun registry document =>
  if registry.version == version then fast registry document else slow registry document

/-- The fallback that the options ask for. -/
def fallbackOf (policies : List Policy) (set : ConstraintSet) :
    Fallback → Except CompileError (Option Evaluator)
  | .synthesized => .ok (some (interpret policies))
  | .supplied evaluator => .ok (some evaluator)
  | .disabled =>
    if set.isBuiltinOnly then .ok none else .error (.missingFallback set.customOperators)

/-- The evaluator of a constraint set by the operators of a registry. -/
def genericEvaluator (registry : Registry) (set : ConstraintSet) : Except CompileError Evaluator :=
  match Plan.ofSet (Plan.registeredCheck registry) set with
  | .ok plan => .ok plan.evaluator
  | .error e => .error (.unknownOperator e)

/-- The evaluator of a specializer, where the ceiling allows to ask it and it does not decline. -/
def specializedEvaluator? (options : CompileOptions) (set : ConstraintSet) : Option Evaluator :=
  if options.ceiling.getD .specialized == .specialized then
    options.specializer.bind fun specialize => specialize set
  else none

/-- Chooses tier and evaluator. -/
def choose (registry : Registry) (policies : List Policy) (set : ConstraintSet)
    (options : CompileOptions) (fallback : Option Evaluator) :
    Except CompileError (Tier × Evaluator) :=
  let ceiling := options.ceiling.getD .specialized
  if set.hasComplex || ceiling == .interpreted then
    .ok (.interpreted, interpret policies)
  else if !set.isBuiltinOnly || ceiling == .guarded then do
    let fast ← genericEvaluator registry set
    return (.guarded, guard registry.version fast (fallback.getD (interpret policies)))
  else
    match specializedEvaluator? options set with
    | some evaluator => .ok (.specialized, evaluator)
    | none => do
      let evaluator ← genericEvaluator registry set
      return (.generic, evaluator)

/-- Refuses operators that are not registered, the first in ascending order. -/
def checkOperators (registry : Registry) (set : ConstraintSet) : Except CompileError Unit :=
  match set.operators.find? fun id => !registry.contains id with
  | some id => .error (.unknownOperator ⟨id⟩)
  | none => .ok ()

/-- Compiles policies whose normal form is given. -/
def compileSet (registry : Registry) (policies : List Policy) (set : ConstraintSet)
    (options : CompileOptions) : Except CompileError CompiledPolicy := do
  checkOperators registry set
  let fallback ← fallbackOf policies set options.fallback
  let (tier, evaluator) ← choose registry policies set options fallback
  return { tier, version := registry.version, set, evaluator, fallback, policies, options }

/-- Compiles policies. -/
def compile (registry : Registry) (policies : List Policy) (options : CompileOptions) :
    Except CompileError CompiledPolicy :=
  compileSet registry policies (.ofPolicies policies) options

/-- Evaluates a document by the registry of the moment. -/
def evaluate (p : CompiledPolicy) (registry : Registry) (document : Value) : Outcome :=
  p.evaluator registry document

/-- Whether a guarded policy has been overtaken by the registry. -/
def isStale (p : CompiledPolicy) (registry : Registry) : Bool :=
  p.tier == .guarded && registry.version != p.version

/-- Compiles the same policies again. -/
def refresh (p : CompiledPolicy) (registry : Registry) : Except CompileError CompiledPolicy :=
  compileSet registry p.policies p.set p.options

end CompiledPolicy

end ResidualPolicy
