import ResidualPolicy.Compilation
import ResidualPolicy.Pattern.Reader
import ResidualPolicy.Policy.Reader

/-!
# Engines

An engine holds a registry, a list of policies that must all hold, and options of compilation. It
remembers what it has compiled: policies with the same normal form are compiled once, and again only
when a guarded policy has been overtaken by the registry.
-/

namespace ResidualPolicy

/-- Compiled policies by their normal forms. -/
abbrev PolicyCache := List (ConstraintSet × CompiledPolicy)

namespace PolicyCache

/-- The policy compiled from a normal form. -/
def get? (cache : PolicyCache) (set : ConstraintSet) : Option CompiledPolicy :=
  (cache.find? fun entry => entry.1 == set).map Prod.snd

/-- Stores a policy under its normal form. A normal form that is there already keeps its place. -/
def store (cache : PolicyCache) (set : ConstraintSet) (p : CompiledPolicy) : PolicyCache :=
  match cache with
  | [] => [(set, p)]
  | (key, old) :: rest =>
    if key == set then (key, p) :: rest else (key, old) :: store rest set p

/-- Compiles policies, unless the cache holds a compilation that is not stale. -/
def compile (cache : PolicyCache) (registry : Registry) (policies : List Policy)
    (options : CompileOptions) : Except CompileError (CompiledPolicy × PolicyCache) :=
  let set := ConstraintSet.ofPolicies policies
  match cache.get? set with
  | some p =>
    if p.isStale registry then do
      let p ← p.refresh registry
      return (p, cache.store set p)
    else .ok (p, cache)
  | none => do
    let p ← CompiledPolicy.compileSet registry policies set options
    return (p, cache.store set p)

end PolicyCache

variable [PatternEngine]

/-- A policy engine. -/
structure Engine where
  registry : Registry := .builtins
  policies : List Policy := []
  options : CompileOptions := { specializer := some inlineSpecializer }
  cache : PolicyCache := []

namespace Engine

/-- Registers a custom operator. -/
def register (engine : Engine) (op : Operator) : Except RegistryError Engine :=
  (engine.registry.register op).map fun registry => { engine with registry := registry }

/-- Adds a policy. -/
def addPolicy (engine : Engine) (p : Policy) : Engine :=
  { engine with policies := engine.policies ++ [p] }

/-- Drops all policies. -/
def clearPolicies (engine : Engine) : Engine :=
  { engine with policies := [] }

/-- Replaces the options. What has been compiled under the old ones is forgotten. -/
def setOptions (engine : Engine) (options : CompileOptions) : Engine :=
  { engine with options := options, cache := [] }

/-- Forgets what has been compiled. -/
def clearCache (engine : Engine) : Engine :=
  { engine with cache := [] }

/-- All policies as one. -/
def policy (engine : Engine) : Policy :=
  .conjunction engine.policies

/-- Compiles the policies, or finds them compiled. -/
def compile (engine : Engine) : Except CompileError (CompiledPolicy × Engine) :=
  (engine.cache.compile engine.registry engine.policies engine.options).map fun (p, cache) =>
    (p, { engine with cache := cache })

/-- Evaluates a document by the compiled policies. The engine remembers the compilation even if the
evaluation fails. -/
def eval (engine : Engine) (document : Value) : Except CompileError (Outcome × Engine) :=
  engine.compile.map fun (p, engine) => (p.evaluate engine.registry document, engine)

/-- Evaluates a document without compiling. -/
def interpret (engine : Engine) (document : Value) : Outcome :=
  engine.policy.evaluate engine.registry document

/-- What a document would have to hold in order to contradict the policies. -/
def inverseQuery (engine : Engine) : Outcome :=
  engine.policy.negate.evaluate engine.registry (.object [])

end Engine

end ResidualPolicy
