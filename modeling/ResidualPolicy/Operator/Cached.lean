import ResidualPolicy.Operator.Builtin

/-!
# Predicates that keep patterns

The predicates of the matching operators learn their pattern only when they are asked, and the same one is
asked for again and again. So they keep patterns, those that could not be read included, and read a text only
where nothing is kept for it.

How patterns are kept is left to a cache, of which no more is asked than that it finds what was put into it
(`TextCache.Lawful`). It may forget. `TextCache.recent` is one that forgets what has not been used for
longest.
-/

namespace ResidualPolicy

/-! ## Caches -/

/-- A cache under texts. -/
structure TextCache (α : Type) where
  State : Type
  /-- The cache before its first use. -/
  empty : State
  /-- What is found under a text, and the cache after it was looked for. -/
  get : State → String → Option α × State
  /-- The cache after a value has been put under a text. -/
  put : State → String → α → State

namespace TextCache

variable {α : Type}

/-- The states that calls lead to, each with what has been put into it, the latest first. -/
inductive Reached (cache : TextCache α) : cache.State → List (String × α) → Prop
  | empty : Reached cache cache.empty []
  | get {state : cache.State} {entries : List (String × α)} (text : String) :
      Reached cache state entries → Reached cache (cache.get state text).2 entries
  | put {state : cache.State} {entries : List (String × α)} (text : String) (a : α) :
      Reached cache state entries → Reached cache (cache.put state text a) ((text, a) :: entries)

/-- What is found under a text is what was put there last. -/
def Lawful (cache : TextCache α) : Prop :=
  ∀ state entries text a, cache.Reached state entries → (cache.get state text).1 = some a →
    entries.lookup text = some a

/-- A cache of a certain size. It is kept in the order of use, the latest in front. -/
def recent (α : Type) (size : Nat) : TextCache α where
  State := List (String × α)
  empty := []
  get state text :=
    match state.find? fun entry => entry.1 == text with
    | some entry => (some entry.2, entry :: state.filter fun other => other.1 != text)
    | none => (none, state)
  put state text a := ((text, a) :: state.filter fun other => other.1 != text).take size

end TextCache

/-! ## Predicates -/

variable [PatternEngine]

/-- A cache of patterns; none is kept for a text that could not be read. -/
abbrev PatternCache := TextCache (Option PatternEngine.Compiled)

/-- A built-in operator with a value and an operand that it is asked about. -/
abbrev Question := Builtin × Value × Value

namespace PatternCache

variable (cache : PatternCache)

/-- The pattern of a text, and the cache after it was asked for. -/
def compiled (state : cache.State) (text : String) :
    Option PatternEngine.Compiled × cache.State :=
  match cache.get state text with
  | (some p?, next) => (p?, next)
  | (none, next) =>
    let p? := Builtin.patternOf? (.string text)
    (p?, cache.put next text p?)

/-- Whether some part of a string matches a pattern, and the cache after that was asked for. -/
def fits (state : cache.State) : Value → Value → Bool × cache.State
  | .string s, .string text =>
    let (p?, next) := compiled cache state text
    (p?.any fun p => PatternEngine.occursIn p s, next)
  | _, _ => (false, state)

/-- Whether an operator holds of a value and an operand, and the cache after it was asked. -/
def holds (state : cache.State) : Question → Bool × cache.State
  | (.matching, v, o) => fits cache state v o
  | (.notMatching, v, o) =>
    let (found, next) := fits cache state v o
    (!found, next)
  | (builtin, v, o) => (builtin.holds v o, state)

/-- The answers to questions that are asked one after the other, with one cache. -/
def answers (state : cache.State) : List Question → List Bool
  | [] => []
  | question :: rest =>
    (holds cache state question).1 :: answers (holds cache state question).2 rest

/-- The cache after questions have been asked one after the other. -/
def after (questions : List Question) : cache.State :=
  questions.foldl (fun state question => (holds cache state question).2) cache.empty

end PatternCache

end ResidualPolicy
