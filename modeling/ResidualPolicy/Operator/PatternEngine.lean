/-!
# Pattern engines

Which texts are patterns, and in which texts a pattern occurs, is left to an engine. All that is asked of
it is that both are functions: the first of the pattern, the second of the pattern and the text.
-/

namespace ResidualPolicy

/-- A text is no pattern. -/
structure PatternFault where
  /-- What the engine says about it. None stands for an account that is not reproduced. -/
  account : Option String
  deriving DecidableEq, Repr

/-- An engine for patterns. It is inferred, so that definitions which only hand it on do not name it. -/
class PatternEngine where
  /-- Patterns that have been read. -/
  Compiled : Type
  read : String → Except PatternFault Compiled
  /-- Whether some part of a text matches. -/
  occursIn : Compiled → String → Bool

end ResidualPolicy
