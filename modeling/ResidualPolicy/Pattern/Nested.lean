/-!
# Depth of nesting

The parts of a pattern stand in each other: in groups, in brackets, under repetitions, and side by
side in sequences and among alternatives. How often this happens along a path is the depth of the
text, and patterns of great depth are refused.
-/

namespace ResidualPolicy.Pattern

/-- Something that has been read, with the depth of its text. -/
structure Nested (α : Type) where
  value : α
  depth : Nat
  deriving Repr

namespace Nested

variable {α β : Type}

/-- Something in which nothing stands. -/
def flat (value : α) : Nested α :=
  ⟨value, 0⟩

/-- Puts something around a part. -/
def around (f : α → β) (part : Nested α) : Nested β :=
  ⟨f part.value, part.depth + 1⟩

/-- The greatest depth of some parts. -/
def deepest (parts : List (Nested α)) : Nat :=
  parts.foldl (fun depth part => max depth part.depth) 0

/-- Puts parts side by side. A part alone stands in nothing further. -/
def join (f : List α → β) (parts : List (Nested α)) : Nested β :=
  ⟨f (parts.map fun part => part.value),
    if parts.length ≤ 1 then deepest parts else deepest parts + 1⟩

end Nested

end ResidualPolicy.Pattern
