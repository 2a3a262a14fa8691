import ResidualPolicy.Notation.Text

/-!
# Paths

A path leads from a document to a value inside it by a sequence of keys. A path relative to a value
becomes a path of the whole document when it is joined to the path of that value.
-/

namespace ResidualPolicy

/-- A sequence of keys. -/
structure Path where
  keys : List Value
  deriving Repr, Inhabited

namespace Path

/-- The path of the document itself. -/
def root : Path :=
  ⟨[]⟩

/-- Paths are ordered key by key; a path comes before those that continue it. -/
def compare (p q : Path) : Ordering :=
  Value.compareItems p.keys q.keys

instance : Ord Path := ⟨compare⟩

instance : BEq Path := ⟨fun p q => compare p q == .eq⟩

/-- One path followed by another. -/
def join (p q : Path) : Path :=
  ⟨p.keys ++ q.keys⟩

/-- A path followed by one key. -/
def child (p : Path) (key : Value) : Path :=
  ⟨p.keys ++ [key]⟩

/-- The keys as an array. -/
def toValue (p : Path) : Value :=
  .array p.keys

/-- Text of a path in policy notation. -/
def text (p : Path) : List Char :=
  Notation.bracketed (p.keys.map Notation.keyText)

/-- What a path leads to in a document. -/
def find? (p : Path) (document : Value) : Option Value :=
  document.lookup? p.keys

@[simp]
theorem join_root (p : Path) : p.join root = p := by
  simp [join, root]

theorem join_assoc (p q r : Path) : (p.join q).join r = p.join (q.join r) := by
  simp [join]

theorem join_child (p q : Path) (key : Value) : p.join (q.child key) = (p.join q).child key := by
  simp [join, child]

end Path

end ResidualPolicy
