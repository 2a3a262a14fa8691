import ResidualPolicy.Constraint

/-!
# Policies

A policy is built from constraints by conjunction, disjunction and negation, by quantifiers over the
elements of a collection, and by counting the elements that pass a filter. Inside a quantifier or a
filter each element is a document of its own.

A policy has two written forms, a value made of tagged arrays (`expr`) and a text in policy notation
(`text`). Reading the text as a value gives the former.
-/

namespace ResidualPolicy

/-- How the parts of a policy are joined. -/
inductive Connective where
  | conjunction
  | disjunction
  deriving DecidableEq, Repr

/-- Tag of a connective. -/
def Connective.tag : Connective → String
  | .conjunction => "and"
  | .disjunction => "or"

/-- The connective that takes the place of this one under a negation. -/
def Connective.dual : Connective → Connective
  | .conjunction => .disjunction
  | .disjunction => .conjunction

/-- The connective itself, or its dual under a negation. -/
def Connective.withPolarity (connective : Connective) (positive : Bool) : Connective :=
  if positive then connective else connective.dual

/-- Which elements of a collection must satisfy the body. -/
inductive Quantifier where
  | universal
  | existential
  deriving DecidableEq, Repr

/-- Tag of a quantifier. -/
def Quantifier.tag : Quantifier → String
  | .universal => "forall"
  | .existential => "exists"

/-- The quantifier that takes the place of this one under a negation. -/
def Quantifier.dual : Quantifier → Quantifier
  | .universal => .existential
  | .existential => .universal

/-- The quantifier itself, or its dual under a negation. -/
def Quantifier.withPolarity (quantifier : Quantifier) (positive : Bool) : Quantifier :=
  if positive then quantifier else quantifier.dual

@[simp]
theorem Connective.dual_dual (connective : Connective) : connective.dual.dual = connective := by
  cases connective <;> rfl

@[simp]
theorem Quantifier.dual_dual (quantifier : Quantifier) : quantifier.dual.dual = quantifier := by
  cases quantifier <;> rfl

/-- Taking the dual and turning the polarity round cancel out. -/
theorem Connective.withPolarity_dual (connective : Connective) (positive : Bool) :
    connective.dual.withPolarity positive = connective.withPolarity (!positive) := by
  cases positive <;> simp [withPolarity]

/-- Taking the dual and turning the polarity round cancel out. -/
theorem Quantifier.withPolarity_dual (quantifier : Quantifier) (positive : Bool) :
    quantifier.dual.withPolarity positive = quantifier.withPolarity (!positive) := by
  cases positive <;> simp [withPolarity]

/-- A policy. -/
inductive Policy where
  | leaf (c : Constraint)
  | connected (connective : Connective) (parts : List Policy)
  | negation (p : Policy)
  /-- The elements at `binding` that pass the filter are asked for `body`. -/
  | quantified (quantifier : Quantifier) (binding : Path) (filter : Option Policy) (body : Policy)
  /-- The number of elements at `binding` that pass the filter is compared with `operand`. -/
  | counted (binding : Path) (filter : Option Policy) (comparator : String) (operand : Value)
  deriving Repr, Inhabited

namespace Policy

/-- All of several policies. A single policy stands for itself. -/
def conjunction : List Policy → Policy
  | [p] => p
  | policies => .connected .conjunction policies

/-- Name of the form of a policy. -/
def tag : Policy → String
  | .leaf _ => "constraint"
  | .connected connective _ => connective.tag
  | .negation _ => "not"
  | .quantified quantifier _ _ _ => quantifier.tag
  | .counted _ _ _ _ => "count"

/-! ## Sameness -/

mutual

/-- Policies are the same when they have the same form and the same parts; numbers may be held
differently. -/
def same : Policy → Policy → Bool
  | .leaf c, .leaf d => c == d
  | .connected k ps, .connected l qs => k == l && sameParts ps qs
  | .negation p, .negation q => same p q
  | .quantified q b none p, .quantified r c none p' => q == r && b == c && same p p'
  | .quantified q b (some f) p, .quantified r c (some g) p' =>
    q == r && b == c && same f g && same p p'
  | .counted b none k o, .counted c none l o' => b == c && k == l && o == o'
  | .counted b (some f) k o, .counted c (some g) l o' =>
    b == c && same f g && k == l && o == o'
  | _, _ => false

/-- Sameness part by part. -/
def sameParts : List Policy → List Policy → Bool
  | [], [] => true
  | p :: ps, q :: qs => same p q && sameParts ps qs
  | _, _ => false

end

instance : BEq Policy := ⟨same⟩

/-! ## Operators -/

mutual

/-- The operators of a policy with the comparators of its counts, as often as they occur. -/
def operatorList : Policy → List String
  | .leaf c => [c.operator]
  | .connected _ parts => operatorLists parts
  | .negation p => operatorList p
  | .quantified _ _ none body => operatorList body
  | .quantified _ _ (some filter) body => operatorList filter ++ operatorList body
  | .counted _ none comparator _ => [comparator]
  | .counted _ (some filter) comparator _ => operatorList filter ++ [comparator]

/-- The operators of several policies. -/
def operatorLists : List Policy → List String
  | [] => []
  | p :: rest => operatorList p ++ operatorLists rest

end

/-- The operators of a policy, each once, in ascending order. -/
def operators (p : Policy) : List String :=
  Ascending.ofMembers p.operatorList

/-! ## As a value -/

mutual

/-- A policy as nested tagged arrays. -/
def expr : Policy → Value
  | .leaf c => c.expr
  | .connected connective parts => .array (.string connective.tag :: exprs parts)
  | .negation p => .array [.string "not", expr p]
  | .quantified quantifier binding none body =>
    .array [.string quantifier.tag, binding.toValue, expr body]
  | .quantified quantifier binding (some filter) body =>
    .array [.string quantifier.tag, binding.toValue, .string "where", expr filter, expr body]
  | .counted binding none comparator operand =>
    .array [.string "count", binding.toValue, .string comparator, operand]
  | .counted binding (some filter) comparator operand =>
    .array [.string "count", binding.toValue, .string "where", expr filter, .string comparator,
      operand]

/-- Several policies, each as nested tagged arrays. -/
def exprs : List Policy → List Value
  | [] => []
  | p :: rest => expr p :: exprs rest

end

/-! ## As a text -/

/-- Text of a tag. -/
def tagText (tag : String) : List Char :=
  ':' :: tag.toList

mutual

/-- Text of a policy in policy notation. -/
def text : Policy → List Char
  | .leaf c => c.text
  | .connected connective parts => Notation.bracketed (tagText connective.tag :: texts parts)
  | .negation p => Notation.bracketed [tagText "not", text p]
  | .quantified quantifier binding none body =>
    Notation.bracketed [tagText quantifier.tag, binding.text, text body]
  | .quantified quantifier binding (some filter) body =>
    Notation.bracketed
      [tagText quantifier.tag, binding.text, tagText "where", text filter, text body]
  | .counted binding none comparator operand =>
    Notation.bracketed
      [tagText "count", binding.text, Notation.nameText comparator, Notation.text operand]
  | .counted binding (some filter) comparator operand =>
    Notation.bracketed
      [tagText "count", binding.text, tagText "where", text filter, Notation.nameText comparator,
        Notation.text operand]

/-- Texts of several policies. -/
def texts : List Policy → List (List Char)
  | [] => []
  | p :: rest => text p :: texts rest

end

theorem exprs_eq_map (parts : List Policy) : exprs parts = parts.map expr := by
  induction parts with
  | nil => rfl
  | cons p rest ih => simp [exprs, ih]

theorem texts_eq_map (parts : List Policy) : texts parts = parts.map text := by
  induction parts with
  | nil => rfl
  | cons p rest ih => simp [texts, ih]

theorem operatorLists_eq_flatMap (parts : List Policy) :
    operatorLists parts = parts.flatMap operatorList := by
  induction parts with
  | nil => rfl
  | cons p rest ih => simp [operatorLists, ih]

end Policy

end ResidualPolicy
