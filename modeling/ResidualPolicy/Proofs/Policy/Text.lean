import ResidualPolicy.Proofs.Notation.RoundTrip
import ResidualPolicy.Proofs.Policy.Induction

/-!
# Policy texts are read as policy expressions

A policy has two written forms, an expression made of tagged arrays and a text. Reading the text as
a value gives the expression (`Policy.exists_read_text_expr`). Both forms go through the policy in
the same order, part by part, so what is left to say is that each part of the text denotes the part
of the expression that stands in its place (`Policy.denotes_text`): tags are keywords, operators,
comparators and the names in paths are keywords or string literals, and operands are values.

The values in a policy are the keys of its paths and its operands. They are taken as they are held,
sets and objects in ascending order; every number in them is an integer.
-/

namespace ResidualPolicy

open Notation (Denotes)

/-! ## Parts of policies -/

theorem Path.denotes_text {p : Path} (each : ∀ key ∈ p.keys, Denotes (Notation.text key) key) :
    Denotes p.text p.toValue := by
  rw [Path.text]
  refine Notation.denotes_bracketed ?_
  rw [List.forall₂_map_left_iff, List.forall₂_same]
  exact fun key member => Notation.denotes_keyText (each key member)

theorem Constraint.denotes_text {c : Constraint}
    (operand : Denotes (Notation.text c.operand) c.operand)
    (keys : ∀ key ∈ c.path.keys, Denotes (Notation.text key) key) : Denotes c.text c.expr := by
  have operator := (Notation.spells_name c.operator).denotes
  have leaf := Notation.denotes_bracketed
    (.cons operator (.cons (Path.denotes_text keys) (.cons operand .nil)))
  unfold text expr
  split
  · have tag : Denotes ":not".toList (.string "not") := (Notation.spells_name "not").denotes
    exact Notation.denotes_bracketed (.cons tag (.cons leaf .nil))
  · exact leaf

namespace Policy

mutual

/-- The values in a policy: the keys of its paths, its operands and those of its counts. -/
def values : Policy → List Value
  | .leaf c => c.operand :: c.path.keys
  | .connected _ parts => valuesOf parts
  | .negation p => values p
  | .quantified _ binding none body => binding.keys ++ values body
  | .quantified _ binding (some filter) body => binding.keys ++ (values filter ++ values body)
  | .counted binding none _ operand => operand :: binding.keys
  | .counted binding (some filter) _ operand => operand :: (binding.keys ++ values filter)

/-- The values in several policies. -/
def valuesOf : List Policy → List Value
  | [] => []
  | p :: rest => values p ++ valuesOf rest

end

theorem forall_valuesOf {P : Value → Prop} {parts : List Policy} :
    (∀ v ∈ valuesOf parts, P v) ↔ ∀ p ∈ parts, ∀ v ∈ p.values, P v := by
  induction parts with
  | nil => exact ⟨fun _ => nofun, fun _ => nofun⟩
  | cons p rest ih => rw [valuesOf, List.forall_mem_append, List.forall_mem_cons, ih]

/-! ## Tags -/

/-- A tag is written as a keyword. -/
theorem denotes_tag {tag : String} (name : Notation.isName tag.toList = true) :
    Denotes (tagText tag) (.string tag) := by
  have spells := Notation.spells_name tag
  rw [Notation.nameText, if_pos name] at spells
  exact spells.denotes

theorem denotes_connective (connective : Connective) :
    Denotes (tagText connective.tag) (.string connective.tag) := by
  cases connective <;> exact denotes_tag rfl

theorem denotes_quantifier (quantifier : Quantifier) :
    Denotes (tagText quantifier.tag) (.string quantifier.tag) := by
  cases quantifier <;> exact denotes_tag rfl

/-! ## Whole policies -/

/-- The text of a policy denotes its expression, if the texts of its values denote these. -/
theorem denotes_text {p : Policy} (each : ∀ v ∈ p.values, Denotes (Notation.text v) v) :
    Denotes p.text p.expr := by
  induction p with
  | leaf c =>
    obtain ⟨operand, keys⟩ := List.forall_mem_cons.mp each
    exact Constraint.denotes_text operand keys
  | connected connective parts ih =>
    have parts' : List.Forall₂ Denotes (texts parts) (exprs parts) := by
      rw [texts_eq_map, exprs_eq_map, List.forall₂_map_left_iff, List.forall₂_map_right_iff,
        List.forall₂_same]
      exact fun p member => ih p member (forall_valuesOf.mp each p member)
    exact Notation.denotes_bracketed (.cons (denotes_connective connective) parts')
  | negation p ih =>
    exact Notation.denotes_bracketed (.cons (denotes_tag rfl) (.cons (ih each) .nil))
  | quantified quantifier binding filter body ihFilter ihBody =>
    have tag := denotes_quantifier quantifier
    cases filter with
    | none =>
      obtain ⟨keys, inner⟩ := List.forall_mem_append.mp each
      exact Notation.denotes_bracketed
        (.cons tag (.cons (Path.denotes_text keys) (.cons (ihBody inner) .nil)))
    | some f =>
      obtain ⟨keys, parts⟩ := List.forall_mem_append.mp each
      obtain ⟨selects, inner⟩ := List.forall_mem_append.mp parts
      exact Notation.denotes_bracketed (.cons tag (.cons (Path.denotes_text keys)
        (.cons (denotes_tag rfl) (.cons (ihFilter f rfl selects) (.cons (ihBody inner) .nil)))))
  | counted binding filter comparator operand ih =>
    have compared := (Notation.spells_name comparator).denotes
    cases filter with
    | none =>
      obtain ⟨ofOperand, keys⟩ := List.forall_mem_cons.mp each
      exact Notation.denotes_bracketed (.cons (denotes_tag rfl)
        (.cons (Path.denotes_text keys) (.cons compared (.cons ofOperand .nil))))
    | some f =>
      obtain ⟨ofOperand, others⟩ := List.forall_mem_cons.mp each
      obtain ⟨keys, selects⟩ := List.forall_mem_append.mp others
      exact Notation.denotes_bracketed (.cons (denotes_tag rfl) (.cons (Path.denotes_text keys)
        (.cons (denotes_tag rfl)
          (.cons (ih f rfl selects) (.cons compared (.cons ofOperand .nil))))))

/-- What holds of names and of the values in a policy, and of arrays of what it holds of, holds of the
expression of the policy. -/
theorem expr_of_values {P : Value → Prop} (named : ∀ s, P (.string s))
    (array : ∀ {items : List Value}, (∀ v ∈ items, P v) → P (.array items)) {p : Policy}
    (each : ∀ v ∈ p.values, P v) : P p.expr := by
  induction p with
  | leaf c =>
    obtain ⟨operand, keys⟩ := List.forall_mem_cons.mp each
    have leaf : P (.array [.string c.operator, c.path.toValue, c.operand]) :=
      array (by simp [named, array keys, operand, Path.toValue])
    show P c.expr
    unfold Constraint.expr
    split
    · exact array (by simp [named, leaf])
    · exact leaf
  | connected connective parts ih =>
    rw [expr, exprs_eq_map]
    refine array (List.forall_mem_cons.mpr ⟨named _, List.forall_mem_map.mpr fun p member => ?_⟩)
    exact ih p member (forall_valuesOf.mp each p member)
  | negation p ih => exact array (by simp [named, ih each])
  | quantified quantifier binding filter body ihFilter ihBody =>
    cases filter with
    | none =>
      obtain ⟨keys, inner⟩ := List.forall_mem_append.mp each
      exact array (by simp [named, array keys, Path.toValue, ihBody inner])
    | some f =>
      obtain ⟨keys, parts⟩ := List.forall_mem_append.mp each
      obtain ⟨selects, inner⟩ := List.forall_mem_append.mp parts
      exact array (by simp [named, array keys, Path.toValue, ihFilter f rfl selects, ihBody inner])
  | counted binding filter comparator operand ih =>
    cases filter with
    | none =>
      obtain ⟨ofOperand, keys⟩ := List.forall_mem_cons.mp each
      exact array (by simp [named, array keys, Path.toValue, ofOperand])
    | some f =>
      obtain ⟨ofOperand, others⟩ := List.forall_mem_cons.mp each
      obtain ⟨keys, selects⟩ := List.forall_mem_append.mp others
      exact array (by simp [named, array keys, Path.toValue, ih f rfl selects, ofOperand])

/-- The expression of a policy has no numbers but those of its values. -/
theorem holdsIntegers_expr {p : Policy} (each : ∀ v ∈ p.values, v.HoldsIntegers) :
    p.expr.HoldsIntegers :=
  expr_of_values (P := Value.HoldsIntegers) (fun _ => nofun) Value.forall_numbers_array.mpr each

/-- The text of a policy is read as a value that equals its expression, and as the expression itself
if all numbers in the policy are held as integers. -/
theorem exists_read_text_expr {p : Policy} (ordered : ∀ v ∈ p.values, v.IsOrdered)
    (integral : ∀ v ∈ p.values, ∀ n ∈ v.numbers, n.isInteger = true)
    (size : (String.ofList p.text).utf8ByteSize < Notation.sizeLimit) (name : String) :
    ∃ w, Notation.Source.read ⟨name, String.ofList p.text⟩ = .ok w ∧ (w == p.expr) = true ∧
      ((∀ v ∈ p.values, v.HoldsIntegers) → w = p.expr) := by
  have denotes : Denotes p.text p.expr := denotes_text fun v member =>
    Notation.denotes_text (ordered v member) (integral v member)
  obtain ⟨w, read, same, kept⟩ := denotes.exists_read size name
  exact ⟨w, read, same, fun held => kept (holdsIntegers_expr held)⟩

/-- A negated leaf, an operator and keys that are no names, a filter, and operands of every kind. -/
theorem exists_read_text_expr_of_odd_names :
    let negated : Policy := .leaf
      { path := ⟨[.string "a b", .number (.int 0), .string ""]⟩, operator := ":",
        operand := .object [(.null, .set [.number (.int (-7)), .string "true"])], negated := true }
    let p : Policy := .connected .disjunction
      [.quantified .universal ⟨[.string "items"]⟩ (some negated) (.connected .conjunction []),
        .negation (.counted ⟨[.string "é\n\""]⟩ none "not" (.array [.bool true]))]
    (∀ v ∈ p.values, v.IsOrdered) ∧ (∀ v ∈ p.values, ∀ n ∈ v.numbers, n.isInteger = true) ∧
      (String.ofList p.text).utf8ByteSize < Notation.sizeLimit ∧
      ∃ w, Notation.Source.read ⟨"policy", String.ofList p.text⟩ = .ok w ∧ (w == p.expr) = true ∧
        ((∀ v ∈ p.values, v.HoldsIntegers) → w = p.expr) := by
  intro negated p
  have ordered : ∀ v ∈ p.values, v.IsOrdered := by decide +kernel
  have integral : ∀ v ∈ p.values, ∀ n ∈ v.numbers, n.isInteger = true := by decide +kernel
  have size : (String.ofList p.text).utf8ByteSize < Notation.sizeLimit := by decide +kernel
  exact ⟨ordered, integral, size, exists_read_text_expr ordered integral size "policy"⟩

end Policy

end ResidualPolicy
