import ResidualPolicy.Proofs.Evaluation.Sameness
import ResidualPolicy.Proofs.Value.Equality

/-!
# Equal inputs evaluate to the same

Equality of documents and of policies does not look at how numbers are held: as keys of objects and
of paths, as members of sets, as operands. Lookups and built-in operators do not look at it either,
so equal documents are alike (`Likeness.ofEqual`) and equal policies have equal residuals on them.

Only for indices of arrays does the form of a number matter: a double counts as an index only up to
`2 ^ 53`.
-/

namespace ResidualPolicy

variable {registry : Registry}

/-- Equal documents with short arrays are alike. -/
theorem Likeness.ofEqual (lawful : registry.Lawful) (operands : List Value) :
    Likeness registry operands fun v w => (v == w) = true ∧ v.HasShortArrays where
  equal v w h := h.1
  count n := ⟨BEq.rfl, List.forall_mem_singleton.mpr trivial⟩
  find v w h p q same := by
    obtain ⟨equal, short⟩ := h
    -- The paths differ on the first document only, the documents under the second path only.
    have there : p.find? v = q.find? v := Path.find?_congr short.arraysFit same
    have alike : Option.Rel (fun x y => (x == y) = true) (q.find? v) (q.find? w) :=
      Value.lookup?_of_equal equal q.keys
    have inside (found : Value) (h : q.find? v = some found) : found.HasShortArrays :=
      Value.forall_parts_lookup? short h
    rw [there]
    generalize q.find? v = found?, q.find? w = found?' at alike inside ⊢
    cases alike with
    | none => exact .none
    | some same => exact .some ⟨same, inside _ rfl⟩
  elements v w h := by
    obtain ⟨equal, short⟩ := h
    have alike := Value.elements?_of_equal equal
    have inside (elements : List (Value × Value)) (h : v.elements? = some elements) :
        ∀ element ∈ elements, element.2.HasShortArrays := Value.forall_parts_elements? short h
    generalize v.elements? = elements?, w.elements? = elements?' at alike inside ⊢
    cases alike with
    | none => exact .none
    | some each =>
      refine .some (forall₂_imp_of_mem each fun a member b _ both => ?_)
      exact ⟨both.1, both.2, inside _ rfl a member⟩
  holds id op registered v w h o _ u _ same := lawful id op registered v w o u h.1 same

/-- Equal inputs are interchangeable: policies that are equal, on documents that are equal, fail for
the same operator or return residuals that are equal. -/
theorem Policy.evaluate_of_equal [PatternEngine] {start : Registry} (initial : start.IsInitial)
    {ops : List Operator} (respects : ∀ op ∈ ops, op.RespectsEquality) {p q : Policy}
    (policies : (p == q) = true) {v w : Value} (documents : (v == w) = true)
    (short : v.HasShortArrays) :
    (∃ e, p.evaluate (start.after ops) v = .error e ∧ q.evaluate (start.after ops) w = .error e) ∨
      ∃ r s, p.evaluate (start.after ops) v = .ok r ∧ q.evaluate (start.after ops) w = .ok s ∧
        (r == s) = true := by
  have lawful := initial.lawful.after respects
  have likeness := Likeness.ofEqual lawful (p.operandList ++ q.operandList)
  have places : (Path.root == Path.root) = true := BEq.rfl
  have alike := evaluateAt_same likeness (fun o => List.mem_append_left _)
    (fun o => List.mem_append_right _) policies ⟨documents, short⟩ places true
  unfold evaluate
  generalize p.evaluateAt _ v .root true = x, q.evaluateAt _ w .root true = y at alike ⊢
  cases alike with
  | error e => exact .inl ⟨e, rfl, rfl⟩
  | ok same => exact .inr ⟨_, _, rfl, rfl, Residual.beq_iff_sameAs.mpr same⟩

/-- Integers held as doubles: as the key of an object, in an array, in a set, in a path that indexes
the array, and as an operand. -/
theorem Policy.evaluate_of_equal_of_doubles :
    let like : Operator := ⟨"like", fun v o => v == o, .any, false⟩
    let int : Value := .number (.int 1)
    let double : Value := .number (.float ⟨0x3FF0000000000000⟩)
    let document (one : Value) : Value :=
      .object [(one, .array [one, .set [one, .string "a"]])]
    let policy (one : Value) : Policy := .quantified .universal ⟨[one, one]⟩
      (some (.leaf { path := .root, operator := "<=", operand := one }))
      (.negation (.leaf { path := .root, operator := "like", operand := one }))
    Registry.builtins.IsInitial ∧ (∀ op ∈ [like], op.RespectsEquality) ∧
      (policy int == policy double) = true ∧ (document int == document double) = true ∧
      (document int).HasShortArrays ∧
      ∃ r s, (policy int).evaluate (Registry.builtins.after [like]) (document int) = .ok r ∧
        (policy double).evaluate (Registry.builtins.after [like]) (document double) = .ok s ∧
        r.isSatisfied = false ∧ (r == s) = true := by
  intro like int double document policy
  have initial : Registry.builtins.IsInitial := .inl rfl
  have respects : ∀ op ∈ [like], op.RespectsEquality :=
    List.forall_mem_singleton.mpr (Operator.respectsEquality_of_eq (f := id) fun _ _ => rfl)
  have policies : (policy int == policy double) = true := by decide +kernel
  have documents : (document int == document double) = true := by decide +kernel
  have short : (document int).HasShortArrays := by decide +kernel
  have violated : ((policy int).evaluate (Registry.builtins.after [like]) (document int)).map
      Residual.isSatisfied = .ok false := by decide +kernel
  obtain ⟨r, returned, violated⟩ := map_eq_ok violated
  refine ⟨initial, respects, policies, documents, short, ?_⟩
  rcases evaluate_of_equal initial respects policies documents short with
    ⟨e, failed, -⟩ | ⟨r', s, returned', other, same⟩
  · exact nomatch returned.symm.trans failed
  · cases Except.ok.inj (returned.symm.trans returned')
    exact ⟨r, s, returned, other, violated, same⟩

end ResidualPolicy
