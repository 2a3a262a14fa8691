import ResidualPolicy.Proofs.Constraint

/-!
# Policies that are the same, form by form

Sameness of policies is coarser than equality, since numbers may be held in two ways. What is true of
policies that are the same is proved form by form (`Policy.same_induct`): sameness is an equivalence,
and the negations and the written forms of policies that are the same are the same.
-/

namespace ResidualPolicy

universe u v

/-! ## Paths and constraints -/

theorem Value.beq_iff {v w : Value} : (v == w) = true ↔ v.compare w = .eq := by
  show (v.compare w == .eq) = true ↔ _
  exact beq_iff_eq

theorem Value.array_same {xs ys : List Value}
    (each : List.Forall₂ (fun x y => (x == y) = true) xs ys) :
    (Value.array xs == Value.array ys) = true :=
  beq_iff.mpr (compareItems_eq_eq_iff.mpr (each.imp fun _ _ => beq_iff.mp))

namespace Path

theorem beq_iff_forall₂ {p q : Path} :
    (p == q) = true ↔ List.Forall₂ (fun x y => Value.compare x y = .eq) p.keys q.keys := by
  show (Value.compareItems p.keys q.keys == .eq) = true ↔ _
  exact beq_iff_eq.trans Value.compareItems_eq_eq_iff

theorem join_same {p p' q q' : Path} (first : (p == p') = true) (second : (q == q') = true) :
    (p.join q == p'.join q') = true := by
  rw [beq_iff_forall₂] at first second ⊢
  exact List.rel_append first second

theorem child_same {p q : Path} (same : (p == q) = true) {key key' : Value}
    (keys : (key == key') = true) : (p.child key == q.child key') = true := by
  rw [beq_iff_forall₂] at same ⊢
  exact List.rel_append same (.cons (Value.beq_iff.mp keys) .nil)

theorem toValue_same {p q : Path} (same : (p == q) = true) : (p.toValue == q.toValue) = true :=
  same

end Path

namespace Constraint

theorem beq_iff {c d : Constraint} :
    (c == d) = true ↔ (c.path == d.path) = true ∧ c.operator = d.operator ∧
      (c.operand == d.operand) = true ∧ c.negated = d.negated := by
  show same c d = true ↔ _
  simp only [same, Bool.and_eq_true, beq_iff_eq, and_assoc]

theorem under_same {c d : Constraint} (h : (c == d) = true) {place place' : Path}
    (places : (place == place') = true) : (c.under place == d.under place') = true := by
  obtain ⟨path, operator, operand, negated⟩ := beq_iff.mp h
  exact beq_iff.mpr ⟨Path.join_same places path, operator, operand, negated⟩

theorem inverse?_same {c d : Constraint} (h : (c == d) = true) :
    Option.Rel (fun c d => (c == d) = true) c.inverse? d.inverse? := by
  obtain ⟨path, id, operand, negated⟩ := c
  obtain ⟨path', id', operand', negated'⟩ := d
  obtain ⟨paths, operators, operands, flags⟩ := beq_iff.mp h
  change id = id' at operators
  change negated = negated' at flags
  subst operators flags
  unfold inverse?
  split
  · exact .some (beq_iff.mpr ⟨paths, rfl, operands, rfl⟩)
  · cases inverseOperator? id with
    | none => exact .none
    | some id => exact .some (beq_iff.mpr ⟨paths, rfl, operands, rfl⟩)

theorem withPolarity_same {c d : Constraint} (h : (c == d) = true) (positive : Bool) :
    (c.withPolarity positive == d.withPolarity positive) = true := by
  cases positive with
  | true => exact h
  | false =>
    obtain ⟨path, operator, operand, negated⟩ := beq_iff.mp h
    have inverted := inverse?_same h
    show (c.inverse == d.inverse) = true
    unfold inverse
    generalize c.inverse? = inverse, d.inverse? = inverse' at inverted ⊢
    cases inverted with
    | none => exact beq_iff.mpr ⟨path, operator, operand, rfl⟩
    | some same => exact same

theorem expr_same {c d : Constraint} (h : (c == d) = true) : (c.expr == d.expr) = true := by
  obtain ⟨path, operator, operand, negated⟩ := beq_iff.mp h
  have leaf : (Value.array [.string c.operator, c.path.toValue, c.operand] ==
      .array [.string d.operator, d.path.toValue, d.operand]) = true := by
    rw [operator]
    exact Value.array_same (.cons BEq.rfl (.cons (Path.toValue_same path) (.cons operand .nil)))
  unfold expr
  rw [negated]
  split
  · exact Value.array_same (.cons BEq.rfl (.cons leaf .nil))
  · exact leaf

end Constraint

/-! ## Policies -/

theorem rel_imp {α β : Type u} {related other : α → β → Prop} (h : ∀ a b, related a b → other a b)
    {x : Option α} {y : Option β} (both : Option.Rel related x y) : Option.Rel other x y := by
  cases both with
  | none => exact .none
  | some rel => exact .some (h _ _ rel)

theorem forall₂_imp_of_mem {α β : Type u} {related other : α → β → Prop} {xs : List α} {ys : List β}
    (both : List.Forall₂ related xs ys) (h : ∀ x ∈ xs, ∀ y ∈ ys, related x y → other x y) :
    List.Forall₂ other xs ys := by
  induction both with
  | nil => exact .nil
  | cons head _ ih =>
    exact .cons (h _ List.mem_cons_self _ List.mem_cons_self head)
      (ih fun x hx y hy => h x (List.mem_cons_of_mem _ hx) y (List.mem_cons_of_mem _ hy))

theorem forall₂_trans {α β γ : Type u} {first : α → β → Prop} {second : β → γ → Prop}
    {both : α → γ → Prop} (h : ∀ a b c, first a b → second b c → both a c) {xs : List α}
    {ys : List β} {zs : List γ} (here : List.Forall₂ first xs ys)
    (there : List.Forall₂ second ys zs) : List.Forall₂ both xs zs := by
  induction here generalizing zs with
  | nil =>
    cases there with
    | nil => exact .nil
  | cons head _ ih =>
    cases there with
    | cons head' rest' => exact .cons (h _ _ _ head head') (ih rest')

namespace Policy

theorem sameParts_iff {ps qs : List Policy} :
    sameParts ps qs = true ↔ List.Forall₂ (fun p q => same p q = true) ps qs := by
  induction ps generalizing qs with
  | nil => cases qs <;> simp [sameParts]
  | cons p ps ih => cases qs <;> simp [sameParts, ih]

theorem same_self (p : Policy) : same p p = true := by
  induction p with
  | leaf c => exact BEq.rfl (a := c)
  | connected connective parts ih => simp [same, sameParts_iff.mpr (List.forall₂_same.mpr ih)]
  | negation p ih => exact ih
  | quantified quantifier path filter body ihFilter ihBody =>
    cases filter with
    | none => simp [same, ihBody]
    | some f => simp [same, ihBody, ihFilter f rfl]
  | counted path filter comparator operand ih =>
    cases filter with
    | none => simp [same]
    | some f => simp [same, ih f rfl]

/-- Policies of the same form, with parts that are related. -/
inductive SameForm (related : Policy → Policy → Prop) : Policy → Policy → Prop where
  | leaf {c d : Constraint} (h : (c == d) = true) : SameForm related (.leaf c) (.leaf d)
  | connected (connective : Connective) {ps qs : List Policy} (parts : List.Forall₂ related ps qs) :
      SameForm related (.connected connective ps) (.connected connective qs)
  | negation {p q : Policy} (h : related p q) : SameForm related (.negation p) (.negation q)
  | quantified (quantifier : Quantifier) {path path' : Path} {filter filter' : Option Policy}
      {body body' : Policy} (paths : (path == path') = true)
      (filters : Option.Rel related filter filter') (bodies : related body body') :
      SameForm related (.quantified quantifier path filter body)
        (.quantified quantifier path' filter' body')
  | counted {path path' : Path} {filter filter' : Option Policy} (comparator : String)
      {operand operand' : Value} (paths : (path == path') = true)
      (filters : Option.Rel related filter filter') (operands : (operand == operand') = true) :
      SameForm related (.counted path filter comparator operand)
        (.counted path' filter' comparator operand')

/-- Policies are the same when they are of the same form and their parts are the same. -/
theorem same_iff {p q : Policy} :
    same p q = true ↔ SameForm (fun p q => same p q = true) p q := by
  constructor
  · intro h
    unfold same at h
    split at h
    · exact .leaf h
    · rw [Bool.and_eq_true, beq_iff_eq] at h
      obtain ⟨rfl, parts⟩ := h
      exact .connected _ (sameParts_iff.mp parts)
    · exact .negation h
    · simp only [Bool.and_eq_true, beq_iff_eq] at h
      obtain ⟨⟨rfl, paths⟩, bodies⟩ := h
      exact .quantified _ paths .none bodies
    · simp only [Bool.and_eq_true, beq_iff_eq] at h
      obtain ⟨⟨⟨rfl, paths⟩, filters⟩, bodies⟩ := h
      exact .quantified _ paths (.some filters) bodies
    · simp only [Bool.and_eq_true, beq_iff_eq] at h
      obtain ⟨⟨paths, rfl⟩, operands⟩ := h
      exact .counted _ paths .none operands
    · simp only [Bool.and_eq_true, beq_iff_eq] at h
      obtain ⟨⟨⟨paths, filters⟩, rfl⟩, operands⟩ := h
      exact .counted _ paths (.some filters) operands
    · exact nomatch h
  · intro form
    cases form with
    | leaf h => exact h
    | connected connective parts =>
      rw [same, sameParts_iff.mpr parts, BEq.rfl]
      rfl
    | negation h => exact h
    | quantified quantifier paths filters bodies =>
      cases filters with
      | none => simp [same, paths, bodies]
      | some filters => simp [same, paths, filters, bodies]
    | counted comparator paths filters operands =>
      cases filters with
      | none => simp [same, paths, operands]
      | some filters => simp [same, paths, filters, operands]

/-- Induction on two policies that are the same, with one case for each form. -/
theorem same_induct {motive : Policy → Policy → Prop}
    (step : ∀ p q, same p q = true → SameForm (fun p q => same p q = true ∧ motive p q) p q →
      motive p q)
    {p q : Policy} (h : same p q = true) : motive p q := by
  have filter {f? g? : Option Policy} (related : Option.Rel (fun p q => same p q = true) f? g?)
      (ih : ∀ f ∈ f?, ∀ {q}, same f q = true → motive f q) :
      Option.Rel (fun p q => same p q = true ∧ motive p q) f? g? := by
    cases related with
    | none => exact .none
    | some h => exact .some ⟨h, ih _ rfl h⟩
  induction p generalizing q with
  | leaf c =>
    cases same_iff.mp h with
    | leaf equal => exact step _ _ h (.leaf equal)
  | connected connective ps ih =>
    cases same_iff.mp h with
    | connected _ parts =>
      refine step _ _ h (.connected _ ?_)
      exact ((List.forall₂_and_left ps _).mpr ⟨ih, parts⟩).imp fun p q both =>
        ⟨both.2, both.1 both.2⟩
  | negation p ih =>
    cases same_iff.mp h with
    | negation inner => exact step _ _ h (.negation ⟨inner, ih inner⟩)
  | quantified quantifier path f? body ihFilter ihBody =>
    cases same_iff.mp h with
    | quantified _ paths filters bodies =>
      exact step _ _ h (.quantified _ paths (filter filters ihFilter) ⟨bodies, ihBody bodies⟩)
  | counted path f? comparator operand ih =>
    cases same_iff.mp h with
    | counted _ paths filters operands =>
      exact step _ _ h (.counted _ paths (filter filters ih) operands)

instance : ReflBEq Policy where
  rfl := same_self _

/-- Sameness of policies is an equivalence. -/
instance : EquivBEq Policy where
  symm {p q} h := by
    refine same_induct (motive := fun p q => same q p = true) (fun p q _ form => ?_) h
    rw [same_iff]
    have turned {f? g? : Option Policy}
        (filters : Option.Rel (fun p q => same p q = true ∧ same q p = true) f? g?) :
        Option.Rel (fun p q => same p q = true) g? f? := by
      cases filters with
      | none => exact .none
      | some both => exact .some both.2
    cases form with
    | leaf h => exact .leaf (BEq.symm h)
    | connected connective parts => exact .connected _ (parts.imp fun _ _ => And.right).flip
    | negation h => exact .negation h.2
    | quantified quantifier paths filters bodies =>
      exact .quantified _ (BEq.symm paths) (turned filters) bodies.2
    | counted comparator paths filters operands =>
      exact .counted _ (BEq.symm paths) (turned filters) (BEq.symm operands)
  trans {p q r} h h' := by
    refine same_induct (motive := fun p q => ∀ r, same q r = true → same p r = true)
      (fun p q _ form => ?_) h r h'
    intro r h'
    rw [same_iff]
    have joined {f? g? h? : Option Policy}
        (filters : Option.Rel (fun p q => same p q = true ∧ ∀ r, same q r = true → same p r = true)
          f? g?) (others : Option.Rel (fun p q => same p q = true) g? h?) :
        Option.Rel (fun p q => same p q = true) f? h? := by
      cases filters with
      | none => exact others
      | some both =>
        cases others with
        | some h => exact .some (both.2 _ h)
    cases form with
    | leaf h =>
      cases same_iff.mp h' with
      | leaf h' => exact .leaf (BEq.trans h h')
    | connected connective parts =>
      cases same_iff.mp h' with
      | connected _ parts' =>
        exact .connected _ (forall₂_trans (fun _ _ _ both h => both.2 _ h) parts parts')
    | negation h =>
      cases same_iff.mp h' with
      | negation h' => exact .negation (h.2 _ h')
    | quantified quantifier paths filters bodies =>
      cases same_iff.mp h' with
      | quantified _ paths' filters' bodies' =>
        exact .quantified _ (BEq.trans paths paths') (joined filters filters') (bodies.2 _ bodies')
    | counted comparator paths filters operands =>
      cases same_iff.mp h' with
      | counted _ paths' filters' operands' =>
        exact .counted _ (BEq.trans paths paths') (joined filters filters')
          (BEq.trans operands operands')

theorem tag_same {p q : Policy} (h : same p q = true) : p.tag = q.tag := by
  cases same_iff.mp h <;> rfl

/-- Negations of policies that are the same are the same. -/
theorem negate_same {p q : Policy} (h : same p q = true) : same p.negate q.negate = true := by
  refine same_induct (motive := fun p q => same p.negate q.negate = true) (fun p q _ form => ?_) h
  rw [same_iff]
  cases form with
  | @leaf c d h =>
    have inverted := Constraint.inverse?_same h
    rw [negate, negate]
    generalize c.inverse? = inverse, d.inverse? = inverse' at inverted ⊢
    cases inverted with
    | none => exact .negation h
    | some same => exact .leaf same
  | connected connective parts =>
    rw [negate, negate, negateParts_eq_map, negateParts_eq_map]
    refine .connected _ ?_
    rw [List.forall₂_map_left_iff, List.forall₂_map_right_iff]
    exact parts.imp fun _ _ => And.right
  | negation h => exact same_iff.mp h.1
  | quantified quantifier paths filters bodies =>
    exact .quantified _ paths (rel_imp (fun _ _ => And.left) filters) bodies.2
  | counted comparator paths filters operands =>
    have filters := rel_imp (fun _ _ => And.left) filters
    rw [negate, negate]
    cases inverseComparator? comparator with
    | none => exact .negation (same_iff.mpr (.counted _ paths filters operands))
    | some inverse => exact .counted _ paths filters operands

theorem withPolarity_same {p q : Policy} (h : same p q = true) (positive : Bool) :
    same (p.withPolarity positive) (q.withPolarity positive) = true := by
  cases positive
  · exact negate_same h
  · exact h

/-- Policies that are the same are written the same, up to how numbers are held. -/
theorem expr_same {p q : Policy} (h : same p q = true) : (p.expr == q.expr) = true := by
  refine same_induct (motive := fun p q => (p.expr == q.expr) = true) (fun p q _ form => ?_) h
  cases form with
  | leaf h => exact Constraint.expr_same h
  | connected connective parts =>
    rw [expr, expr, exprs_eq_map, exprs_eq_map]
    refine Value.array_same (.cons BEq.rfl ?_)
    rw [List.forall₂_map_left_iff, List.forall₂_map_right_iff]
    exact parts.imp fun _ _ => And.right
  | negation h => exact Value.array_same (.cons BEq.rfl (.cons h.2 .nil))
  | quantified quantifier paths filters bodies =>
    cases filters with
    | none =>
      exact Value.array_same (.cons BEq.rfl (.cons paths (.cons bodies.2 .nil)))
    | some filters =>
      exact Value.array_same (.cons BEq.rfl (.cons paths (.cons BEq.rfl
        (.cons filters.2 (.cons bodies.2 .nil)))))
  | counted comparator paths filters operands =>
    cases filters with
    | none =>
      exact Value.array_same (.cons BEq.rfl (.cons paths (.cons BEq.rfl (.cons operands .nil))))
    | some filters =>
      exact Value.array_same (.cons BEq.rfl (.cons paths (.cons BEq.rfl
        (.cons filters.2 (.cons BEq.rfl (.cons operands .nil))))))

end Policy

end ResidualPolicy
