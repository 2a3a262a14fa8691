import ResidualPolicy.Pattern.Reader
import ResidualPolicy.Proofs.Policy.Reading
import ResidualPolicy.Proofs.Policy.Sameness

/-!
# Policies as expressions

A policy is written as nested tagged arrays and read back from them. Reading drops one colon in front
of an operator, a comparator or a key of a path, and writing adds none, so a name that still begins
with a colon after it was read loses that colon when the written form is read. A policy that was read
comes back exactly where no name in it begins with a colon (`Policy.exists_ofExpr_expr_iff`).
-/

namespace ResidualPolicy

/-- A name begins with a colon, which reading it would drop. -/
def LedByColon (s : String) : Prop :=
  s.toList.head? = some ':'

instance (s : String) : Decidable (LedByColon s) :=
  inferInstanceAs (Decidable (s.toList.head? = some ':'))

/-- The names among the keys of a path. -/
def Path.names (p : Path) : List String :=
  p.keys.filterMap fun
    | .string s => some s
    | _ => none

theorem Path.mem_names {p : Path} {s : String} : s ∈ p.names ↔ .string s ∈ p.keys := by
  rw [names, List.mem_filterMap]
  constructor
  · rintro ⟨key, member, found⟩
    cases key with
    | string t => exact Option.some.inj found ▸ member
    | _ => exact nomatch found
  · exact fun member => ⟨.string s, member, rfl⟩

namespace Policy

mutual

/-- The names of a policy that reading strips of a colon: operators, comparators and the names in
paths. -/
def names : Policy → List String
  | .leaf c => c.operator :: c.path.names
  | .connected _ parts => namesOf parts
  | .negation p => names p
  | .quantified _ binding none body => binding.names ++ names body
  | .quantified _ binding (some filter) body => binding.names ++ (names filter ++ names body)
  | .counted binding none comparator _ => comparator :: binding.names
  | .counted binding (some filter) comparator _ => comparator :: (binding.names ++ names filter)

/-- The names of several policies. -/
def namesOf : List Policy → List String
  | [] => []
  | p :: rest => names p ++ namesOf rest

end

theorem mem_namesOf {parts : List Policy} {name : String} :
    name ∈ namesOf parts ↔ ∃ p ∈ parts, name ∈ p.names := by
  induction parts with
  | nil => simp [namesOf]
  | cons p rest ih => simp [namesOf, ih]

/-! ## One name -/

theorem keyword_eq_self {s : String} : keyword s = s ↔ ¬LedByColon s := by
  unfold keyword LedByColon
  split
  · next rest led =>
    rw [led]
    refine ⟨fun kept => ?_, fun unled => absurd rfl unled⟩
    have shorter : rest = ':' :: rest := by rw [← led, ← kept, String.toList_ofList]
    exact absurd (congrArg List.length shorter) (Nat.ne_of_lt (Nat.lt_succ_self _))
  · next other =>
    refine ⟨fun _ led => ?_, fun _ => rfl⟩
    cases listed : s.toList with
    | nil => exact nomatch listed ▸ led
    | cons c rest =>
      rw [listed] at led
      exact other rest (listed.trans (Option.some.inj led ▸ rfl))

/-! ## Paths -/

theorem mapM_readKey_self {keys : List Value} (isKey : ∀ key ∈ keys, key.IsKey)
    (unled : ∀ s, .string s ∈ keys → ¬LedByColon s) : keys.mapM readKey = .ok keys := by
  induction keys with
  | nil => rfl
  | cons key keys ih =>
    obtain ⟨first, others⟩ := List.forall_mem_cons.mp isKey
    have here : readKey key = .ok key := by
      cases first with
      | name s => rw [readKey, keyword_eq_self.mpr (unled s (.head _))]
      | index natural => exact if_pos natural
    rw [List.mapM_cons, here, ok_bind, ih others fun s member => unled s (.tail _ member)]
    rfl

theorem unled_of_mapM_readKey {keys read : List Value} (h : keys.mapM readKey = .ok read)
    (same : Value.compareItems read keys = .eq) : ∀ s, .string s ∈ keys → ¬LedByColon s := by
  induction keys generalizing read with
  | nil => exact fun _ member => absurd member List.not_mem_nil
  | cons key keys ih =>
    rw [List.mapM_cons] at h
    obtain ⟨first, here, h⟩ := bind_eq_ok h
    obtain ⟨others, there, h⟩ := bind_eq_ok h
    rw [← Except.ok.inj h, Value.compareItems, Ordering.then_eq_eq] at same
    intro s member
    cases member with
    | head =>
      rw [← Except.ok.inj here] at same
      have equal : compare (keyword s) s = .eq := same.1
      exact keyword_eq_self.mp (Std.LawfulEqCmp.eq_of_compare equal)
    | tail _ member => exact ih there same.2 s member

/-- A path is read back where no name in it begins with a colon. -/
theorem readPath_toValue {p : Path} (isRead : p.IsRead) (unled : ∀ name ∈ p.names, ¬LedByColon name) :
    readPath p.toValue = .ok p := by
  obtain ⟨keys⟩ := p
  cases keys with
  | nil => exact absurd rfl isRead.occupied
  | cons key keys =>
    have each := mapM_readKey_self isRead.keys fun s member => unled s (Path.mem_names.mpr member)
    exact congrArg (Except.map Path.mk) each

theorem unled_of_readPath {p q : Path} (h : readPath p.toValue = .ok q) (same : (q == p) = true) :
    ∀ name ∈ p.names, ¬LedByColon name := by
  obtain ⟨keys, toValue, each, _⟩ := readPath_eq_ok h
  rw [← Value.array.inj toValue] at each
  intro name member
  exact unled_of_mapM_readKey each (eq_of_beq same) name (Path.mem_names.mp member)

/-! ## Whole policies -/

theorem form_tag (connective : Connective) :
    Form.ofTag (keyword connective.tag) = .connected connective := by
  cases connective <;> rfl

theorem form_quantifier (quantifier : Quantifier) :
    Form.ofTag (keyword quantifier.tag) = .quantified quantifier := by
  cases quantifier <;> rfl

theorem ofExpr_expr [PatternEngine] {p : Policy} (isRead : p.IsRead)
    (unled : ∀ name ∈ p.names, ¬LedByColon name) :
    ofExpr p.expr = .ok p := by
  induction isRead with
  | @leaf path operator operand places form takes =>
    obtain ⟨named, keys⟩ := List.forall_mem_cons.mp unled
    have form : Form.ofTag (keyword operator) = .constraint operator := by
      rw [keyword_eq_self.mpr named, form]
    exact ofExpr_of_reads (.leaf form (readPath_toValue places keys) takes)
  | @connected connective parts _ ih =>
    rw [expr, exprs_eq_map]
    refine ofExpr_of_reads (.connected (form_tag connective) ?_)
    rw [List.forall₂_map_left_iff, List.forall₂_same]
    exact fun p member => ih p member fun name within =>
      unled name (mem_namesOf.mpr ⟨p, member, within⟩)
  | negation _ ih => exact ofExpr_of_reads (.negation rfl (ih unled))
  | @quantified quantifier path filter body places _ _ ihFilter ihBody =>
    have form := form_quantifier quantifier
    cases filter with
    | none =>
      obtain ⟨keys, inner⟩ := List.forall_mem_append.mp unled
      exact ofExpr_of_reads (.quantified form (readPath_toValue places keys) (ihBody inner))
    | some f =>
      obtain ⟨keys, parts⟩ := List.forall_mem_append.mp unled
      obtain ⟨selects, inner⟩ := List.forall_mem_append.mp parts
      exact ofExpr_of_reads (.filtered form rfl (readPath_toValue places keys)
        (ihFilter f rfl selects) (ihBody inner))
  | @counted path filter comparator operand places _ named takes ih =>
    have form : Form.ofTag (keyword "count") = .counted := rfl
    have marked : isWhere (.string "where") = true := rfl
    cases filter with
    | none =>
      obtain ⟨compared, keys⟩ := List.forall_mem_cons.mp unled
      exact ofExpr_of_reads (.counted form (keyword_eq_self.mpr compared) named takes
        (readPath_toValue places keys))
    | some f =>
      obtain ⟨compared, parts⟩ := List.forall_mem_cons.mp unled
      obtain ⟨keys, selects⟩ := List.forall_mem_append.mp parts
      exact ofExpr_of_reads (.countedWhere form marked (keyword_eq_self.mpr compared) named takes
        (readPath_toValue places keys) (ih f rfl selects))

theorem same_leaf {path path' : Path} {operator operator' : String} {operand operand' : Value}
    (h : same (.leaf { path, operator, operand })
      (.leaf { path := path', operator := operator', operand := operand' }) = true) :
    (path == path') = true ∧ operator = operator' := by
  change Constraint.same _ _ = true at h
  simp only [Constraint.same, Bool.and_eq_true] at h
  exact ⟨h.1.1.1, beq_iff_eq.mp h.1.1.2⟩

theorem exists_of_forall₂_of_forall₂ {α β : Type} {related : α → β → Prop} {back : β → α → Prop}
    {xs : List α} {ys : List β} (there : List.Forall₂ related xs ys)
    (again : List.Forall₂ back ys xs) : ∀ x ∈ xs, ∃ y, related x y ∧ back y x := by
  induction there with
  | nil => exact fun _ member => absurd member List.not_mem_nil
  | cons first _ ih =>
    cases again with
    | cons here later => exact List.forall_mem_cons.mpr ⟨⟨_, first, here⟩, ih later⟩

/-- A name that begins with a colon is not read back. -/
theorem unled_of_ofExpr [PatternEngine] {p q : Policy} (isRead : p.IsRead)
    (read : ofExpr p.expr = .ok q)
    (alike : same q p = true) : ∀ name ∈ p.names, ¬LedByColon name := by
  induction isRead generalizing q with
  | @leaf path operator operand places form takes =>
    cases reads_of_ofExpr read with
    | leaf form places takes =>
      obtain ⟨paths, operators⟩ := same_leaf alike
      rw [ofTag_eq_constraint form] at operators
      exact List.forall_mem_cons.mpr ⟨keyword_eq_self.mp operators, unled_of_readPath places paths⟩
    | _ => exact absurd alike Bool.false_ne_true
  | @connected connective parts _ ih =>
    rw [expr, exprs_eq_map] at read
    generalize written : parts.map expr = es at read
    cases reads_of_ofExpr read with
    | @connected _ _ _ others form each =>
      rw [← written, List.forall₂_map_left_iff] at each
      have alikes := sameParts_iff.mp (Bool.and_eq_true_iff.mp alike).2
      intro name member
      obtain ⟨p, among, within⟩ := mem_namesOf.mp member
      obtain ⟨r, inner, alike⟩ := exists_of_forall₂_of_forall₂ each alikes p among
      exact ih p among inner alike name within
    | _ => exact absurd alike Bool.false_ne_true
  | negation _ ih =>
    cases reads_of_ofExpr read with
    | negation form inner => exact ih inner alike
    | _ => exact absurd alike Bool.false_ne_true
  | @quantified quantifier path filter body places _ _ ihFilter ihBody =>
    cases filter with
    | none =>
      rw [expr] at read
      generalize written : body.expr = e at read
      cases reads_of_ofExpr read with
      | quantified form places inner =>
        simp only [same, Bool.and_eq_true] at alike
        exact List.forall_mem_append.mpr
          ⟨unled_of_readPath places alike.1.2, ihBody (written ▸ inner) alike.2⟩
      | _ => exact absurd alike Bool.false_ne_true
    | some f =>
      rw [expr] at read
      generalize written : body.expr = e at read
      cases reads_of_ofExpr read with
      | filtered form marked places selects inner =>
        simp only [same, Bool.and_eq_true] at alike
        exact List.forall_mem_append.mpr ⟨unled_of_readPath places alike.1.1.2,
          List.forall_mem_append.mpr
            ⟨ihFilter f rfl selects alike.1.2, ihBody (written ▸ inner) alike.2⟩⟩
      | _ => exact absurd alike Bool.false_ne_true
  | @counted path filter comparator operand places _ named takes ih =>
    cases filter with
    | none =>
      cases reads_of_ofExpr read with
      | counted form compared named takes places =>
        simp only [same, Bool.and_eq_true] at alike
        rw [beq_iff_eq.mp alike.1.2] at compared
        exact List.forall_mem_cons.mpr
          ⟨keyword_eq_self.mp compared, unled_of_readPath places alike.1.1⟩
      | _ => exact absurd alike Bool.false_ne_true
    | some f =>
      cases reads_of_ofExpr read with
      | countedWhere form marked compared named takes places selects =>
        simp only [same, Bool.and_eq_true] at alike
        rw [beq_iff_eq.mp alike.1.2] at compared
        exact List.forall_mem_cons.mpr ⟨keyword_eq_self.mp compared,
          List.forall_mem_append.mpr
            ⟨unled_of_readPath places alike.1.1.1, ih f rfl selects alike.1.1.2⟩⟩
      | _ => exact absurd alike Bool.false_ne_true

/-- A policy that was read is read back from its expression, as the same policy, exactly where no
name in it begins with a colon. -/
theorem exists_ofExpr_expr_iff [PatternEngine] {e : Value} {p : Policy} (read : ofExpr e = .ok p) :
    (∃ q, ofExpr p.expr = .ok q ∧ (q == p) = true) ↔ ∀ name ∈ p.names, ¬LedByColon name := by
  have isRead := isRead_of_ofExpr read
  constructor
  · rintro ⟨q, again, alike⟩
    exact unled_of_ofExpr isRead again alike
  · exact fun unled => ⟨p, ofExpr_expr isRead unled, same_self p⟩

/-- A count of filtered elements, written with colons in front of its tags and names. -/
theorem exists_ofExpr_expr_iff_of_counted :
    let e : Value := .array [.string ":count", .array [.string ":users", .number (.ofNat 0)],
      .string ":where", .array [.string ":=", .array [.string ":role"], .string ":admin"],
      .string ":>", .number (.ofNat 2)]
    let p : Policy := .counted ⟨[.string "users", .number (.ofNat 0)]⟩
      (some (.leaf { path := ⟨[.string "role"]⟩, operator := "=", operand := .string ":admin" }))
      ">" (.number (.ofNat 2))
    ofExpr e = .ok p ∧ p.names = [">", "users", "=", "role"] ∧
      ∃ q, ofExpr p.expr = .ok q ∧ (q == p) = true := by
  intro e p
  have read : ofExpr e = .ok p := rfl
  have listed : p.names = [">", "users", "=", "role"] := rfl
  refine ⟨read, listed, (exists_ofExpr_expr_iff read).mpr ?_⟩
  rw [listed]
  decide

/-- Of two colons in front of a key the first reading drops one and the second the other. -/
theorem ofExpr_expr_ne :
    let e : Value := .array [.string "=", .array [.string "::a"], .number (.ofNat 1)]
    let p : Policy :=
      .leaf { path := ⟨[.string ":a"]⟩, operator := "=", operand := .number (.ofNat 1) }
    let q : Policy :=
      .leaf { path := ⟨[.string "a"]⟩, operator := "=", operand := .number (.ofNat 1) }
    ofExpr e = .ok p ∧ ofExpr p.expr = .ok q ∧ (q == p) = false :=
  ⟨rfl, rfl, rfl⟩

end Policy

end ResidualPolicy
