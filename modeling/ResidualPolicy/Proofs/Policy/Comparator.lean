import ResidualPolicy.Proofs.Policy.Negation
import ResidualPolicy.Proofs.Policy.Reading

/-!
# Where inverse operators are exact

An operator with an exact inverse leaves no pair of value and operand undecided: one of the two holds. The
ordering comparators are inverses of each other only where the number of elements can be compared at all,
and that is where the operand is a number. An operand may be a text as well, since these operators order
texts too. No number of elements is comparable with a text, so neither of two opposite comparators holds.

`holds_countInverse_iff` says so for the predicates, `forall_evaluate_negate_counted_iff` for policies: the
rewritten negation of a count and the count under a negation part on some document exactly if an ordering
comparator has a text for its operand.
-/

namespace ResidualPolicy

/-! ## Predicates -/

namespace Builtin

variable {a b : Builtin}

theorem inverse?_eq_none_of_countInverse? (h : a.countInverse? = some b)
    (inexact : a.inverse? = none) : b.inverse? = none := by
  cases a <;> simp only [countInverse?, inverse?, Option.some.injEq, reduceCtorEq] at h inexact <;>
    subst h <;> rfl

/-- Opposite comparators are inverses of each other on a number exactly if it is compared with a number, or
if they are inverses on all values. -/
theorem holds_countInverse_iff [PatternEngine] (h : a.countInverse? = some b) (n : Number) {o : Value} :
    b.holds (.number n) o = !a.holds (.number n) o ↔ (a.inverse? = none → o.kind = .number) := by
  refine ⟨fun flipped inexact => ?_, fun ordered => holds_countInverse h n ordered⟩
  by_cases held : a.holds (.number n) o = true
  · exact kind_of_holds h inexact held
  · rw [Bool.eq_false_iff.mpr held] at flipped
    exact kind_of_holds (countInverse?_symm h) (inverse?_eq_none_of_countInverse? h inexact) flipped

/-- Of the comparators with an inverse, the orderings are those without an exact one. -/
theorem mem_orderings_iff (h : a.countInverse? = some b) :
    a.id ∈ ["<", ">", "<=", ">="] ↔ a.inverse? = none := by
  refine ⟨fun ordering => ?_, Policy.mem_orderings h⟩
  cases a <;> simp_all [inverse?, countInverse?, id]

/-- What is accepted as an operand of an ordering comparator. -/
theorem kind_of_check [PatternEngine] (ordering : a.id ∈ ["<", ">", "<=", ">="]) {o : Value}
    (accepted : a.operandKind.check o = .ok ()) : o.kind = .number ∨ o.kind = .string := by
  have orderable : a.operandKind = .orderable := by
    cases a <;> simp [id] at ordering <;> rfl
  rw [orderable] at accepted
  rcases o <;> simp [OperandKind.check, OperandKind.admits, Value.kind] at accepted ⊢

end Builtin

namespace Policy

/-- An ordering comparator that orders texts. -/
def OrdersText (comparator : String) (operand : Value) : Prop :=
  comparator ∈ ["<", ">", "<=", ">="] ∧ operand.kind = .string

instance (comparator : String) (operand : Value) : Decidable (OrdersText comparator operand) :=
  inferInstanceAs (Decidable (_ ∧ _))

theorem exists_inverseComparator {comparator : String}
    (ordering : comparator ∈ ["<", ">", "<=", ">="]) :
    ∃ inverse, inverseComparator? comparator = some inverse := by
  simp only [List.mem_cons, List.not_mem_nil, or_false] at ordering
  rcases ordering with rfl | rfl | rfl | rfl
  · exact ⟨">=", rfl⟩
  · exact ⟨"<=", rfl⟩
  · exact ⟨">", rfl⟩
  · exact ⟨"<", rfl⟩

/-- Of the accepted operands only texts make an ordering comparator differ from the negation of its
inverse. -/
theorem not_ordersText_iff [PatternEngine] {a b : Builtin} (h : a.countInverse? = some b)
    {operand : Value} (accepted : a.operandKind.check operand = .ok ()) :
    ¬ OrdersText a.id operand ↔ (a.inverse? = none → operand.kind = .number) := by
  unfold OrdersText
  rw [Builtin.mem_orderings_iff h, not_and]
  refine forall_congr' fun inexact => ⟨fun noText => ?_, fun number text => ?_⟩
  · have ordering := (Builtin.mem_orderings_iff h).mpr inexact
    exact (Builtin.kind_of_check ordering accepted).resolve_right noText
  · exact nomatch number.symm.trans text

/-! ## Documents made for a path -/

/-- A document in which a value stands at the end of a path. -/
def nest (keys : List Value) (v : Value) : Value :=
  keys.foldr (fun key inner => .object [(key, inner)]) v

theorem lookup?_nest (keys : List Value) (v : Value) : (nest keys v).lookup? keys = some v := by
  induction keys with
  | nil => rfl
  | cons key rest ih =>
    have under : (nest (key :: rest) v).get? key = some (nest rest v) := by
      show Ascending.get? key [(key, nest rest v)] = _
      rw [Ascending.get?_cons, Ascending.sameKey_self]
      rfl
    rw [Value.lookup?, under]
    exact ih

/-! ## Policies -/

variable {registry : Registry}

theorem negate_counted {path : Path} {filter : Option Policy} {a b : Builtin} {operand : Value}
    (h : a.countInverse? = some b) :
    (counted path filter a.id operand).negate = counted path filter b.id operand := by
  rw [negate, inverseComparator?_id h]

section

variable [PatternEngine]

/-- What a count of no elements gives. -/
theorem evaluate_counted_nest (builtins : registry.HasBuiltins) (path : Path)
    (filter : Option Policy) (a : Builtin) (operand : Value) (positive : Bool) :
    (counted path filter a.id operand).evaluateAt registry (nest path.keys (.array [])) .root
        positive =
      if a.holds (.ofNat 0) operand == positive then .ok .satisfied
      else .ok (.violated (countConstraint path a.id operand positive) (.ofNat 0)) := by
  have found : path.find? (nest path.keys (.array [])) = some (.array []) :=
    lookup?_nest path.keys _
  rw [evaluateAt, found, builtins.lookup a]
  show (if a.holds (.ofNat 0) operand == positive then _ else _) = _
  split <;> rfl

/-- A count and its rewritten negation part on a document without elements unless the comparators are
inverses of each other there. -/
theorem holds_of_forall_evaluate (builtins : registry.HasBuiltins) {path : Path}
    {filter : Option Policy} {a b : Builtin} {operand : Value}
    (same : ∀ document, (counted path filter b.id operand).evaluate registry document =
      (negation (counted path filter a.id operand)).evaluate registry document) :
    b.holds (.ofNat 0) operand = !a.holds (.ofNat 0) operand := by
  have empty := same (nest path.keys (.array []))
  rw [evaluate, evaluate, evaluateAt, evaluate_counted_nest builtins,
    show (!true) = false from rfl, evaluate_counted_nest builtins] at empty
  by_cases left : a.holds (.ofNat 0) operand = true <;>
    by_cases right : b.holds (.ofNat 0) operand = true <;>
    simp_all [Residual.violated]

/-- Rewriting the negation of a count never changes its outcome exactly if its comparator does not order
texts. -/
theorem forall_evaluate_negate_counted_iff (builtins : registry.HasBuiltins) {path : Path}
    {filter : Option Policy} {comparator : String} {operand : Value}
    (accepted : Takes comparator operand) :
    (∀ document, (counted path filter comparator operand).negate.evaluate registry document =
        (negation (counted path filter comparator operand)).evaluate registry document) ↔
      ¬ OrdersText comparator operand := by
  rcases paired : inverseComparator? comparator with _ | inverse
  · -- Without an inverse comparator the count is put under a negation as it stands.
    have kept : (counted path filter comparator operand).negate =
        .negation (counted path filter comparator operand) := by rw [negate, paired]
    refine ⟨fun _ text => ?_, fun _ document => by rw [kept]⟩
    obtain ⟨inverse, found⟩ := exists_inverseComparator text.1
    rw [found] at paired
    cases paired
  · obtain ⟨a, b, rfl, rfl, opposite⟩ := inverseComparator?_eq_some paired
    have checked : a.operandKind.check operand = .ok () := accepted a (Builtin.ofId?_id a)
    rw [negate_counted opposite, not_ordersText_iff opposite checked]
    constructor
    · intro same
      exact (Builtin.holds_countInverse_iff opposite (.ofNat 0)).mp
        (holds_of_forall_evaluate builtins same)
    · intro ordered document
      have complement (count : Nat) :
          b.holds (.ofNat count) operand = !a.holds (.ofNat count) operand :=
        Builtin.holds_countInverse opposite (.ofNat count) ordered
      rw [evaluate, evaluate, evaluateAt]
      exact evaluateAt_counted_of_complement builtins opposite complement

/-- Exact inverses hold where their operator does not, of every value and operand. Opposite comparators do
so of every number of elements and accepted operand unless they order texts, and then of none. A count that
was read keeps its outcome when its negation is rewritten under the same condition. -/
theorem inverse_exact_iff (builtins : registry.HasBuiltins) :
    (∀ id inverse, inverseOperator? id = some inverse →
      ∃ op op', registry.find? id = some op ∧ registry.find? inverse = some op' ∧
        ∀ v o, op'.holds v o = !op.holds v o) ∧
      (∀ comparator inverse, inverseComparator? comparator = some inverse →
        ∃ op op', registry.find? comparator = some op ∧ registry.find? inverse = some op' ∧
          ∀ (n : Nat) (operand whole : Value), checkOperand comparator operand whole = .ok () →
            (op'.holds (.ofNat n) operand = !op.holds (.ofNat n) operand ↔
              ¬ OrdersText comparator operand)) ∧
      (∀ e path filter comparator operand,
        ofExpr e = .ok (.counted path filter comparator operand) →
          ((∀ document,
              (counted path filter comparator operand).negate.evaluate registry document =
                (negation (counted path filter comparator operand)).evaluate registry document) ↔
            ¬ OrdersText comparator operand)) := by
  refine ⟨?operators, ?comparators, ?policies⟩
  case operators =>
    intro id inverse paired
    obtain ⟨a, b, rfl, rfl, exact⟩ := inverseOperator?_eq_some paired
    exact ⟨_, _, builtins a, builtins b, Builtin.holds_inverse exact⟩
  case comparators =>
    intro comparator inverse paired
    obtain ⟨a, b, rfl, rfl, opposite⟩ := inverseComparator?_eq_some paired
    refine ⟨_, _, builtins a, builtins b, fun n operand whole checked => ?_⟩
    have accepted := checkOperand_eq_ok.mp checked a (Builtin.ofId?_id a)
    rw [not_ordersText_iff opposite accepted]
    exact Builtin.holds_countInverse_iff opposite (.ofNat n)
  case policies =>
    intro e path filter comparator operand parsed
    rcases isRead_of_ofExpr parsed with _ | _ | _ | _ | ⟨_, _, _, takes⟩
    exact forall_evaluate_negate_counted_iff builtins takes

end

/-- The expression `[:count [:items] comparator operand]`. -/
def countItems (comparator : String) (operand : Value) : Value :=
  .array [.string "count", .array [.string "items"], .string comparator, operand]

/-- A count of more than three items is rewritten exactly, and so is `=` into `!=`. -/
theorem inverse_exact_iff_number :
    (counted ⟨[.string "items"]⟩ none ">" (.ofNat 3)).negate.evaluate .builtins
          (nest [.string "items"] (.array [.ofNat 1, .ofNat 2])) =
        (negation (counted ⟨[.string "items"]⟩ none ">" (.ofNat 3))).evaluate .builtins
          (nest [.string "items"] (.array [.ofNat 1, .ofNat 2])) ∧
      ∃ op op', Registry.builtins.find? "=" = some op ∧ Registry.builtins.find? "!=" = some op' ∧
        op'.holds (.ofNat 1) (.string "x") = !op.holds (.ofNat 1) (.string "x") := by
  obtain ⟨operators, -, policies⟩ := inverse_exact_iff Registry.hasBuiltins_builtins
  have parsed : ofExpr (countItems ">" (.ofNat 3)) =
    .ok (.counted ⟨[.string "items"]⟩ none ">" (.ofNat 3)) := rfl
  obtain ⟨op, op', left, right, exact⟩ := operators "=" "!=" rfl
  exact ⟨(policies _ _ _ _ _ parsed).mpr (by decide) _, op, op', left, right, exact _ _⟩

/-- With two items and a text as the bound neither `>` nor `<=` holds, and the two ways to negate the
count part. -/
theorem evaluate_negate_ne_of_text_bound :
    inverseComparator? ">" = some "<=" ∧
      ofExpr (countItems ">" (.string "x")) =
        .ok (.counted ⟨[.string "items"]⟩ none ">" (.string "x")) ∧
      Builtin.greater.holds (.ofNat 2) (.string "x") = false ∧
      Builtin.lessOrEqual.holds (.ofNat 2) (.string "x") = false ∧
      (negation (counted ⟨[.string "items"]⟩ none ">" (.string "x"))).evaluate .builtins
          (nest [.string "items"] (.array [.ofNat 1, .ofNat 2])) = .ok .satisfied ∧
      (counted ⟨[.string "items"]⟩ none ">" (.string "x")).negate.evaluate .builtins
          (nest [.string "items"] (.array [.ofNat 1, .ofNat 2])) =
        .ok (.violated ⟨⟨[.string "items"]⟩, "<=", .string "x", false⟩ (.ofNat 2)) :=
  ⟨rfl, rfl, rfl, rfl, rfl, rfl⟩

end Policy

end ResidualPolicy
