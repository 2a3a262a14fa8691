import ResidualPolicy.Operator
import ResidualPolicy.Proofs.Ascending
import ResidualPolicy.Proofs.Value.Order

/-!
# Laws of the built-in operators

Three things that the rest of the program relies on. An operator gives the same answer on equal
values and operands. Building the operand into an operator does not change its answers. And an
inverse holds exactly where its operator does not: of any value for the exact inverses, of numbers
of elements and numbers to compare them with for the inverses of the ordering operators.
-/

namespace ResidualPolicy

namespace Builtin

/-! ## Sameness of answers -/

theorem order?_congr {v w o u : Value} (hv : (v == w) = true) (ho : (o == u) = true) :
    order? v o = order? w u := by
  have kindV := Value.kind_eq_of_beq hv
  have kindO := Value.kind_eq_of_beq ho
  cases v with
  | number m =>
    cases w <;> cases kindV
    next m' =>
    cases o with
    | number n =>
      cases u <;> cases kindO
      next n' =>
      have left : Ord.compare m m' = .eq := beq_iff_eq.mp hv
      have right : Ord.compare n n' = .eq := beq_iff_eq.mp ho
      show some (Ord.compare m n) = some (Ord.compare m' n')
      rw [Std.TransCmp.congr_left left, Std.TransCmp.congr_right right]
    | _ =>
      cases u <;> cases kindO
      rfl
  | string s =>
    rw [Value.eq_of_string_beq hv]
    cases o with
    | string t => rw [Value.eq_of_string_beq ho]
    | _ =>
      cases u <;> cases kindO
      rfl
  | _ =>
    cases w <;> cases kindV
    rfl

theorem any_beq_eq_hasMember (v : Value) (items : List Value) :
    (items.any fun item => item == v) = Ascending.hasMember v items := by
  unfold Ascending.hasMember
  congr 1
  funext item
  exact BEq.comm

theorem isItem_array (v : Value) (items : List Value) :
    isItem v (.array items) = Ascending.hasMember v items :=
  any_beq_eq_hasMember v items

theorem hasMember_congr {v w : Value} (h : (v == w) = true) {xs ys : List Value}
    (hxs : List.Forall₂ (fun x y => Value.compare x y = .eq) xs ys) :
    Ascending.hasMember v xs = Ascending.hasMember w ys := by
  induction hxs with
  | nil => rfl
  | @cons x y xs ys same _ ih =>
    have head : Ascending.sameKey v x = Ascending.sameKey w y := by
      rw [Ascending.sameKey_congr (show Ascending.sameKey v w = true from h)]
      exact Ascending.sameKey_congr_right same w
    simp only [Ascending.hasMember, List.any_cons] at ih ⊢
    rw [head, ih]

theorem isItem_congr {v w o u : Value} (hv : (v == w) = true) (ho : (o == u) = true) :
    isItem v o = isItem w u := by
  have kind := Value.kind_eq_of_beq ho
  cases o with
  | array xs =>
    cases u <;> cases kind
    next ys =>
    rw [isItem_array, isItem_array]
    exact hasMember_congr hv (Value.compareItems_eq_eq_iff.mp (beq_iff_eq.mp ho))
  | set xs =>
    cases u <;> cases kind
    exact hasMember_congr hv (Value.compareItems_eq_eq_iff.mp (beq_iff_eq.mp ho))
  | _ =>
    cases u <;> cases kind
    rfl

/-- What is false of everything but two strings does not distinguish equal values. -/
theorem congr_of_strings {f : Value → Value → Bool}
    (other : ∀ v o, v.kind ≠ .string ∨ o.kind ≠ .string → f v o = false) {v w o u : Value}
    (hv : (v == w) = true) (ho : (o == u) = true) : f v o = f w u := by
  have kindV := Value.kind_eq_of_beq hv
  have kindO := Value.kind_eq_of_beq ho
  by_cases strings : v.kind = .string ∧ o.kind = .string
  · cases v <;> cases strings.1
    cases o <;> cases strings.2
    rw [Value.eq_of_string_beq hv, Value.eq_of_string_beq ho]
  · rw [other v o (by grind), other w u (by grind)]

theorem relates_congr {related : List Char → List Char → Bool} {v w o u : Value}
    (hv : (v == w) = true) (ho : (o == u) = true) : relates related v o = relates related w u := by
  refine congr_of_strings (fun v o apart => ?_) hv ho
  cases v <;> cases o <;> first | rfl | simp [Value.kind] at apart

theorem fits_congr [PatternEngine] {v w o u : Value} (hv : (v == w) = true) (ho : (o == u) = true) :
    fits v o = fits w u := by
  refine congr_of_strings (fun v o apart => ?_) hv ho
  cases v <;> cases o <;> first | rfl | simp [Value.kind] at apart

theorem holdsPart_congr {v w o u : Value} (hv : (v == w) = true) (ho : (o == u) = true) :
    holdsPart v o = holdsPart w u := by
  have kindV := Value.kind_eq_of_beq hv
  have kindO := Value.kind_eq_of_beq ho
  cases v with
  | string s =>
    rw [Value.eq_of_string_beq hv]
    cases o with
    | string t => rw [Value.eq_of_string_beq ho]
    | _ =>
      cases u <;> cases kindO
      rfl
  | array xs =>
    cases w <;> cases kindV
    exact isItem_congr ho hv
  | set xs =>
    cases w <;> cases kindV
    exact isItem_congr ho hv
  | _ =>
    cases w <;> cases kindV
    rfl

/-- Built-in operators do not distinguish equal values. -/
theorem holds_congr [PatternEngine] (builtin : Builtin) {v w o u : Value} (hv : (v == w) = true)
    (ho : (o == u) = true) : builtin.holds v o = builtin.holds w u := by
  have equal : (v == o) = (w == u) := by
    rw [BEq.congr_left hv, BEq.congr_right ho]
  cases builtin <;>
    simp only [holds, equal, order?_congr hv ho, isItem_congr hv ho, holdsPart_congr hv ho,
      relates_congr hv ho, fits_congr hv ho]

/-! ## Operands known in advance -/

theorem boundCheck_eq (accepts : Ordering → Bool) (v o : Value) :
    boundCheck accepts o v = (order? v o).any accepts := by
  cases o <;> cases v <;> rfl

theorem hasMember_membersOf (v o : Value) : Ascending.hasMember v (membersOf o) = isItem v o := by
  cases o with
  | array items => rw [membersOf, Ascending.hasMember_ofMembers, isItem_array]; rfl
  | _ => rfl

theorem patternCheck_patternOf? [PatternEngine] (v o : Value) :
    patternCheck (patternOf? o) v = fits v o := by
  cases v with
  | string s =>
    cases o with
    | string text =>
      simp only [patternOf?, patternCheck, fits]
      cases PatternEngine.read text <;> rfl
    | _ => rfl
  | _ => cases o <;> rfl

/-- Building the operand into an operator does not change its answers. -/
theorem check_eq_holds [PatternEngine] (builtin : Builtin) (v o : Value) :
    builtin.check o v = builtin.holds v o := by
  cases builtin <;>
    simp only [check, holds, boundCheck_eq, hasMember_membersOf, patternCheck_patternOf?]

/-! ## Inverses -/

section

variable [PatternEngine]

/-- An exact inverse holds exactly where its operator does not. -/
theorem holds_inverse {a b : Builtin} (h : a.inverse? = some b) (v o : Value) :
    b.holds v o = !a.holds v o := by
  -- Only operators whose inverse is defined as their negation have an exact one.
  cases a <;> simp only [inverse?, Option.some.injEq, reduceCtorEq] at h <;> subst h <;>
    simp only [holds, Bool.not_not]

/-- Comparators other than the exactly invertible ones are inverses of each other on numbers. -/
theorem holds_countInverse {a b : Builtin} (h : a.countInverse? = some b) (n : Number) {o : Value}
    (ordered : a.inverse? = none → o.kind = .number) :
    b.holds (.number n) o = !a.holds (.number n) o := by
  cases exact : a.inverse? with
  | some c =>
    have same : c = b := by
      cases a <;> simp_all [inverse?, countInverse?]
    exact same ▸ holds_inverse exact _ _
  | none =>
    -- What is left are the ordering comparators, and numbers are always comparable.
    have number := ordered exact
    cases o <;> cases number
    next m =>
    cases a <;> simp only [countInverse?, inverse?, Option.some.injEq, reduceCtorEq] at h exact <;>
      subst h <;> simp only [holds, order?, Option.any_some] <;>
      cases Ord.compare n m <;> rfl

/-- An ordering comparator holds of a number only with another number. -/
theorem kind_of_holds {a b : Builtin} (h : a.countInverse? = some b) (inexact : a.inverse? = none)
    {n : Number} {o : Value} (held : a.holds (.number n) o = true) : o.kind = .number := by
  cases o with
  | number m => rfl
  | _ =>
    cases a <;> simp only [countInverse?, inverse?, reduceCtorEq] at h inexact <;>
      simp [holds, order?] at held

/-- Where a comparator holds of a number, its inverse does not, whatever the operand is. -/
theorem holds_countInverse_of_holds {a b : Builtin} (h : a.countInverse? = some b) {n : Number}
    {o : Value} (held : a.holds (.number n) o = true) : b.holds (.number n) o = false := by
  rw [holds_countInverse h n fun inexact => kind_of_holds h inexact held, held]
  rfl

end

/-! ## By name -/

theorem id_of_ofId? {id : String} {builtin : Builtin} (h : ofId? id = some builtin) :
    builtin.id = id :=
  beq_iff_eq.mp (List.find?_some (p := fun builtin : Builtin => builtin.id == id) h)

end Builtin

theorem inverseOperator?_eq_some {id inverse : String} (h : inverseOperator? id = some inverse) :
    ∃ a b : Builtin, a.id = id ∧ b.id = inverse ∧ a.inverse? = some b := by
  obtain ⟨b, found, rfl⟩ := Option.map_eq_some_iff.mp h
  obtain ⟨a, known, paired⟩ := Option.bind_eq_some_iff.mp found
  exact ⟨a, b, Builtin.id_of_ofId? known, rfl, paired⟩

theorem inverseComparator?_eq_some {id inverse : String}
    (h : inverseComparator? id = some inverse) :
    ∃ a b : Builtin, a.id = id ∧ b.id = inverse ∧ a.countInverse? = some b := by
  obtain ⟨b, found, rfl⟩ := Option.map_eq_some_iff.mp h
  obtain ⟨a, known, paired⟩ := Option.bind_eq_some_iff.mp found
  exact ⟨a, b, Builtin.id_of_ofId? known, rfl, paired⟩

theorem inverseComparator?_id {a b : Builtin} (h : a.countInverse? = some b) :
    inverseComparator? a.id = some b.id := by
  rw [inverseComparator?, Builtin.ofId?_id, Option.bind_some, h]
  rfl

theorem inverseComparator?_symm {id inverse : String} (h : inverseComparator? id = some inverse) :
    inverseComparator? inverse = some id := by
  obtain ⟨a, b, rfl, rfl, paired⟩ := inverseComparator?_eq_some h
  exact inverseComparator?_id (Builtin.countInverse?_symm paired)

theorem exists_of_isBuiltin {id : String} (h : isBuiltin id = true) :
    ∃ builtin : Builtin, builtin.id = id := by
  obtain ⟨builtin, found⟩ := Option.isSome_iff_exists.mp h
  exact ⟨builtin, Builtin.id_of_ofId? found⟩

theorem isBuiltin_id (builtin : Builtin) : isBuiltin builtin.id = true := by
  rw [isBuiltin, Builtin.ofId?_id]
  rfl

end ResidualPolicy
