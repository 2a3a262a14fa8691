import Mathlib
import ResidualPolicy.Proofs.Number.Digest
import ResidualPolicy.Proofs.Number.WholePart

/-!
# Equality, order and digest of values agree

Three functions look at the structure of values, each for itself: equality (`equal`), the order
(`compare`) and the digest. They agree: values are equal when neither comes before the other, and equal
values have equal digests. Together with the order being total this is what makes the two ways of
keeping values apart interchangeable. A hash table, which asks for digest and equality, and a search
tree, which asks for the order only, hold the same number of values of any list.
-/

namespace ResidualPolicy

namespace Value

/-! ## Structural equality -/

mutual

/-- Whether two values have the same structure and equal scalars. -/
def equal : Value → Value → Bool
  | .null, .null => true
  | .bool a, .bool b => a == b
  | .number m, .number n => m == n
  | .string s, .string t => s == t
  | .array xs, .array ys => equalItems xs ys
  | .set xs, .set ys => equalItems xs ys
  | .object xs, .object ys => equalEntries xs ys
  | _, _ => false

/-- Equality item by item. -/
def equalItems : List Value → List Value → Bool
  | [], [] => true
  | x :: xs, y :: ys => equal x y && equalItems xs ys
  | _, _ => false

/-- Equality entry by entry. -/
def equalEntries : List (Value × Value) → List (Value × Value) → Bool
  | [], [] => true
  | (k, v) :: xs, (l, w) :: ys => equal k l && equal v w && equalEntries xs ys
  | _, _ => false

end

theorem then_beq_eq (first second : Ordering) :
    (first.then second == .eq) = (first == .eq && second == .eq) := by
  rcases first <;> rfl

mutual

/-- Values are equal when neither comes before the other. -/
theorem equal_eq_beq (v w : Value) : equal v w = (compare v w == .eq) := by
  rcases v with _ | a | m | s | xs | xs | xs <;> rcases w with _ | b | n | t | ys | ys | ys <;>
    try rfl
  · rcases a <;> rcases b <;> rfl
  · rw [equal, compare, Bool.eq_iff_iff, beq_iff_eq, beq_iff_eq]
    exact Std.LawfulEqOrd.compare_eq_iff_eq.symm
  · exact equalItems_eq_beq xs ys
  · exact equalItems_eq_beq xs ys
  · exact equalEntries_eq_beq xs ys

theorem equalItems_eq_beq (xs ys : List Value) :
    equalItems xs ys = (compareItems xs ys == .eq) := by
  rcases xs with _ | ⟨x, xs⟩ <;> rcases ys with _ | ⟨y, ys⟩ <;> try rfl
  rw [equalItems, compareItems, then_beq_eq, equal_eq_beq x y, equalItems_eq_beq xs ys]

theorem equalEntries_eq_beq (xs ys : List (Value × Value)) :
    equalEntries xs ys = (compareEntries xs ys == .eq) := by
  rcases xs with _ | ⟨⟨k, v⟩, xs⟩ <;> rcases ys with _ | ⟨⟨l, w⟩, ys⟩ <;> try rfl
  rw [equalEntries, compareEntries, then_beq_eq, then_beq_eq, equal_eq_beq k l, equal_eq_beq v w,
    equalEntries_eq_beq xs ys]

end

/-- Equality is the equality that belongs to the order. -/
theorem equal_iff_compare_eq {v w : Value} : equal v w = true ↔ compare v w = .eq := by
  rw [equal_eq_beq, beq_iff_eq]

theorem beq_of_compare {v w : Value} (h : compare v w = .eq) : (v == w) = true := by
  show (compare v w == .eq) = true
  rw [h]
  rfl

theorem beq_eq_false_of_compare {v w : Value} (h : compare v w ≠ .eq) : (v == w) = false := by
  show (compare v w == .eq) = false
  exact beq_eq_false_iff_ne.mpr h

/-! ## Digests of equal values -/

mutual

/-- Values of which neither comes before the other have the same digest. -/
theorem digest_eq_of_compare {v w : Value} (h : compare v w = .eq) : digest v = digest w := by
  have kinds : v.kind = w.kind := kind_eq_of_beq (beq_of_compare h)
  rcases v with _ | a | m | s | xs | xs | xs <;> rcases w with _ | b | n | t | ys | ys | ys <;>
    cases kinds
  · rfl
  · have same : a = b := Std.LawfulEqOrd.compare_eq_iff_eq.mp h
    rw [same]
  · have equal : (number m == number n) = true := beq_of_compare h
    have same : m.digest = n.digest := Number.digest_eq_of_beq equal
    rw [digest, digest, same]
  · have same : s = t := Std.LawfulEqOrd.compare_eq_iff_eq.mp h
    rw [same]
  · rw [digest, digest, (compareItems_eq_eq_iff.mp h).length_eq, digestItems_eq_of_compare h]
  · rw [digest, digest, (compareItems_eq_eq_iff.mp h).length_eq, digestItems_eq_of_compare h]
  · rw [digest, digest, (compareEntries_eq_eq_iff.mp h).length_eq, digestEntries_eq_of_compare h]

theorem digestItems_eq_of_compare {xs ys : List Value} (h : compareItems xs ys = .eq) :
    digestItems xs = digestItems ys := by
  rcases xs with _ | ⟨x, xs⟩ <;> rcases ys with _ | ⟨y, ys⟩ <;> try cases h
  · rfl
  · rw [compareItems, Ordering.then_eq_eq] at h
    rw [digestItems, digestItems, digest_eq_of_compare h.1, digestItems_eq_of_compare h.2]

theorem digestEntries_eq_of_compare {xs ys : List (Value × Value)}
    (h : compareEntries xs ys = .eq) : digestEntries xs = digestEntries ys := by
  rcases xs with _ | ⟨⟨k, v⟩, xs⟩ <;> rcases ys with _ | ⟨⟨l, w⟩, ys⟩ <;> try cases h
  · rfl
  · rw [compareEntries, Ordering.then_eq_eq, Ordering.then_eq_eq] at h
    rw [digestEntries, digestEntries, digest_eq_of_compare h.1.1, digest_eq_of_compare h.1.2,
      digestEntries_eq_of_compare h.2]

end

/-- A hash table never has to look at the digest of a value that is equal: it is the same one. -/
theorem sameHashed_eq_beq (v w : Value) : sameHashed v w = (v == w) := by
  unfold sameHashed
  by_cases same : (v == w) = true
  · have digests : v.digest = w.digest := digest_eq_of_compare (beq_iff_eq.mp same)
    rw [digests, beq_self_eq_true, Bool.true_and]
  · rw [Bool.eq_false_iff.mpr same, Bool.and_false]

/-! ## Keeping values apart -/

/-- Pairwise different values that cover a list: what a collection without duplicates keeps of it. -/
structure KeepsApart (values kept : List Value) : Prop where
  distinct : kept.Pairwise fun v w => (v == w) = false
  covers : ∀ v, kept.contains v = values.contains v

/-- Pairwise different values that all stand in another list are not more than that list has. -/
theorem length_le_of_distinct {xs ys : List Value}
    (distinct : xs.Pairwise fun v w => (v == w) = false)
    (covered : ∀ v ∈ xs, ys.contains v = true) : xs.length ≤ ys.length := by
  induction xs generalizing ys with
  | nil => exact Nat.zero_le _
  | cons x rest ih =>
    obtain ⟨apart, distinct⟩ := List.pairwise_cons.mp distinct
    obtain ⟨here, there⟩ := List.forall_mem_cons.mp covered
    obtain ⟨y, member, same⟩ := List.contains_iff_exists_mem_beq.mp here
    -- Without the partner of `x` the other list still covers the rest.
    have smaller : rest.length ≤ (ys.eraseP (x == ·)).length := by
      apply ih distinct
      intro v later
      obtain ⟨z, member', same'⟩ := List.contains_iff_exists_mem_beq.mp (there v later)
      have stays : ¬ (x == z) = true := by
        intro equal
        have clash : (x == v) = true := BEq.trans equal (BEq.symm same')
        exact absurd clash (Bool.eq_false_iff.mp (apart v later))
      exact List.contains_iff_exists_mem_beq.mpr
        ⟨z, (List.mem_eraseP_of_neg stays).mpr member', same'⟩
    have shorter : (ys.eraseP (x == ·)).length = ys.length - 1 :=
      List.length_eraseP_of_mem member same
    have some := List.length_pos_of_mem member
    rw [List.length_cons]
    omega

theorem KeepsApart.contains_of_mem {values kept : List Value} (h : KeepsApart values kept) {v : Value}
    (member : v ∈ kept) : values.contains v = true := by
  rw [← h.covers]
  exact List.contains_iff_exists_mem_beq.mpr ⟨v, member, BEq.rfl⟩

/-- All collections without duplicates keep the same number of values of a list. -/
theorem KeepsApart.length_eq {values xs ys : List Value} (hx : KeepsApart values xs)
    (hy : KeepsApart values ys) : xs.length = ys.length := by
  apply Nat.le_antisymm
  · apply length_le_of_distinct hx.distinct
    intro v member
    rw [hy.covers]
    exact hx.contains_of_mem member
  · apply length_le_of_distinct hy.distinct
    intro v member
    rw [hx.covers]
    exact hy.contains_of_mem member

/-! ### Sorted lists -/

theorem keepsApart_ofMembers (values : List Value) :
    KeepsApart values (Ascending.ofMembers values) where
  distinct := by
    apply (Ascending.isAscending_ofMembers values).imp
    intro v w less
    apply beq_eq_false_of_compare
    intro same
    exact nomatch less.symm.trans same
  covers v := by
    rw [List.contains_eq_any_beq, List.contains_eq_any_beq]
    exact Ascending.hasMember_ofMembers v values

/-! ### Tables by digest -/

/-- Putting one more value into a table. -/
theorem KeepsApart.insert {values table : List Value} (h : KeepsApart values table) (v : Value) :
    KeepsApart (values ++ [v]) (if table.any (sameHashed v) then table else table ++ [v]) := by
  have found : table.any (sameHashed v) = table.contains v := by
    rw [List.contains_eq_any_beq]
    exact congrArg (table.any ·) (funext fun w => sameHashed_eq_beq v w)
  rw [found]
  by_cases there : table.contains v = true
  · rw [if_pos there]
    refine ⟨h.distinct, fun w => ?_⟩
    rw [List.contains_append, ← h.covers, List.contains_cons, List.contains_nil, Bool.or_false]
    by_cases same : (w == v) = true
    · rw [List.contains_congr same, there, Bool.true_or]
    · rw [Bool.eq_false_iff.mpr same, Bool.or_false]
  · rw [if_neg there]
    refine ⟨List.pairwise_append.mpr ⟨h.distinct, List.pairwise_singleton _ _, ?_⟩, fun w => ?_⟩
    · intro w member v' last
      rw [List.mem_singleton.mp last, Bool.eq_false_iff]
      intro same
      exact there (List.contains_iff_exists_mem_beq.mpr ⟨w, member, BEq.symm same⟩)
    · rw [List.contains_append, List.contains_append, h.covers]

theorem keepsApart_foldl {seen table : List Value} (h : KeepsApart seen table)
    (values : List Value) :
    KeepsApart (seen ++ values)
      (values.foldl (fun table v => if table.any (sameHashed v) then table else table ++ [v])
        table) := by
  induction values generalizing seen table with
  | nil => rwa [List.append_nil]
  | cons v rest ih =>
    have step := ih (h.insert v)
    rwa [List.append_assoc] at step

theorem keepsApart_hashed (values : List Value) : KeepsApart values (hashed values) :=
  keepsApart_foldl ⟨.nil, fun _ => rfl⟩ values

/-! ### Library tables and trees -/

/-- Hashing by digest, with any way of mixing its words. -/
@[reducible]
def hasher (mix : List UInt64 → UInt64) : Hashable Value :=
  ⟨fun v => mix v.digest⟩

theorem lawful_hasher (mix : List UInt64 → UInt64) : @LawfulHashable Value _ (hasher mix) :=
  @LawfulHashable.mk Value _ (hasher mix) fun _ _ same =>
    congrArg mix (digest_eq_of_compare (beq_iff_eq.mp same))

theorem keepsApart_hashSet (mix : List UInt64 → UInt64) (values : List Value) :
    KeepsApart values (@Std.HashSet.ofList Value _ (hasher mix) values).toList :=
  letI := hasher mix
  haveI := lawful_hasher mix
  { distinct := Std.HashSet.distinct_toList
    covers := fun _ => by rw [Std.HashSet.contains_toList, Std.HashSet.contains_ofList] }

theorem keepsApart_treeSet (values : List Value) :
    KeepsApart values (Std.TreeSet.ofList values Ord.compare).toList where
  distinct := by
    apply Std.TreeSet.distinct_toList.imp
    intro v w apart
    exact beq_eq_false_of_compare apart
  covers _ := by rw [Std.TreeSet.contains_toList, Std.TreeSet.contains_ofList]

/-- A table by digest and a search tree hold the same number of values of any list. -/
theorem size_hashSet_eq_size_treeSet (mix : List UInt64 → UInt64) (values : List Value) :
    (@Std.HashSet.ofList Value _ (hasher mix) values).size = (Std.TreeSet.ofList values Ord.compare).size := by
  have := lawful_hasher mix
  rw [← @Std.HashSet.length_toList Value _ (hasher mix), ← Std.TreeSet.length_toList]
  exact (keepsApart_hashSet mix values).length_eq (keepsApart_treeSet values)

/-! ## Order, equality and digests together -/

/-- The order of values is total and agrees with equality, equality agrees with digests, and numbers
are ordered by their parts. So a table by digest and a sorted list keep equally many values. -/
theorem order_equality_digest_agree (a b c : Value) (values : List Value)
    (mix : List UInt64 → UInt64) :
    compare a a = .eq ∧ compare b a = (compare a b).swap ∧
      ((compare a b).isLE → (compare b c).isLE → (compare a c).isLE) ∧
      (equal a b = true ↔ compare a b = .eq) ∧ (equal a b = true → a.digest = b.digest) ∧
      (∀ m n : Number, compare (.number m) (.number n) = m.compareByParts n) ∧
      (hashed values).length = (Ascending.ofMembers values).length ∧
      (@Std.HashSet.ofList Value _ (hasher mix) values).size =
        (Std.TreeSet.ofList values Ord.compare).size := by
  refine ⟨?reflexive, ?reversed, ?transitive, equal_iff_compare_eq, ?digests, ?parts, ?sizes,
    size_hashSet_eq_size_treeSet mix values⟩
  case reflexive => exact Std.ReflOrd.compare_self (α := Value)
  case reversed => exact (swap_compare a b).symm
  case transitive => exact (fits_compare a b c).isLE_trans
  case digests =>
    intro same
    exact digest_eq_of_compare (equal_iff_compare_eq.mp same)
  case parts =>
    intro m n
    exact (m.compareByParts_eq n).symm
  case sizes => exact (keepsApart_hashed values).length_eq (keepsApart_ofMembers values)

/-- The numbers `2 ^ 60`, zero and NaN, as integers where they are integers. -/
def heldAsIntegers : Value :=
  .array [.number (.int 0x1000000000000000), .number (.int 0), .number (.float .nan)]

/-- The same numbers as doubles, with a negative zero and another NaN. -/
def heldAsDoubles : Value :=
  .array [.number (.float ⟨0x43b0000000000000⟩), .number (.float ⟨0x8000000000000000⟩),
    .number (.float ⟨0xfff8000000000001⟩)]

/-- The integer after `2 ^ 60`, which no double holds. -/
def nextHeld : Value :=
  .array [.number (.int 0x1000000000000001)]

theorem order_equality_digest_agree_held :
    equal heldAsIntegers heldAsDoubles = true ∧
      heldAsIntegers.digest = heldAsDoubles.digest ∧
      (compare heldAsIntegers heldAsDoubles).isLE ∧ (compare heldAsDoubles nextHeld).isLE ∧
      (compare heldAsIntegers nextHeld).isLE := by
  have same : equal heldAsIntegers heldAsDoubles = true := by decide +kernel
  have first : (compare heldAsIntegers heldAsDoubles).isLE := by decide +kernel
  have second : (compare heldAsDoubles nextHeld).isLE := by decide +kernel
  obtain ⟨_, _, transitive, _, digests, _⟩ :=
    order_equality_digest_agree heldAsIntegers heldAsDoubles nextHeld [] List.sum
  exact ⟨same, digests same, first, second, transitive first second⟩

end Value

end ResidualPolicy
