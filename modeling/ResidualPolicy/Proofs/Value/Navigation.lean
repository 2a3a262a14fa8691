import ResidualPolicy.Proofs.Ascending
import ResidualPolicy.Proofs.Value.Order

/-!
# Equal paths lead to the same values

Keys of objects and members of sets are compared by value, so equal keys lead to the same entry, in
the form in which it is stored. For the items of an array a number has to be read as an index first,
and a double counts as one only up to `2 ^ 53`. Equal numbers are the same index below that, hence
the bound on the length of arrays.
-/

namespace ResidualPolicy

/-! ## Integers among the numbers -/

namespace Double

theorem units_natAbs (d : Double) : d.units.natAbs = d.absUnits := by
  unfold units
  split <;> simp

theorem units_of_toInt? {d : Double} {i : Int} (h : d.toInt? = some i) :
    d.isFinite = true ∧ d.units = i * unitsPerOne := by
  unfold toInt? at h
  split at h
  · next whole =>
    rw [Bool.and_eq_true, beq_iff_eq, ← units_natAbs] at whole
    refine ⟨whole.1, ?_⟩
    have divides : (unitsPerOne : Int) ∣ d.units :=
      Int.ofNat_dvd_left.mpr (Nat.dvd_of_mod_eq_zero whole.2)
    rw [← Option.some.inj h, Int.ediv_mul_cancel divides]
  · exact nomatch h

theorem toInt?_of_units {d : Double} {i : Int} (finite : d.isFinite = true)
    (h : d.units = i * unitsPerOne) : d.toInt? = some i := by
  have nonzero : (unitsPerOne : Int) ≠ 0 := Int.natCast_ne_zero.mpr (Nat.ne_of_gt unitsPerOne_pos)
  have whole : d.absUnits % unitsPerOne = 0 := by
    rw [← units_natAbs, h, Int.natAbs_mul, Int.natAbs_natCast, Nat.mul_mod_left]
  unfold toInt?
  rw [finite, whole, h, Int.mul_ediv_cancel _ nonzero]
  rfl

end Double

namespace Number

theorem placeOf_finite {d : Double} (h : d.isFinite = true) : placeOf d = .point d.units := by
  have number : d.isNaN = false := by
    simp only [Double.isFinite, decide_eq_true_eq] at h
    simp only [Double.isNaN, decide_eq_false_iff_not]
    omega
  rw [placeOf, number, h]
  rfl

theorem toInt_of_int64? {i : Int} {word : Int64} (h : int64? i = some word) : word.toInt = i := by
  unfold int64? at h
  split at h
  · next range =>
    rw [← Option.some.inj h, Int64.toInt_ofInt_of_le]
    · exact range.1
    · exact Int.lt_add_one_of_le range.2
  · exact nomatch h

/-- Where a number lies that is an integer. -/
theorem place_of_toInt64? {n : Number} {word : Int64} (h : n.toInt64? = some word) :
    n.place = .point (word.toInt * Double.unitsPerOne) := by
  cases n with
  | int i => rw [← Option.some.inj h, place]
  | float d =>
    obtain ⟨i, small, fits⟩ := Option.bind_eq_some_iff.mp h
    obtain ⟨finite, units⟩ := Double.units_of_toInt? (Option.eq_some_of_filter_eq_some small)
    rw [place, placeOf_finite finite, units, toInt_of_int64? fits]

/-- A number that is an integer equals that integer. -/
theorem compare_int_of_toInt64? {n : Number} {word : Int64} (h : n.toInt64? = some word) :
    (int word).compare n = .eq := by
  rw [compare_eq_place, place_of_toInt64? h, place, Place.compare, Ordering.then_eq_eq]
  exact ⟨Std.ReflOrd.compare_self, Std.ReflOrd.compare_self⟩

theorem finite_of_placeOf {d : Double} {units : Int} (h : placeOf d = .point units) :
    d.isFinite = true ∧ d.units = units := by
  unfold placeOf at h
  split at h
  · exact nomatch h
  · split at h
    · next finite => exact ⟨finite, Place.point.inj h⟩
    · split at h <;> exact nomatch h

/-- A number that lies at a small integer is that integer. -/
theorem toInt64?_of_place {n : Number} {k : Int} (h : n.place = .point (k * Double.unitsPerOne))
    (small : k.natAbs ≤ Nat.pow 2 53) : n.toInt64? = some (Int64.ofInt k) := by
  have nonzero : (Double.unitsPerOne : Int) ≠ 0 :=
    Int.natCast_ne_zero.mpr (Nat.ne_of_gt Double.unitsPerOne_pos)
  cases n with
  | int i =>
    have same : i.toInt = k := Int.eq_of_mul_eq_mul_right nonzero (Place.point.inj h)
    rw [← same, Int64.ofInt_toInt, toInt64?]
  | float d =>
    obtain ⟨finite, units⟩ := finite_of_placeOf h
    have low : Int64.minValue.toInt ≤ k := by
      have : Int64.minValue.toInt = -9223372036854775808 := by decide
      have : Nat.pow 2 53 = 9007199254740992 := by decide
      omega
    have high : k ≤ Int64.maxValue.toInt := by
      have : Int64.maxValue.toInt = 9223372036854775807 := by decide
      have : Nat.pow 2 53 = 9007199254740992 := by decide
      omega
    have word : int64? k = some (Int64.ofInt k) := if_pos ⟨low, high⟩
    rw [toInt64?, smallInt?, Double.toInt?_of_units finite units, Option.filter_some,
      if_pos (decide_eq_true small), Option.bind_some, word]

theorem Place.eq_of_fields {a b : Place} (stretch : a.stretch = b.stretch)
    (units : a.units = b.units) : a = b := by
  cases a <;> cases b <;> simp_all [Place.stretch, Place.units]

theorem place_eq_of_beq {m n : Number} (h : (m == n) = true) : m.place = n.place := by
  have same : m.compare n = .eq := beq_iff_eq.mp h
  rw [compare_eq_place, Place.compare, Ordering.then_eq_eq] at same
  obtain ⟨stretch, units⟩ := same
  have stretch := Nat.compare_eq_eq.mp stretch
  have units := Int.compare_eq_eq.mp units
  exact Place.eq_of_fields stretch units

/-- What an index is as an integer. -/
theorem exists_of_toNat? {n : Number} {index : Nat} (h : n.toNat? = some index) :
    ∃ word : Int64, n.toInt64? = some word ∧ word.toInt = index := by
  obtain ⟨word, integer, counted⟩ := Option.bind_eq_some_iff.mp h
  split at counted
  · exact nomatch counted
  · next natural =>
    have := Option.some.inj counted
    exact ⟨word, integer, by omega⟩

/-- Equal numbers are the same small index. -/
theorem toNat?_of_beq {m n : Number} (h : (m == n) = true) {index : Nat}
    (small : index ≤ Nat.pow 2 53) (known : m.toNat? = some index) : n.toNat? = some index := by
  obtain ⟨word, integer, value⟩ := exists_of_toNat? known
  have place := place_of_toInt64? integer
  rw [place_eq_of_beq h, value] at place
  have integer' := toInt64?_of_place place (by simpa using small)
  rw [← value, Int64.ofInt_toInt] at integer'
  have natural : ¬ word.toInt < 0 := by omega
  rw [toNat?, integer', Option.bind_some, if_neg natural, value]
  rfl

end Number

/-! ## Following keys -/

namespace Value

/-- The arrays in a value, at whatever path, are short enough for every index to be a number. -/
def ArraysFit (v : Value) : Prop :=
  ∀ path items, v.lookup? path = some (.array items) → items.length < Nat.pow 2 53

theorem ArraysFit.get? {v key next : Value} (fit : v.ArraysFit) (h : v.get? key = some next) :
    next.ArraysFit := by
  intro path items found
  refine fit (key :: path) items ?_
  rw [lookup?, h]
  exact found

theorem arraysFit_string (s : String) : (Value.string s).ArraysFit := by
  intro path items found
  cases path with
  | nil => exact nomatch found
  | cons key rest => exact nomatch found

theorem arraysFit_number (n : Number) : (Value.number n).ArraysFit := by
  intro path items found
  cases path with
  | nil => exact nomatch found
  | cons key rest => exact nomatch found

theorem arraysFit_object {entries : List (Value × Value)}
    (fields : ∀ entry ∈ entries, entry.2.ArraysFit) : (Value.object entries).ArraysFit := by
  intro path items found
  cases path with
  | nil => exact nomatch found
  | cons key rest =>
    obtain ⟨next, here, later⟩ := Option.bind_eq_some_iff.mp found
    obtain ⟨k, member⟩ := Ascending.mem_of_get? here
    exact fields _ member rest items later

/-- Equal keys lead to the same value. -/
theorem get?_congr {v key key' : Value} (fit : v.ArraysFit)
    (h : Ascending.sameKey key key' = true) : v.get? key = v.get? key' := by
  cases v with
  | object entries => exact Ascending.get?_congr h entries
  | set members => exact Ascending.member?_congr h members
  | array items =>
    -- Only items of arrays are looked up by a reading of the key instead of by its order.
    have length : items.length < Nat.pow 2 53 := fit [] items rfl
    have kind : key.kind = key'.kind := kind_eq_of_beq h
    cases key with
    | number m =>
      cases key' <;> cases kind
      next n =>
      have indexed (a b : Number) (same : (a == b) = true) {item : Value}
          (found : (Value.array items).get? (.number a) = some item) :
          (Value.array items).get? (.number b) = some item := by
        obtain ⟨index, known, there⟩ := Option.bind_eq_some_iff.mp found
        have inside : index < items.length := (List.getElem?_eq_some_iff.mp there).1
        have small : index ≤ Nat.pow 2 53 := Nat.le_of_lt (Nat.lt_trans inside length)
        have known' := Number.toNat?_of_beq same small known
        exact Option.bind_eq_some_iff.mpr ⟨index, known', there⟩
      have same : (m == n) = true := h
      exact Option.ext fun item => ⟨indexed m n same, indexed n m (BEq.symm same)⟩
    | _ =>
      cases key' <;> cases kind
      rfl
  | _ => cases key <;> cases key' <;> rfl

theorem lookup?_congr {v : Value} (fit : v.ArraysFit) {path path' : List Value}
    (h : List.Forall₂ (fun x y => compare x y = .eq) path path') :
    v.lookup? path = v.lookup? path' := by
  induction h generalizing v with
  | nil => rfl
  | @cons key key' rest rest' same _ ih =>
    have here : v.get? key = v.get? key' := get?_congr fit (Ascending.sameKey_iff.mpr same)
    rw [lookup?, lookup?, ← here]
    cases next : v.get? key with
    | none => rfl
    | some w => exact ih (fit.get? next)

end Value

/-- Paths that are the same lead to the same value. -/
theorem Path.find?_congr {document : Value} (fit : document.ArraysFit) {p q : Path}
    (h : Ascending.sameKey p q = true) : p.find? document = q.find? document :=
  Value.lookup?_congr fit (Value.compareItems_eq_eq_iff.mp (Ascending.sameKey_iff.mp h))

end ResidualPolicy
