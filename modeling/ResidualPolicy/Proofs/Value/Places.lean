import ResidualPolicy.Proofs.Policy.Reading
import ResidualPolicy.Proofs.Policy.Sameness
import ResidualPolicy.Proofs.Value.Parts

/-!
# Places in documents

Paths that are equal need not lead to the same value: in an array a number is looked up as an index,
and a double is one only up to `2 ^ 53`. A path is steady in a document if paths that equal it lead
nowhere else than it does itself. Paths of policies are steady, and so are the places of the elements
of collections (`Reaches`), for arrays of any length.

That takes a look at how indexes are rounded. An index of more than 64 bits is a double, which is no
index of any array, and neither is any number that equals it.
-/

namespace ResidualPolicy

/-! ## Rounded indexes -/

namespace Double

theorem magnitude_ofMagnitude (negative : Bool) {m : Nat} (small : m < Nat.pow 2 63) :
    (ofMagnitude negative m).magnitude = m := by
  have words : Nat.pow 2 63 + Nat.pow 2 63 = Nat.pow 2 64 := by decide
  have word : (if negative then Nat.pow 2 63 + m else m) < Nat.pow 2 64 := by
    split <;> omega
  show (UInt64.ofNat (if negative then Nat.pow 2 63 + m else m)).toNat % Nat.pow 2 63 = m
  rw [UInt64.toNat_ofNat_of_lt' word]
  split
  · rw [Nat.add_mod_left, Nat.mod_eq_of_lt small]
  · exact Nat.mod_eq_of_lt small

theorem div_le_roundHalfEven (numerator denominator : Nat) :
    numerator / denominator ≤ roundHalfEven numerator denominator := by
  unfold roundHalfEven
  dsimp only
  split
  · exact Nat.le_refl _
  · split <;> omega

/-- A ratio of at least `2 ^ (k + 52)` units has at least `k + 1` as its exponent. -/
theorem le_nearestMagnitude {numerator bits k : Nat} (high : bits = k + 52)
    (large : Nat.pow 2 bits ≤ numerator * unitsPerOne) :
    min ((k + 1) * Nat.pow 2 52) infinityWord ≤ nearestMagnitude numerator 1 := by
  unfold nearestMagnitude
  simp only [Nat.div_one, Nat.one_mul]
  generalize numerator * unitsPerOne = scaled at large
  have positive : scaled ≠ 0 := Nat.ne_of_gt (Nat.lt_of_lt_of_le (pow_two_pos _) large)
  have log : bits ≤ scaled.log2 := (Nat.le_log2 positive).mpr large
  obtain ⟨shift, same⟩ : ∃ shift, scaled.log2 = shift + 52 := ⟨scaled.log2 - 52, by omega⟩
  have above : k ≤ shift := by omega
  have lead : Nat.pow 2 52 ≤ scaled / Nat.pow 2 shift := by
    rw [Nat.le_div_iff_mul_le (pow_two_pos shift)]
    have self := Nat.log2_self_le positive
    rw [same, Nat.pow_add, Nat.mul_comm] at self
    exact self
  have rounded := Nat.le_trans lead (div_le_roundHalfEven scaled (Nat.pow 2 shift))
  rw [same, Nat.add_sub_cancel]
  have product : k * Nat.pow 2 52 ≤ shift * Nat.pow 2 52 := Nat.mul_le_mul_right _ above
  rw [Nat.add_mul, Nat.one_mul]
  exact Nat.le_min.mpr ⟨Nat.le_trans (Nat.min_le_left _ _) (Nat.add_le_add product rounded),
    Nat.min_le_right _ _⟩

theorem le_absUnits {d : Double} {bits k : Nat} (high : bits = k + 52)
    (large : (k + 1) * Nat.pow 2 52 ≤ d.magnitude) : Nat.pow 2 bits ≤ d.absUnits := by
  have exponent : k + 1 ≤ d.magnitude / Nat.pow 2 52 :=
    (Nat.le_div_iff_mul_le (pow_two_pos 52)).mpr large
  unfold absUnits partsOf
  dsimp only
  rw [if_neg (by omega)]
  dsimp only
  have scale : Nat.pow 2 k ≤ Nat.pow 2 (d.magnitude / Nat.pow 2 52 - 1) :=
    Nat.pow_le_pow_right (by decide) (by omega)
  have split : Nat.pow 2 bits = Nat.pow 2 52 * Nat.pow 2 k := by
    rw [high, Nat.mul_comm]
    exact Nat.pow_add 2 k 52
  rw [split]
  exact Nat.mul_le_mul (Nat.le_add_right _ _) scale

theorem pow_two_add (bits more : Nat) :
    Nat.pow 2 (bits + more) = Nat.pow 2 bits * Nat.pow 2 more :=
  Nat.pow_add 2 bits more

/-- An integer of more than 64 bits is rounded to infinity or to a number of that size. -/
theorem le_absUnits_ofInt {i : Nat} (large : Nat.pow 2 63 ≤ i)
    (finite : (ofInt i).isFinite = true) : Nat.pow 2 63 * unitsPerOne ≤ (ofInt i).absUnits := by
  have form : ofInt i = ofMagnitude false (nearestMagnitude i 1) := by
    unfold ofInt ofRatio
    rw [decide_eq_false (Int.not_lt.mpr (Int.natCast_nonneg i)), Int.natAbs_natCast]
  have below : nearestMagnitude i 1 < Nat.pow 2 63 :=
    Nat.lt_of_le_of_lt (Nat.min_le_right _ _) (by decide : infinityWord < Nat.pow 2 63)
  obtain ⟨bits, high, units⟩ :
      ∃ bits, bits = 1085 + 52 ∧ Nat.pow 2 bits = Nat.pow 2 63 * unitsPerOne := by
    unfold unitsPerOne
    generalize shift : 1074 = more
    exact ⟨63 + more, by omega, pow_two_add 63 more⟩
  rw [form] at finite ⊢
  rw [← units]
  refine le_absUnits high ?_
  simp only [isFinite, decide_eq_true_eq] at finite
  rw [magnitude_ofMagnitude false below] at finite ⊢
  have least : min ((1085 + 1) * Nat.pow 2 52) infinityWord ≤ nearestMagnitude i 1 := by
    refine le_nearestMagnitude high ?_
    rw [units]
    exact Nat.mul_le_mul_right _ large
  omega

end Double

namespace Number

/-- A number that equals an index is no other index. -/
theorem eq_of_toNat?_of_beq {n : Number} {i index : Nat} (h : (n == ofNat i) = true)
    (known : n.toNat? = some index) : index = i := by
  obtain ⟨word, integer, value⟩ := exists_of_toNat? known
  have place := place_of_toInt64? integer
  have unit : (Double.unitsPerOne : Int) ≠ 0 :=
    Int.natCast_ne_zero.mpr (Nat.ne_of_gt Double.unitsPerOne_pos)
  rw [place_eq_of_beq h, value, ofNat, ofInt] at place
  cases fits : int64? i with
  | some word =>
    rw [fits] at place
    have same := Int.eq_of_mul_eq_mul_right unit (Place.point.inj place)
    rw [toInt_of_int64? fits] at same
    omega
  | none =>
    rw [fits] at place
    obtain ⟨finite, units⟩ := finite_of_placeOf place
    have size : (Double.ofInt i).absUnits = index * Double.unitsPerOne := by
      rw [← Double.units_natAbs, units, Int.natAbs_mul, Int.natAbs_natCast, Int.natAbs_natCast]
    have low : Int64.minValue.toInt ≤ (i : Int) := by
      have : Int64.minValue.toInt = -9223372036854775808 := by decide
      omega
    have large : Nat.pow 2 63 ≤ i := by
      have : Int64.maxValue.toInt = 9223372036854775807 := by decide
      have : Nat.pow 2 63 = 9223372036854775808 := by decide
      have high : ¬ (i : Int) ≤ Int64.maxValue.toInt := fun high => by
        rw [int64?, if_pos ⟨low, high⟩] at fits
        exact nomatch fits
      omega
    -- A rounded integer is too large to equal an index, which has 64 bits.
    have least := Double.le_absUnits_ofInt large finite
    rw [size] at least
    have above := Nat.le_of_mul_le_mul_right least Double.unitsPerOne_pos
    have top := word.toInt_lt
    have : Nat.pow 2 63 = 9223372036854775808 := by decide
    omega

/-- Numbers that equal `n` are no other index than `n` is. -/
def IsDefinite (n : Number) : Prop :=
  ∀ m : Number, (m == n) = true → ∀ index, m.toNat? = some index → n.toNat? = some index

theorem isDefinite_of_toNat? {n : Number} (h : n.toNat?.isSome = true) : n.IsDefinite := by
  intro m same index known
  obtain ⟨other, own⟩ := Option.isSome_iff_exists.mp h
  obtain ⟨word, integer, value⟩ := exists_of_toNat? known
  obtain ⟨word', integer', value'⟩ := exists_of_toNat? own
  have unit : (Double.unitsPerOne : Int) ≠ 0 :=
    Int.natCast_ne_zero.mpr (Nat.ne_of_gt Double.unitsPerOne_pos)
  have places := place_eq_of_beq same
  rw [place_of_toInt64? integer, place_of_toInt64? integer', value, value'] at places
  have equal : (index : Int) = other := Int.eq_of_mul_eq_mul_right unit (Place.point.inj places)
  rw [own, Int.ofNat.inj equal]

theorem toNat?_ofNat {i : Nat} (small : i < Nat.pow 2 63) : (ofNat i).toNat? = some i := by
  have fits : int64? i = some (Int64.ofInt i) := by
    have : Int64.minValue.toInt = -9223372036854775808 := by decide
    have : Int64.maxValue.toInt = 9223372036854775807 := by decide
    have : Nat.pow 2 63 = 9223372036854775808 := by decide
    exact if_pos ⟨by omega, by omega⟩
  have natural : ¬ (Int64.ofInt i).toInt < 0 := by
    rw [toInt_of_int64? fits]
    omega
  rw [ofNat, ofInt, fits, toNat?, toInt64?, Option.bind_some, if_neg natural,
    toInt_of_int64? fits, Int.toNat_natCast]

theorem isDefinite_ofNat (i : Nat) : (ofNat i).IsDefinite := by
  intro m same index known
  -- An index that equals the rounded one is the one itself, so it has 64 bits and was not rounded.
  have equal := eq_of_toNat?_of_beq same known
  obtain ⟨word, -, value⟩ := exists_of_toNat? known
  have small : i < Nat.pow 2 63 := by
    have top := word.toInt_lt
    have : Nat.pow 2 63 = 9223372036854775808 := by decide
    omega
  rw [toNat?_ofNat small, equal]

end Number

/-! ## Steady paths -/

namespace Value

/-- Keys that equal `key` lead to nothing else than `key` does. -/
def SteadyKey (v key : Value) : Prop :=
  ∀ other, Value.compare other key = .eq → ∀ w, v.get? other = some w → v.get? key = some w

/-- Keys that equal `path`, one by one, lead to nothing else than `path` does. -/
def Steady (v : Value) (path : List Value) : Prop :=
  ∀ others, List.Forall₂ (fun x y => Value.compare x y = .eq) others path →
    ∀ w, v.lookup? others = some w → v.lookup? path = some w

theorem steadyKey_object (entries : List (Value × Value)) (key : Value) :
    (object entries).SteadyKey key := by
  intro other same w found
  rw [← found]
  exact (Ascending.get?_congr (Ascending.sameKey_iff.mpr same) entries).symm

theorem steadyKey_set (members : List Value) (key : Value) : (set members).SteadyKey key := by
  intro other same w found
  rw [← found]
  exact (Ascending.member?_congr (Ascending.sameKey_iff.mpr same) members).symm

theorem steadyKey_of_isDefinite {key : Value} (definite : ∀ n, key = .number n → n.IsDefinite)
    (v : Value) : v.SteadyKey key := by
  cases v with
  | object entries => exact steadyKey_object entries key
  | set members => exact steadyKey_set members key
  | array items =>
    intro other same w found
    cases other with
    | number m =>
      have equal : Ascending.sameKey (.number m) key = true := Ascending.sameKey_iff.mpr same
      have kind : Value.kind (.number m) = key.kind := kind_eq_of_beq equal
      cases key <;> cases kind
      next n =>
      obtain ⟨index, known, there⟩ := Option.bind_eq_some_iff.mp found
      exact Option.bind_eq_some_iff.mpr ⟨index, definite n rfl m equal index known, there⟩
    | _ => exact nomatch found
  | _ =>
    intro other _ w found
    cases other <;> exact nomatch found

theorem steadyKey_of_isKey {key : Value} (isKey : key.IsKey) (v : Value) : v.SteadyKey key := by
  refine steadyKey_of_isDefinite (fun n same => ?_) v
  cases isKey with
  | name s => exact nomatch same
  | index natural =>
    cases same
    exact Number.isDefinite_of_toNat? natural

/-- A key that leads somewhere is steady. -/
theorem steadyKey_of_get? {v key w : Value} (found : v.get? key = some w) : v.SteadyKey key := by
  cases v with
  | object entries => exact steadyKey_object entries key
  | set members => exact steadyKey_set members key
  | array items =>
    cases key with
    | number n =>
      obtain ⟨index, known, -⟩ := Option.bind_eq_some_iff.mp found
      refine steadyKey_of_isDefinite (fun m same => ?_) _
      rw [← Value.number.inj same]
      exact Number.isDefinite_of_toNat? (by rw [known]; rfl)
    | _ => exact nomatch found
  | _ => cases key <;> exact nomatch found

theorem lookup?_append (v : Value) (first second : List Value) :
    v.lookup? (first ++ second) = (v.lookup? first).bind fun w => w.lookup? second := by
  induction first generalizing v with
  | nil => rfl
  | cons key rest ih =>
    rw [List.cons_append, lookup?, lookup?, Option.bind_assoc]
    exact Option.bind_congr fun next _ => ih next

theorem Steady.append {v : Value} {first second : List Value} (here : v.Steady first)
    (there : ∀ w, v.lookup? first = some w → w.Steady second) : v.Steady (first ++ second) := by
  intro others equal w found
  have front := List.forall₂_take_append others first second equal
  have back := List.forall₂_drop_append others first second equal
  rw [← List.take_append_drop first.length others, lookup?_append] at found
  obtain ⟨next, before, after⟩ := Option.bind_eq_some_iff.mp found
  have same := here _ front next before
  rw [lookup?_append, same]
  exact there next same _ back w after

theorem SteadyKey.steady {v key : Value} (h : v.SteadyKey key) : v.Steady [key] := by
  intro others equal w found
  cases equal with
  | cons same rest =>
    cases rest
    obtain ⟨next, there, last⟩ := Option.bind_eq_some_iff.mp found
    exact Option.bind_eq_some_iff.mpr ⟨next, h _ same next there, last⟩

theorem steady_of_isKey {path : List Value} (keys : ∀ key ∈ path, key.IsKey) (v : Value) :
    v.Steady path := by
  induction path generalizing v with
  | nil =>
    intro others equal w found
    cases equal
    exact found
  | cons key rest ih =>
    obtain ⟨first, others⟩ := List.forall_mem_cons.mp keys
    exact (steadyKey_of_isKey first v).steady.append fun w _ => ih others w

/-- A path that leads somewhere is steady. -/
theorem steady_of_lookup? {v w : Value} {path : List Value} (found : v.lookup? path = some w) :
    v.Steady path := by
  induction path generalizing v with
  | nil =>
    intro others equal x there
    cases equal
    exact there
  | cons key rest ih =>
    obtain ⟨next, here, later⟩ := Option.bind_eq_some_iff.mp found
    refine (steadyKey_of_get? here).steady.append fun x there => ?_
    obtain ⟨y, first, last⟩ := Option.bind_eq_some_iff.mp there
    rw [here] at first
    rw [← Option.some.inj last, ← Option.some.inj first]
    exact ih later

/-- The key of an element leads to the element. -/
theorem get?_of_mem_elements? {v : Value} (ordered : v.IsOrdered) (indexable : v.HasIndexableArrays)
    {elements : List (Value × Value)} (listed : v.elements? = some elements)
    {element : Value × Value} (member : element ∈ elements) :
    v.get? element.1 = some element.2 := by
  cases v with
  | array items =>
    rw [← Option.some.inj listed] at member
    obtain ⟨⟨item, index⟩, among, rfl⟩ := List.mem_map.mp member
    have there := List.mem_zipIdx_iff_getElem?.mp among
    have bound : items.length ≤ Nat.pow 2 63 := (forall_parts_array.mp indexable).1
    have small : index < Nat.pow 2 63 :=
      Nat.lt_of_lt_of_le (List.getElem?_eq_some_iff.mp there).1 bound
    show (Number.ofNat index).toNat?.bind (fun index => items[index]?) = some item
    rw [Number.toNat?_ofNat small]
    exact there
  | set members =>
    rw [← Option.some.inj listed] at member
    obtain ⟨x, among, rfl⟩ := List.mem_map.mp member
    obtain ⟨y, found⟩ : ∃ y, Ascending.member? x members = some y :=
      Option.isSome_iff_exists.mp (List.find?_isSome.mpr ⟨x, among, Ascending.sameKey_self x⟩)
    rw [(isOrdered_set.mp ordered).1.eq_of_member? among found] at found
    exact found
  | _ => exact nomatch listed

end Value

/-- Paths that equal `path` lead to nothing else in a document than `path` does. -/
def Path.IsSteady (path : Path) (document : Value) : Prop :=
  ∀ other : Path, (other == path) = true → ∀ v, other.find? document = some v →
    path.find? document = some v

namespace Path

theorem isSteady_of_find? {path : Path} {document v : Value} (found : path.find? document = some v) :
    path.IsSteady document :=
  fun other same => Value.steady_of_lookup? found other.keys (beq_iff_forall₂.mp same)

theorem find?_join (p q : Path) (document : Value) :
    (p.join q).find? document = (p.find? document).bind q.find? :=
  Value.lookup?_append document p.keys q.keys

theorem find?_child (p : Path) (key document : Value) :
    (p.child key).find? document = (p.find? document).bind fun v => v.get? key := by
  rw [find?, child, Value.lookup?_append]
  refine Option.bind_congr fun v _ => ?_
  exact Option.bind_fun_some _

end Path

/-! ## The places of an evaluation -/

/-- The place at which an evaluation of a document has come to a value: paths that equal it lead to
that value, if anywhere. -/
structure Reaches (document : Value) (place : Path) (v : Value) : Prop where
  steady : document.Steady place.keys
  exact : ∀ w, place.find? document = some w → w = v

namespace Reaches

variable {document v : Value} {place : Path}

theorem root (document : Value) : Reaches document .root document where
  steady := Value.steady_of_isKey (fun _ member => absurd member List.not_mem_nil) document
  exact _ found := (Option.some.inj found).symm

theorem follow (h : Reaches document place v) {path : List Value} {w : Value}
    (steady : v.Steady path) (exact : ∀ x, v.lookup? path = some x → x = w) :
    Reaches document ⟨place.keys ++ path⟩ w where
  steady := h.steady.append fun x found => h.exact x found ▸ steady
  exact x found := by
    rw [Path.find?, Value.lookup?_append] at found
    obtain ⟨next, before, after⟩ := Option.bind_eq_some_iff.mp found
    exact exact x (h.exact next before ▸ after)

theorem join (h : Reaches document place v) {path : Path} (keys : ∀ key ∈ path.keys, key.IsKey)
    {w : Value} (found : path.find? v = some w) : Reaches document (place.join path) w :=
  h.follow (Value.steady_of_isKey keys v) fun _ there => Option.some.inj (there.symm.trans found)

/-- What is found at a path that continues a place is found at the rest of the path. -/
theorem find?_of_join (h : Reaches document place v) {path : Path} {w : Value}
    (found : (place.join path).find? document = some w) : path.find? v = some w := by
  rw [Path.find?, Path.join, Value.lookup?_append] at found
  obtain ⟨next, before, after⟩ := Option.bind_eq_some_iff.mp found
  exact h.exact next before ▸ after

theorem isSteady_join (h : Reaches document place v) {path : Path}
    (keys : ∀ key ∈ path.keys, key.IsKey) : (place.join path).IsSteady document := by
  intro other same w found
  have steady := h.steady.append fun _ _ => Value.steady_of_isKey keys _
  exact steady other.keys (Path.beq_iff_forall₂.mp same) w found

/-- An element of a collection is reached by its key. -/
theorem element (h : Reaches document place v) (ordered : v.IsOrdered)
    {elements : List (Value × Value)} (listed : v.elements? = some elements)
    {element : Value × Value} (member : element ∈ elements) :
    Reaches document (place.child element.1) element.2 := by
  have single {x : Value} (there : v.lookup? [element.1] = some x) : v.get? element.1 = some x := by
    obtain ⟨next, found, last⟩ := Option.bind_eq_some_iff.mp there
    exact Option.some.inj last ▸ found
  cases v with
  | array items =>
    rw [← Option.some.inj listed] at member
    obtain ⟨⟨item, index⟩, among, rfl⟩ := List.mem_map.mp member
    have definite (n : Number) (same : Value.ofNat index = .number n) : n.IsDefinite :=
      Value.number.inj same ▸ Number.isDefinite_ofNat index
    refine h.follow (Value.steadyKey_of_isDefinite definite _).steady fun x found => ?_
    obtain ⟨other, known, there⟩ := Option.bind_eq_some_iff.mp (single found)
    rw [Number.eq_of_toNat?_of_beq BEq.rfl known,
      List.mem_zipIdx_iff_getElem?.mp among] at there
    exact (Option.some.inj there).symm
  | set members =>
    rw [← Option.some.inj listed] at member
    obtain ⟨x, among, rfl⟩ := List.mem_map.mp member
    have ascending := (Value.isOrdered_set.mp ordered).1
    exact h.follow (Value.steadyKey_set members x).steady fun y found =>
      ascending.eq_of_member? among (single found)
  | _ => exact nomatch listed

end Reaches

end ResidualPolicy
