import ResidualPolicy.Double.Text
import ResidualPolicy.Proofs.Double.Shortest

/-!
# Reading shortest decimals

A decimal that lies in the interval of a double is read as that double
(`Double.ofDecimal_of_holds`); the limits beyond which exponents are not computed are far outside.
So the shortest decimal of a double is read as the double from its text too
(`Double.decimal?_shortestText`): whichever of the three layouts the text has, it is digits with at
most one point, and what these digits and the places behind the point say is the decimal.

Without a point the text is also that of an integer (`Double.spelled`), which need not be the double
but is rounded to it (`Double.ofInt_spelled`).
-/

namespace ResidualPolicy.Double

/-! ## Values -/

theorem low_pos {m : Nat} (nonzero : m ≠ 0) : 0 < (intervalOf m).low := by
  have units : 0 < (partsOf m).significand * Nat.pow 2 (partsOf m).shift :=
    Nat.lt_of_le_of_lt (Nat.zero_le _) (scaled_lt_scaled (Nat.pos_of_ne_zero nonzero))
  have significand := Nat.pos_of_mul_pos_right units
  have bound := (le_low_mul (Nat.mul_one (Nat.pow 2 (partsOf m).shift)).symm).1
  have quarter := pow_two_pos (partsOf m).shift
  have room := Nat.mul_le_mul_right (Nat.pow 2 (partsOf m).shift) significand
  omega

/-- A decimal in the interval of a double has not too few digits for its exponent. -/
theorem le_log2_of_holds {m digits places : Nat} (nonzero : m ≠ 0)
    (inside : (intervalOf m).holds (4 * (digits * unitsPerOne)) (Nat.pow 10 places) = true) :
    digits ≠ 0 ∧ 3 * places ≤ digits.log2 + 1076 := by
  have low := (bounds_of_holds inside).1
  have least : Nat.pow 10 places ≤ (intervalOf m).low * Nat.pow 10 places :=
    Nat.le_mul_of_pos_left _ (low_pos nonzero)
  have eights : Nat.pow 2 (3 * places) ≤ Nat.pow 10 places := by
    rw [show Nat.pow 2 (3 * places) = Nat.pow 8 places from Nat.pow_mul 2 3 places]
    exact Nat.pow_le_pow_left (by decide) places
  have positive := pow_ten_pos places
  have occupied : digits ≠ 0 := by
    rintro rfl
    omega
  refine ⟨occupied, ?_⟩
  obtain ⟨bits, name⟩ : ∃ bits, bits = 1074 := ⟨_, rfl⟩
  have unit : 4 * unitsPerOne = Nat.pow 2 (2 + bits) := by
    unfold unitsPerOne
    rw [← name, pow_two_add]
  have exponents : Nat.pow 2 (3 * places) < Nat.pow 2 (digits.log2 + 1 + (2 + bits)) :=
    calc Nat.pow 2 (3 * places) ≤ 4 * (digits * unitsPerOne) := by omega
      _ = digits * Nat.pow 2 (2 + bits) := by rw [Nat.mul_left_comm, unit]
      _ < Nat.pow 2 (digits.log2 + 1) * Nat.pow 2 (2 + bits) :=
        Nat.mul_lt_mul_of_pos_right Nat.lt_log2_self (pow_two_pos _)
      _ = Nat.pow 2 (digits.log2 + 1 + (2 + bits)) := (pow_two_add _ _).symm
  have := (Nat.pow_lt_pow_iff_right (by decide)).mp exponents
  omega

/-- A decimal in the interval of a double is read as that double. -/
theorem ofDecimal_of_holds (negative : Bool) {m digits places : Nat} (nonzero : m ≠ 0)
    (finite : m < infinityWord)
    (inside : (intervalOf m).holds (4 * (digits * unitsPerOne)) (Nat.pow 10 places) = true) :
    ofDecimal negative digits (-places) = ofMagnitude negative m := by
  obtain ⟨occupied, enough⟩ := le_log2_of_holds nonzero inside
  have whole : (-(places : Int)).toNat = 0 := Int.toNat_of_nonpos (by omega)
  have fraction : (-(-(places : Int))).toNat = places := by rw [Int.neg_neg, Int.toNat_natCast]
  have nearest := nearestMagnitude_of_holds finite (pow_ten_pos places) inside
  unfold ofDecimal
  rw [if_neg occupied, if_neg (by omega), if_neg (by omega), ofRatio, whole, fraction,
    show Nat.pow 10 0 = 1 from rfl, Nat.mul_one, nearest]

theorem ofMagnitude_fields (d : Double) : ofMagnitude d.negative d.magnitude = d := by
  rcases d with ⟨bits⟩
  have word := bits.toNat_lt
  have value : (if negative ⟨bits⟩ then Nat.pow 2 63 + magnitude ⟨bits⟩ else magnitude ⟨bits⟩) =
      bits.toNat := by
    have half : Nat.pow 2 63 = 9223372036854775808 := by decide
    unfold negative magnitude
    dsimp only
    rw [half]
    split
    · next high =>
      have := of_decide_eq_true high
      omega
    · next low =>
      have : ¬9223372036854775808 ≤ bits.toNat := fun high => low (decide_eq_true high)
      omega
  unfold ofMagnitude
  rw [value, UInt64.ofNat_toNat]

theorem Decimal.Within.holds {decimal : Decimal} {range : Interval}
    (within : decimal.Within range) :
    range.holds (4 * (decimal.digits * Nat.pow 10 decimal.exponent.toNat * unitsPerOne))
      (Nat.pow 10 (-decimal.exponent).toNat) = true := by
  have order (digits power unit : Nat) :
      4 * (digits * power * unit) = digits * (power * (4 * unit)) := by ring
  rw [order]
  exact within

/-- The shortest decimal of a double is read as the double. -/
theorem ofDecimal_shortest (tie : Tie) {d : Double} (finite : d.isFinite = true)
    (nonzero : d.magnitude ≠ 0) :
    ofDecimal d.negative
      ((shortest tie d.magnitude).digits * Nat.pow 10 (shortest tie d.magnitude).exponent.toNat)
      (-((-(shortest tie d.magnitude).exponent).toNat : Nat)) = d := by
  have inside := (shortest_within tie nonzero).holds
  rw [ofDecimal_of_holds d.negative nonzero (of_decide_eq_true finite) inside, ofMagnitude_fields]

/-! ## Signs and digits -/

/-- A text after its sign. -/
def signed (negative : Bool) (cs : List Char) : List Char :=
  if negative then '-' :: cs else cs

theorem signed_append (negative : Bool) (cs ds : List Char) :
    signed negative cs ++ ds = signed negative (cs ++ ds) := by
  cases negative <;> rfl

theorem length_signed (negative : Bool) (cs : List Char) :
    (signed negative cs).length = (signed negative []).length + cs.length := by
  cases negative with
  | true => exact Nat.add_comm _ _
  | false => exact (Nat.zero_add _).symm

/-- Nothing but digits, and at least one. -/
def IsDigits (cs : List Char) : Prop :=
  cs ≠ [] ∧ ∀ c ∈ cs, c.isDigit = true

theorem isDigits_toDigits (n : Nat) : IsDigits (Nat.toDigits 10 n) :=
  ⟨Nat.toDigits_ne_nil, fun _ => Nat.isDigit_of_mem_toDigits (by decide) (by decide)⟩

theorem isDigits_replicate {n : Nat} (positive : n ≠ 0) : IsDigits (List.replicate n '0') :=
  ⟨fun empty => positive (by simpa using empty),
    fun _ member => (List.eq_of_mem_replicate member) ▸ rfl⟩

theorem IsDigits.append {cs ds : List Char} (left : IsDigits cs)
    (right : ∀ c ∈ ds, c.isDigit = true) : IsDigits (cs ++ ds) :=
  ⟨fun empty => left.1 (List.append_eq_nil_iff.mp empty).1,
    fun c member => (List.mem_append.mp member).elim (left.2 c) (right c)⟩

theorem IsDigits.exists_cons {cs : List Char} (h : IsDigits cs) :
    ∃ digit more, cs = digit :: more ∧ digit.isDigit = true := by
  obtain ⟨digit, more, rfl⟩ := List.exists_cons_of_ne_nil h.1
  exact ⟨digit, more, rfl, h.2 digit List.mem_cons_self⟩

theorem digits?_of_isDigits {cs : List Char} (h : IsDigits cs) :
    digits? cs = some (Nat.ofDigitChars 10 cs 0) := by
  unfold digits?
  rw [List.isEmpty_eq_false_iff.mpr h.1, List.all_eq_true.mpr h.2]
  rfl

/-- A sign is told from a digit. -/
theorem splitSign_signed (negative : Bool) {cs : List Char} (digits : IsDigits cs)
    (rest : List Char) : splitSign (signed negative (cs ++ rest)) = (negative, cs ++ rest) := by
  cases negative with
  | true => rfl
  | false =>
    obtain ⟨c, body, rfl, digit⟩ := digits.exists_cons
    unfold splitSign signed
    split
    · next sign =>
      rw [(List.cons.inj sign).1] at digit
      exact absurd digit (by decide)
    · next sign =>
      rw [(List.cons.inj sign).1] at digit
      exact absurd digit (by decide)
    · rfl

theorem int?_signed (negative : Bool) {cs : List Char} (digits : IsDigits cs) :
    int? (signed negative cs) =
      some (if negative then -(Nat.ofDigitChars 10 cs 0 : Int) else Nat.ofDigitChars 10 cs 0) := by
  have sign := splitSign_signed negative digits []
  rw [List.append_nil] at sign
  unfold int?
  rw [sign]
  dsimp only
  rw [digits?_of_isDigits digits]
  rfl

/-- A point stands in no integer. -/
theorem int?_point (negative : Bool) {whole : List Char} (digits : IsDigits whole)
    (fraction : List Char) : int? (signed negative (whole ++ '.' :: fraction)) = none := by
  have other : (whole ++ '.' :: fraction).all Char.isDigit = false := by
    rw [List.all_append, List.all_cons, show Char.isDigit '.' = false from rfl, Bool.false_and,
      Bool.and_false]
  unfold int? digits?
  rw [splitSign_signed negative digits]
  dsimp only
  rw [other, Bool.not_false, Bool.or_true]
  rfl

theorem takeWhile_digits {cs : List Char} (digits : ∀ c ∈ cs, c.isDigit = true)
    (rest : List Char) (ends : ∀ c ∈ rest.head?, c.isDigit = false) :
    (cs ++ rest).takeWhile Char.isDigit = cs ∧ (cs ++ rest).dropWhile Char.isDigit = rest := by
  rw [List.takeWhile_append_of_pos digits, List.dropWhile_append_of_pos digits]
  cases rest with
  | nil => simp
  | cons c rest => simp [ends c rfl]

/-- The digits behind the point of a decimal, with the point. Where there are none, there is no point.
-/
def pointed : List Char → List Char
  | [] => []
  | digit :: digits => '.' :: digit :: digits

/-- A decimal is read in its parts. -/
theorem decimal?_parts (negative : Bool) {whole fraction : List Char} (digits : IsDigits whole)
    (decimals : ∀ c ∈ fraction, c.isDigit = true) (rest : List Char)
    (ends : ∀ c ∈ rest.head?, c.isDigit = false ∧ c ≠ '.') :
    decimal? (signed negative (whole ++ (pointed fraction ++ rest))) =
      (exponent? rest).map fun exponent =>
        ofDecimal negative (Nat.ofDigitChars 10 (whole ++ fraction) 0)
          (exponent - fraction.length) := by
  have occupied : whole.isEmpty = false := List.isEmpty_eq_false_iff.mpr digits.1
  unfold decimal?
  rw [splitSign_signed negative digits]
  dsimp only
  cases fraction with
  | nil =>
    obtain ⟨take, drop⟩ := takeWhile_digits digits.2 rest fun c first => (ends c first).1
    rw [pointed, List.nil_append, take, drop]
    split
    · exact absurd rfl (ends '.' rfl).2
    · dsimp only
      rw [occupied, Bool.false_and, if_neg Bool.false_ne_true]
  | cons digit more =>
    obtain ⟨take, drop⟩ := takeWhile_digits digits.2 ('.' :: (digit :: more ++ rest)) (by simp)
    obtain ⟨take', drop'⟩ := takeWhile_digits decimals rest fun c first => (ends c first).1
    rw [pointed, List.cons_append, take, drop]
    generalize digit :: more = fraction at take' drop' ⊢
    generalize fraction ++ rest = text at take' drop' ⊢
    show (if (whole.isEmpty && (text.takeWhile Char.isDigit).isEmpty) = true then none
      else (exponent? (text.dropWhile Char.isDigit)).map fun exponent =>
        ofDecimal negative (Nat.ofDigitChars 10 (whole ++ text.takeWhile Char.isDigit) 0)
          (exponent - (text.takeWhile Char.isDigit).length)) = _
    rw [take', drop', occupied, Bool.false_and, if_neg Bool.false_ne_true]

theorem decimal?_signed (negative : Bool) {cs : List Char} (digits : IsDigits cs) :
    decimal? (signed negative cs) =
      some (ofDecimal negative (Nat.ofDigitChars 10 cs 0) 0) := by
  have read := decimal?_parts negative digits (List.forall_mem_nil _) [] nofun
  rw [pointed, List.append_nil, List.append_nil] at read
  exact read

theorem decimal?_point (negative : Bool) {whole fraction : List Char} (digits : IsDigits whole)
    (decimals : IsDigits fraction) :
    decimal? (signed negative (whole ++ '.' :: fraction)) =
      some (ofDecimal negative (Nat.ofDigitChars 10 (whole ++ fraction) 0) (-fraction.length)) := by
  have read := decimal?_parts negative digits decimals.2 [] nofun
  obtain ⟨digit, more, rfl⟩ := List.exists_cons_of_ne_nil decimals.1
  rw [pointed, List.append_nil, exponent?, Option.map_some, Int.zero_sub] at read
  exact read

/-- The text of an integer is that of a decimal too. -/
theorem decimal?_of_int? {cs : List Char} {i : Int} (h : int? cs = some i) :
    ∃ negative, decimal? cs = some (ofDecimal negative i.natAbs 0) := by
  obtain ⟨⟨negative, unsigned⟩, sign⟩ : ∃ parts, splitSign cs = parts := ⟨_, rfl⟩
  unfold int? digits? at h
  rw [sign] at h
  dsimp only at h
  by_cases digits : (unsigned.isEmpty || !unsigned.all Char.isDigit) = true
  · rw [if_pos digits] at h
    exact nomatch h
  obtain ⟨n, name⟩ : ∃ n, Nat.ofDigitChars 10 unsigned 0 = n := ⟨_, rfl⟩
  rw [if_neg digits, name] at h
  obtain rfl : (if negative then -(n : Int) else n) = i := Option.some.inj h
  have size : (if negative then -(n : Int) else n).natAbs = n := by
    split <;> omega
  rw [Bool.or_eq_true, not_or, Bool.not_eq_true, Bool.not_eq_true', Bool.not_eq_false] at digits
  obtain ⟨occupied, each⟩ := digits
  obtain ⟨take, drop⟩ := takeWhile_digits (List.all_eq_true.mp each) [] nofun
  rw [List.append_nil] at take drop
  refine ⟨negative, ?_⟩
  unfold decimal?
  rw [sign]
  dsimp only
  rw [take, drop, size]
  dsimp only
  rw [occupied, List.append_nil, name]
  rfl

/-! ## The shortest decimal -/

/-- The text of a whole decimal has no point. -/
theorem positionalText_of_nonneg {n : Nat} {exponent : Int} (whole : 0 ≤ exponent) :
    positionalText [] (Nat.toDigits 10 n) ((Nat.toDigits 10 n).length + exponent) =
      Nat.toDigits 10 n ++ List.replicate exponent.toNat '0' := by
  have occupied : 0 < (Nat.toDigits 10 n).length := Nat.length_toDigits_pos
  have zeros : ((Nat.toDigits 10 n).length + exponent).toNat - (Nat.toDigits 10 n).length =
      exponent.toNat := by omega
  unfold positionalText
  rw [if_neg (by omega), if_neg (by omega), zeros, List.append_nil]

/-- The text of any other decimal has its places behind a point. -/
theorem positionalText_of_neg {n : Nat} {exponent : Int} (negative : exponent < 0) :
    ∃ whole fraction, IsDigits whole ∧ IsDigits fraction ∧
      positionalText [] (Nat.toDigits 10 n) ((Nat.toDigits 10 n).length + exponent) =
        whole ++ '.' :: fraction ∧
      Nat.ofDigitChars 10 (whole ++ fraction) 0 = n ∧ (fraction.length : Int) = -exponent := by
  have digits := isDigits_toDigits n
  have value : Nat.ofDigitChars 10 (Nat.toDigits 10 n) 0 = n := Nat.ofDigitChars_ten_toDigits
  have occupied : 0 < (Nat.toDigits 10 n).length := Nat.length_toDigits_pos
  generalize Nat.toDigits 10 n = ds at *
  unfold positionalText
  split
  · next small =>
    refine ⟨['0'], List.replicate (-(ds.length + exponent)).toNat '0' ++ ds,
      isDigits_replicate Nat.one_ne_zero, ⟨by simp [digits.1], fun c member => ?_⟩, rfl, ?_, ?_⟩
    · rcases List.mem_append.mp member with zero | digit
      · exact List.eq_of_mem_replicate zero ▸ rfl
      · exact digits.2 c digit
    · show Nat.ofDigitChars 10 (List.replicate 1 '0' ++ _) 0 = n
      rw [Nat.ofDigitChars_append, Nat.ofDigitChars_replicate_zero, Nat.ofDigitChars_append,
        Nat.ofDigitChars_replicate_zero, Nat.mul_zero, value]
    · rw [List.length_append, List.length_replicate]
      omega
  split
  · next inside =>
    refine ⟨ds.take (ds.length + exponent).toNat, ds.drop (ds.length + exponent).toNat,
      ⟨?_, fun c member => digits.2 c (List.mem_of_mem_take member)⟩,
      ⟨?_, fun c member => digits.2 c (List.mem_of_mem_drop member)⟩, rfl, ?_, ?_⟩
    · exact List.ne_nil_of_length_pos (by rw [List.length_take]; omega)
    · exact List.ne_nil_of_length_pos (by rw [List.length_drop]; omega)
    · rw [List.take_append_drop, value]
    · rw [List.length_drop]
      omega
  · omega

/-- Digits of the shortest decimal of a double, set out without an exponent. -/
def shortestText (tie : Tie) (d : Double) : List Char :=
  let decimal := shortest tie d.magnitude
  let digits := Nat.toDigits 10 decimal.digits
  signed d.negative (positionalText [] digits (digits.length + decimal.exponent))

/-- The integer that the digits spell out if they are set out without a point. -/
def spelled (tie : Tie) (d : Double) : Int :=
  let decimal := shortest tie d.magnitude
  let size := decimal.digits * Nat.pow 10 decimal.exponent.toNat
  if d.negative then -(size : Int) else size

theorem ofDigitChars_zeros (n zeros : Nat) :
    Nat.ofDigitChars 10 (Nat.toDigits 10 n ++ List.replicate zeros '0') 0 =
      n * Nat.pow 10 zeros := by
  rw [Nat.ofDigitChars_append, Nat.ofDigitChars_ten_toDigits, Nat.ofDigitChars_replicate_zero,
    Nat.mul_comm]
  rfl

theorem isDigits_zeros (n zeros : Nat) :
    IsDigits (Nat.toDigits 10 n ++ List.replicate zeros '0') :=
  (isDigits_toDigits n).append fun _ member => List.eq_of_mem_replicate member ▸ rfl

theorem int?_shortestText_of_nonneg {tie : Tie} {d : Double}
    (whole : 0 ≤ (shortest tie d.magnitude).exponent) :
    int? (d.shortestText tie) = some (d.spelled tie) := by
  unfold shortestText spelled
  dsimp only
  rw [positionalText_of_nonneg whole, int?_signed _ (isDigits_zeros _ _), ofDigitChars_zeros]

theorem int?_shortestText_of_neg {tie : Tie} {d : Double}
    (negative : (shortest tie d.magnitude).exponent < 0) : int? (d.shortestText tie) = none := by
  obtain ⟨whole, fraction, digits, _, text, _⟩ := positionalText_of_neg negative
  unfold shortestText
  dsimp only
  rw [text]
  exact int?_point d.negative digits fraction

/-- The digits of the shortest decimal are read as the double that they were written for. -/
theorem decimal?_shortestText (tie : Tie) {d : Double} (finite : d.isFinite = true)
    (nonzero : d.magnitude ≠ 0) : decimal? (d.shortestText tie) = some d := by
  have value := ofDecimal_shortest tie finite nonzero
  unfold shortestText
  dsimp only
  by_cases whole : 0 ≤ (shortest tie d.magnitude).exponent
  · rw [positionalText_of_nonneg whole, decimal?_signed _ (isDigits_zeros _ _), ofDigitChars_zeros]
    rw [Int.toNat_of_nonpos (show -(shortest tie d.magnitude).exponent ≤ 0 by omega)] at value
    exact congrArg some value
  · obtain ⟨before, after, digits, decimals, text, same, places⟩ :=
      positionalText_of_neg (Int.not_le.mp whole)
    have none : (shortest tie d.magnitude).exponent.toNat = 0 := Int.toNat_of_nonpos (by omega)
    rw [none, Int.toNat_of_nonneg (by omega), show Nat.pow 10 0 = 1 from rfl, Nat.mul_one] at value
    rw [text, decimal?_point _ digits decimals, same, places, value]

/-- An integer is rounded as a decimal without places is. -/
theorem ofInt_eq_ofDecimal {i : Int} (nonzero : i ≠ 0) :
    ofInt i = ofDecimal (i < 0) i.natAbs 0 := by
  unfold ofInt ofDecimal
  rw [if_neg (Int.natAbs_ne_zero.mpr nonzero), if_neg (by decide), if_neg (by omega)]
  show _ = ofRatio (i < 0) (i.natAbs * 1) 1
  rw [Nat.mul_one]

/-- The integer that the digits of a double spell out is rounded to the double. -/
theorem ofInt_spelled (tie : Tie) {d : Double} (finite : d.isFinite = true)
    (nonzero : d.magnitude ≠ 0) (whole : 0 ≤ (shortest tie d.magnitude).exponent) :
    ofInt (d.spelled tie) = d := by
  have value := ofDecimal_shortest tie finite nonzero
  rw [Int.toNat_of_nonpos (show -(shortest tie d.magnitude).exponent ≤ 0 by omega)] at value
  have occupied := (le_log2_of_holds nonzero (shortest_within tie nonzero).holds).1
  unfold spelled
  dsimp only
  generalize (shortest tie d.magnitude).digits * _ = size at value occupied ⊢
  cases negative : d.negative with
  | true =>
    rw [negative] at value
    rw [if_pos rfl, ofInt_eq_ofDecimal (by omega), Int.natAbs_neg, Int.natAbs_natCast,
      decide_eq_true (by omega)]
    exact value
  | false =>
    rw [negative] at value
    rw [if_neg Bool.false_ne_true, ofInt_eq_ofDecimal (by omega), Int.natAbs_natCast,
      decide_eq_false (by omega)]
    exact value

end ResidualPolicy.Double
