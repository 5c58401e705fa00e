import Calculator.Proofs.Evaluation.Accuracy
import Calculator.Proofs.Evaluation.LeadingZeros
import Calculator.Proofs.Rendering.IntegerLeaves

/-!
# How far leaves drift

A normal double is shown by a decimal of few digits that rounds to it, and the double
of that decimal is off by a few units in the last place for each digit. So a leaf that
is read back from its written form is near the leaf that was written. Below the normal
doubles the weights of the digits have lost too many bits for that.
-/

namespace Calculator

section Doubles

variable {x : Float}

/-- The least normal double. -/
def leastNormal : ℚ := 2 ^ (-1022 : Int)

/-- The leading bit weighs two to the 52nd. -/
theorem cast_leadingBit : ((leadingBit : ℕ) : ℚ) = 2 ^ (52 : Int) := by norm_num [leadingBit]

/-- A normal double has the leading bit. -/
theorem leadingBit_le_significand (hx : IsMagnitude x) (normal : leastNormal ≤ rationalValue x) :
    leadingBit ≤ significand x := by
  by_contra subnormal
  have exponent : storedExponent x = 0 := by
    by_contra stored
    rw [significand, if_neg stored] at subnormal
    exact subnormal (Nat.le_add_right _ _)
  have scale_eq : scale x = -1074 := by
    rw [scale, exponent]
    rfl
  have less : (significand x : ℚ) < leadingBit := Nat.cast_lt.mpr (not_le.mp subnormal)
  have bound : leastNormal = leadingBit * 2 ^ (-1074 : Int) := by
    rw [cast_leadingBit, ← zpow_add₀ two_ne_zero]
    rfl
  rw [rationalValue_of_unsigned hx.unsigned, scale_eq, bound] at normal
  exact absurd less (not_lt.mpr (le_of_mul_le_mul_right normal (zpow_pos two_pos _)))

/-- A normal double is not zero. -/
theorem significand_ne_zero (hx : IsMagnitude x) (normal : leastNormal ≤ rationalValue x) :
    significand x ≠ 0 :=
  Nat.ne_zero_of_lt (leadingBit_le_significand hx normal)

/-- The decimal of a normal double is off by half a unit in the last place. -/
theorem near_ofFloat (hx : IsMagnitude x) (normal : leastNormal ≤ rationalValue x) :
    |(Decimal.ofFloat x).rational - rationalValue x| ≤ rationalValue x * (lastPlace / 2) := by
  have leading := leadingBit_le_significand hx normal
  have near := near_of_covers (Decimal.covers_ofFloat (significand_ne_zero hx normal))
  rw [rationalValue_of_unsigned hx.unsigned]
  refine near.trans ?_
  have power : (2 : ℚ) ^ (scale x - 1) = 2 ^ (52 : Int) * 2 ^ scale x * (lastPlace / 2) := by
    rw [zpow_sub₀ two_ne_zero, lastPlace]
    ring
  have bits : (2 : ℚ) ^ (52 : Int) ≤ significand x := by
    rw [← cast_leadingBit]
    exact Nat.cast_le.mpr leading
  have unit := lastPlace_pos
  rw [power]
  gcongr

/-- The order of magnitude of a double, and where its decimal ends. -/
theorem exists_order (nonzero : significand x ≠ 0) :
    ∃ order : Int, (10 : ℚ) ^ order ≤ significand x * 2 ^ scale x ∧
      (significand x : ℚ) * 2 ^ scale x < 10 ^ (order + 1) ∧
      order - 17 ≤ (Decimal.ofFloat x).exponent := by
  have positive : 0 < (RoundingInterval.ofFloat x).value :=
    Nat.zero_lt_of_lt (proper_ofFloat nonzero).low
  obtain ⟨low, high⟩ := RoundingInterval.order_bounds positive
  rw [units_value_ofFloat] at low high
  refine ⟨(RoundingInterval.ofFloat x).order, low, high, ?_⟩
  have last := (RoundingInterval.ofFloat x).le_exponent_search 18
    ((RoundingInterval.ofFloat x).order + 1)
  rw [Decimal.ofFloat, if_neg nonzero]
  unfold RoundingInterval.shortest
  omega

/-- A decimal that ends so many places behind its first digit has few digits. -/
theorem Decimal.length_digits_le {d : Decimal} {order : Int} (ends : order - 17 ≤ d.exponent)
    (bounded : d.rational < 10 ^ (order + 2)) : d.digits.length ≤ 19 := by
  have ten : (10 : ℚ) ≠ 0 := by norm_num
  have coefficient : (d.coefficient : ℚ) = d.rational * 10 ^ (-d.exponent) := by
    rw [rational, mul_assoc, ← zpow_add₀ ten, add_neg_cancel, zpow_zero, mul_one]
  have less : (d.coefficient : ℚ) < 10 ^ (19 : Int) := by
    calc (d.coefficient : ℚ) = d.rational * 10 ^ (-d.exponent) := coefficient
      _ < 10 ^ (order + 2) * 10 ^ (-d.exponent) :=
        mul_lt_mul_of_pos_right bounded (zpow_pos (by norm_num) _)
      _ = 10 ^ (order + 2 - d.exponent) := by rw [← zpow_add₀ ten, sub_eq_add_neg]
      _ ≤ 10 ^ (19 : Int) := zpow_le_zpow_right₀ (by norm_num) (by omega)
  rw [digits, Nat.length_toDigits_le_iff (by decide) (by decide)]
  exact_mod_cast less

/-- Digits of a multiple of a power of ten that are as many behind the others are
zeros. -/
theorem wholeNumber_drop_eq_zero {digits : List Digit} {count places : Nat}
    (multiple : 10 ^ places ∣ wholeNumber digits) (few : digits.length ≤ count + places) :
    wholeNumber (digits.drop count) = 0 := by
  have split := wholeNumber_append (digits.take count) (digits.drop count)
  have less := wholeNumber_lt (digits.drop count)
  rw [List.take_append_drop] at split
  rw [List.length_drop] at split less
  have multiple' : 10 ^ (digits.length - count) ∣ wholeNumber digits :=
    (pow_dvd_pow 10 (by omega)).trans multiple
  rw [split, Nat.dvd_add_right (Nat.dvd_mul_right _ _)] at multiple'
  exact Nat.eq_zero_of_dvd_of_lt multiple' less

/-- The least normal double is no less than ten to the minus 308th. -/
theorem ten_zpow_le_leastNormal : (10 : ℚ) ^ (-308 : Int) ≤ leastNormal := by
  have powers : ((2 ^ 1022 : ℕ) : ℚ) ≤ (10 ^ 308 : ℕ) := Nat.cast_le.mpr (by decide +kernel)
  rw [Nat.cast_pow, Nat.cast_pow, Nat.cast_ofNat, Nat.cast_ofNat] at powers
  rw [leastNormal, zpow_neg, zpow_neg]
  exact inv_anti₀ (zpow_pos two_pos _) powers

/-- The greatest double is less than ten to the 309th. -/
theorem greatestDouble_lt : greatestDouble < (10 : ℚ) ^ (309 : Int) := by
  have nonneg : 0 ≤ greatestDouble := by
    unfold greatestDouble
    positivity
  have twice : greatestDouble ≤ 2 * greatestDouble :=
    le_mul_of_one_le_left nonneg (by norm_num)
  exact_mod_cast twice.trans_lt two_mul_greatestDouble_lt

/-- The first digit of a normal double stands up to 308 places from the point. -/
theorem order_bounds_of_normal {v : ℚ} {order : Int} (normal : leastNormal ≤ v)
    (bounded : v ≤ greatestDouble) (low : (10 : ℚ) ^ order ≤ v) (high : v < 10 ^ (order + 1)) :
    -308 ≤ order ∧ order ≤ 308 := by
  have ten : (1 : ℚ) < 10 := by norm_num
  have least : (-308 : Int) < order + 1 :=
    (zpow_lt_zpow_iff_right₀ ten).mp (ten_zpow_le_leastNormal.trans_lt (normal.trans_lt high))
  have greatest : order < (309 : Int) :=
    (zpow_lt_zpow_iff_right₀ ten).mp (low.trans_lt (bounded.trans_lt greatestDouble_lt))
  omega

/-- The decimal of a normal double is between its half and its double. -/
theorem Decimal.rational_ofFloat_bounds (hx : IsMagnitude x)
    (normal : leastNormal ≤ rationalValue x) :
    rationalValue x / 2 ≤ (ofFloat x).rational ∧ (ofFloat x).rational ≤ 2 * rationalValue x := by
  have near := abs_le.mp (near_ofFloat hx normal)
  have positive : 0 < rationalValue x := (zpow_pos two_pos _).trans_le normal
  have small : rationalValue x * (lastPlace / 2) ≤ rationalValue x * (1 / 2) :=
    mul_le_mul_of_nonneg_left (by norm_num [lastPlace]) positive.le
  constructor <;> linarith

/-- The decimal of a normal double is positive. -/
theorem Decimal.rational_ofFloat_pos (hx : IsMagnitude x)
    (normal : leastNormal ≤ rationalValue x) : 0 < (ofFloat x).rational :=
  (half_pos ((zpow_pos two_pos _).trans_le normal)).trans_le (rational_ofFloat_bounds hx normal).1

/-- The decimal of a normal double has at most one place more than the double. -/
theorem Decimal.rational_ofFloat_lt (hx : IsMagnitude x) (normal : leastNormal ≤ rationalValue x)
    {order : Int} (high : rationalValue x < 10 ^ (order + 1)) :
    (ofFloat x).rational < 10 ^ (order + 2) := by
  have power : (10 : ℚ) ^ (order + 2) = 10 * 10 ^ (order + 1) := by
    rw [← zpow_one_add₀ (by norm_num)]
    congr 1
    ring
  have upper := (rational_ofFloat_bounds hx normal).2
  have positive : (0 : ℚ) < 10 ^ (order + 1) := zpow_pos (by norm_num) _
  linarith

/-- A whole decimal below a power of ten has no more digits and zeros than that. -/
theorem Decimal.length_digits_add_le {d : Decimal} {places : ℕ} (integer : 0 ≤ d.exponent)
    (positive : 0 < d.rational) (bounded : d.rational < 10 ^ places) :
    d.digits.length + d.exponent.toNat ≤ places := by
  have value : d.rational = (d.coefficient * 10 ^ d.exponent.toNat : ℕ) := by
    have exponent : d.exponent = (d.exponent.toNat : Int) := by omega
    rw [rational, exponent, zpow_natCast, Int.toNat_natCast]
    push_cast
    rfl
  rw [value] at positive bounded
  exact length_toDigits_add_le (Nat.pos_of_mul_pos_right (Nat.cast_pos.mp positive))
    (by exact_mod_cast bounded)

/-- The literal that shows a normal double has few digits, and only zeros do not count. -/
theorem Literal.length_ofMagnitude (hx : IsMagnitude x) (finite : x.isFinite = true)
    (normal : leastNormal ≤ rationalValue x) (bounded : rationalValue x ≤ greatestDouble) :
    (ofMagnitude x).whole.toList.length + (ofMagnitude x).decimals.length ≤ 344 ∧
      (ofMagnitude x).decimals.length ≤ 325 ∧
      wholeNumber ((ofMagnitude x).whole.toList.drop countedDigits) = 0 := by
  obtain ⟨order, low, high, ends⟩ := exists_order (significand_ne_zero hx normal)
  rw [← rationalValue_of_unsigned hx.unsigned] at low high
  obtain ⟨least, greatest⟩ := order_bounds_of_normal normal bounded low high
  have positive := Decimal.rational_ofFloat_pos hx normal
  have less := Decimal.rational_ofFloat_lt hx normal high
  have few := Decimal.length_digits_le ends less
  obtain ⟨spelled, -⟩ := rational_ofMagnitude finite
  generalize Decimal.ofFloat x = d at *
  rcases Int.lt_or_le d.exponent 0 with fraction | integer
  · -- all digits before the point count
    obtain ⟨places, -, whole⟩ := fraction_of_positional fraction spelled
    have all : (ofMagnitude x).whole.toList.length ≤ countedDigits := by
      unfold countedDigits
      omega
    refine ⟨by omega, by omega, ?_⟩
    rw [List.drop_of_length_le all]
    rfl
  · -- what does not count is among the zeros behind the digits of the decimal
    obtain ⟨none, number, whole⟩ := integer_of_positional integer spelled
    have powers : (10 : ℚ) ^ (order + 2) ≤ 10 ^ (310 : Int) :=
      zpow_le_zpow_right₀ (by norm_num) (by omega)
    have length : d.digits.length + d.exponent.toNat ≤ 310 :=
      Decimal.length_digits_add_le integer positive (by exact_mod_cast less.trans_le powers)
    have multiple : 10 ^ d.exponent.toNat ∣ wholeNumber (ofMagnitude x).whole.toList := by
      rw [number]
      exact Nat.dvd_mul_left _ _
    rw [none, List.length_nil]
    refine ⟨by omega, by omega, wholeNumber_drop_eq_zero multiple ?_⟩
    unfold countedDigits
    omega

/-- Rounding to the decimal and the errors of reading it are less than the drift. -/
theorem error_le_drift {v w : ℚ} (normal : leastNormal ≤ v)
    (near : |w - v| ≤ v * (lastPlace / 2)) :
    errorBound w (2 * 344) (20 * 325) + |w - v| ≤ v * 10 ^ (-12 : Int) := by
  have least : halfLeast = leastNormal * (lastPlace / 2) := by
    rw [halfLeast, leastNormal, lastPlace, div_eq_mul_inv, ← zpow_sub_one₀ two_ne_zero,
      ← zpow_add₀ two_ne_zero]
    rfl
  have positive : 0 < v := (zpow_pos two_pos _).trans_le normal
  have unit := lastPlace_pos
  have small : lastPlace ≤ 1 / 10 := by norm_num [lastPlace]
  have absolute : halfLeast ≤ v * (lastPlace / 2) := by
    rw [least]
    exact mul_le_mul_of_nonneg_right normal (half_pos unit).le
  have upper : w ≤ v * (11 / 10) := by
    have above := (abs_le.mp near).2
    have scaled := mul_le_mul_of_nonneg_left small positive.le
    linarith
  have relative := mul_le_mul_of_nonneg_right upper unit.le
  have product := mul_pos positive unit
  have drift : v * (4100 * lastPlace) ≤ v * 10 ^ (-12 : Int) :=
    mul_le_mul_of_nonneg_left (by norm_num [lastPlace]) positive.le
  unfold errorBound
  push_cast
  linarith

/-- A normal double that is read from its numeral has drifted by at most `1e-12`. -/
theorem Literal.value_ofMagnitude_near (hx : IsMagnitude x) (finite : x.isFinite = true)
    (normal : leastNormal ≤ rationalValue x)
    (room : rationalValue x * (1 + 10 ^ (-12 : Int)) ≤ greatestDouble) :
    ∃ r, Exactly (ofMagnitude x).value r ∧
      |r - rationalValue x| ≤ rationalValue x * 10 ^ (-12 : Int) := by
  have positive : 0 < rationalValue x := (zpow_pos two_pos _).trans_le normal
  have bounded : rationalValue x ≤ greatestDouble := by
    refine le_trans ?_ room
    exact le_mul_of_one_le_right positive.le (by norm_num)
  have near := near_ofFloat hx normal
  have drift := error_le_drift normal near
  have nonneg : 0 ≤ (Decimal.ofFloat x).rational := by
    unfold Decimal.rational
    positivity
  obtain ⟨digits, decimals, uncounted⟩ := length_ofMagnitude hx finite normal bounded
  obtain ⟨-, rational⟩ := rational_ofMagnitude finite
  obtain ⟨filled, -, -⟩ := ofMagnitude_spec finite
  have fits : Fits (Decimal.ofFloat x).rational (2 * 344) (20 * 325) := by
    have upper := le_abs_self ((Decimal.ofFloat x).rational - rationalValue x)
    unfold Fits
    linarith
  have approximates := approximates_value filled.whole uncounted (by omega)
    (rational ▸ fits.mono nonneg le_rfl (by omega) (by omega))
  rw [rational] at approximates
  have approximates' : Approximates (ofMagnitude x).value (Decimal.ofFloat x).rational (2 * 344)
      (20 * 325) := approximates.mono nonneg (by omega) (by omega)
  obtain ⟨r, exactly, -, near'⟩ := approximates'
  have triangle := abs_sub_le r (Decimal.ofFloat x).rational (rationalValue x)
  exact ⟨r, exactly, by linarith⟩

end Doubles

/-- Two doubles are finite and differ by at most `1e-12` of the greater one. -/
structure IsNear (x y : Float) : Prop where
  /-- The first is finite. -/
  left : x.isFinite = true
  /-- The second is finite. -/
  right : y.isFinite = true
  /-- They differ by little. -/
  drift : |rationalValue x - rationalValue y| ≤
    10 ^ (-12 : Int) * max (rationalValue x) (rationalValue y)

/-- Two expressions have the same shape and related leaves. -/
inductive Expr.Leafwise (related : Float → Float → Prop) : Expr → Expr → Prop where
  /-- The leaves are related. -/
  | number {x y : Float} (leaf : related x y) : Leafwise related (.number x) (.number y)
  /-- The operands correspond. -/
  | negate {a b : Expr} (operand : Leafwise related a b) : Leafwise related (.negate a) (.negate b)
  /-- The operators are the same, and the operands correspond. -/
  | binary (op : Operator) {a b a' b' : Expr} (left : Leafwise related a b)
    (right : Leafwise related a' b') : Leafwise related (.binary op a a') (.binary op b b')

/-- A double without a sign is zero, or it is normal and so far below the greatest
double that it stays finite when it drifts. -/
structure IsOrdinary (x : Float) : Prop where
  /-- It has no sign. -/
  unsigned : signBit x = false
  /-- It is finite. -/
  finite : x.isFinite = true
  /-- It is zero or in the range. -/
  range : rationalValue x = 0 ∨ (leastNormal ≤ rationalValue x ∧
    rationalValue x * (1 + 10 ^ (-12 : Int)) ≤ greatestDouble)

/-- An ordinary double is near the double that its numeral is read as. -/
theorem IsOrdinary.isNear {x : Float} (h : IsOrdinary x) :
    IsNear x (Literal.ofMagnitude x).value := by
  obtain ⟨unsigned, finite, range⟩ := h
  have magnitude : IsMagnitude x := ⟨unsigned, (isNaN_isInf_of_isFinite finite).1⟩
  rcases range with zero | ⟨normal, room⟩
  · have exactly : Exactly x (0 : ℕ) := ⟨finite, by rw [zero, Nat.cast_zero]⟩
    rw [Literal.value_ofMagnitude magnitude exactly (by decide)]
    refine ⟨finite, finite, ?_⟩
    rw [zero, sub_self, max_self, abs_zero, mul_zero]
  · obtain ⟨r, exactly, near⟩ := Literal.value_ofMagnitude_near magnitude finite normal room
    refine ⟨finite, exactly.finite, ?_⟩
    rw [exactly.value, abs_sub_comm]
    calc |r - rationalValue x| ≤ rationalValue x * 10 ^ (-12 : Int) := near
      _ = 10 ^ (-12 : Int) * rationalValue x := mul_comm _ _
      _ ≤ 10 ^ (-12 : Int) * max (rationalValue x) r :=
        mul_le_mul_of_nonneg_left (le_max_left _ _) (by positivity)

/-- Read anew, an expression of ordinary leaves has near ones. -/
theorem Expr.leafwise_reread {e : Expr} (ordinary : ∀ x ∈ e.leaves, IsOrdinary x) :
    e.Leafwise IsNear e.reread := by
  induction e with
  | number x =>
    have leaf := ordinary x (List.mem_singleton_self x)
    rw [reread, rereadLeaf, leaf.unsigned]
    exact .number leaf.isNear
  | negate operand ih => exact .negate (ih ordinary)
  | binary op left right ihl ihr =>
    obtain ⟨first, last⟩ := List.forall_mem_append.mp ordinary
    exact .binary op (ihl first) (ihr last)

/-- An expression of ordinary leaves is read from its written form with the same shape,
and each of its leaves has drifted by at most `1e-12`. -/
theorem Expr.ordinary_leaves_drift_little {e : Expr} (ordinary : ∀ x ∈ e.leaves, IsOrdinary x) :
    ∃ read, parse e.render = .ok read ∧ e.Leafwise IsNear read := by
  have finite : ∀ x ∈ e.leaves, x.isFinite = true := fun x leaf => (ordinary x leaf).finite
  exact ⟨e.reread, parse_render_of_isFinite finite, leafwise_reread ordinary⟩

/-- The difference of a tenth and zero drifts little. -/
theorem Expr.ordinary_leaves_drift_little_of_difference :
    let e : Expr := .binary .subtract (.number 0.1) (.negate (.number 0))
    (∀ x ∈ e.leaves, IsOrdinary x) ∧
      ∃ read, parse e.render = .ok read ∧ e.Leafwise IsNear read := by
  intro e
  have tenth_ordinary : IsOrdinary 0.1 := by
    refine ⟨by decide, exactly_tenth.finite, .inr ?_⟩
    rw [exactly_tenth.value]
    constructor
    · calc leastNormal ≤ 2 ^ (-4 : Int) := zpow_le_zpow_right₀ one_le_two (by decide)
        _ ≤ tenth := by norm_num [tenth]
    · exact le_greatestDouble_of_le_one (by norm_num [tenth])
  have ordinary : ∀ x ∈ e.leaves, IsOrdinary x := by
    intro x leaf
    rcases List.mem_pair.mp leaf with rfl | rfl
    · exact tenth_ordinary
    · exact ⟨by decide, exactly_zero.finite, .inl exactly_zero.value⟩
  exact ⟨ordinary, ordinary_leaves_drift_little ordinary⟩

/-- Behind 321 zeros the weight of a digit has only eight bits left. -/
theorem Literal.value_behind_zeros (digits : List Digit) :
    value ⟨#[0], some (List.replicate 321 (0 : Digit) ++ digits).toArray⟩ =
      (digits.foldl Accumulated.append ⟨0, 1e-321⟩).value := by
  have zeros : (List.replicate 321 (0 : Digit)).foldl Accumulated.append ⟨0, 1⟩ =
      ⟨0, 1e-321⟩ := by decide +kernel
  have whole : wholeValue [0] = 0 := by decide
  show withFraction (wholeValue [0]) (List.replicate 321 (0 : Digit) ++ digits) = _
  rw [withFraction, whole, List.foldl_append, zeros]

/-- A three behind 321 zeros is read as sixty times the least double, but its numeral as
58 times, since the weights of the digits have hardly any bits left. -/
theorem Expr.subnormal_leaf_drifts :
    ∃ x y : Float, parse (.ofList (['0', '.'] ++ List.replicate 321 '0' ++ ['3'])) =
        .ok (.number x) ∧ x.isFinite = true ∧
      parse (Expr.number x).render = .ok (.number y) ∧ ¬ IsNear x y := by
  let three : Literal := ⟨#[0], some (List.replicate 321 (0 : Digit) ++ [3]).toArray⟩
  have spelled : three.spelling = ['0', '.'] ++ List.replicate 321 '0' ++ ['3'] := by decide +kernel
  have value : three.value = 2.96e-322 := by
    rw [Literal.value_behind_zeros]
    decide +kernel
  have shown : plainNumeral (Float.abs 2.96e-322) =
      Literal.spelling ⟨#[0], some (List.replicate 321 (0 : Digit) ++ [2, 9, 6]).toArray⟩ := by
    decide +kernel
  have value' : (Literal.ofMagnitude 2.96e-322).value = 2.87e-322 := by
    rw [Literal.ofMagnitude, shown, Literal.ofSpelling_spelling, Literal.value_behind_zeros]
    decide +kernel
  have parts : (2.96e-322 : Float).isFinite = true ∧ signBit 2.96e-322 = false ∧
      significand 2.96e-322 = 60 ∧ scale 2.96e-322 = -1074 := by decide +kernel
  have parts' : (2.87e-322 : Float).isFinite = true ∧ signBit 2.87e-322 = false ∧
      significand 2.87e-322 = 58 ∧ scale 2.87e-322 = -1074 := by decide +kernel
  obtain ⟨finite, unsigned, digits, exponent⟩ := parts
  obtain ⟨finite', unsigned', digits', exponent'⟩ := parts'
  have parsed := parse_literal (l := three) (by decide)
  rw [spelled, value] at parsed
  have reparsed : parse (Expr.number 2.96e-322).render = .ok (.number 2.87e-322) := by
    have leaves : ∀ x ∈ (Expr.number 2.96e-322).leaves, x.isFinite = true :=
      List.forall_mem_singleton.mpr finite
    rw [parse_render_of_isFinite leaves, reread, rereadLeaf, unsigned, value']
    rfl
  refine ⟨2.96e-322, 2.87e-322, parsed, finite, reparsed, fun near => ?_⟩
  have drift := near.drift
  rw [(exactly_of_parts finite unsigned digits exponent).value,
    (exactly_of_parts finite' unsigned' digits' exponent').value] at drift
  have unit : (0 : ℚ) < 2 ^ (-1074 : Int) := zpow_pos two_pos _
  generalize (2 : ℚ) ^ (-1074 : Int) = u at drift unit
  push_cast at drift
  rw [← sub_mul, abs_of_pos (by linarith), max_eq_left (by linarith)] at drift
  norm_num at drift
  linarith

end Calculator
