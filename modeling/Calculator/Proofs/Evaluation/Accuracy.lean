import Calculator.Proofs.Evaluation.Leaves

/-!
# The accuracy of literals

A literal is accumulated digit by digit, and each step rounds. The errors are counted
in two units: a unit in the last place relative to the number, and half of the least
double, since the weights behind the point may get too small for all of their bits.
A rounding adds one of each, or only the relative one from one on. So the double of a
literal is off by about two units for each digit.
-/

namespace Calculator

/-- A unit in the last place, relative to a number: two to the minus 52nd. -/
def lastPlace : ℚ := 2 ^ (-52 : Int)

/-- Half of the least double. It is not to be written out. -/
@[irreducible] def halfLeast : ℚ := 2 ^ (-1075 : Int)

/-- The error of a number after `n` relative units and `m` absolute ones. -/
def errorBound (p : ℚ) (n m : ℕ) : ℚ := p * (n * lastPlace) + m * halfLeast

section Units

variable {p q r s : ℚ} {n m n' m' : ℕ}

/-- A unit in the last place is positive. -/
theorem lastPlace_pos : 0 < lastPlace := zpow_pos two_pos _

/-- Half of the least double is positive. -/
theorem halfLeast_pos : 0 < halfLeast := by
  rw [halfLeast]
  exact zpow_pos two_pos _

/-- Fewer units than there are in one are less than one. -/
theorem mul_lastPlace_le (few : n ≤ 2 ^ 51) : n * lastPlace ≤ 1 / 2 := by
  have count : (n : ℚ) ≤ 2 ^ 51 := by exact_mod_cast few
  calc n * lastPlace ≤ 2 ^ 51 * lastPlace := mul_le_mul_of_nonneg_right count lastPlace_pos.le
    _ = 1 / 2 := by norm_num [lastPlace]

/-- Half of the least double is far less than a unit in the last place. -/
theorem halfLeast_le : halfLeast ≤ lastPlace / 4 := by
  rw [halfLeast]
  calc (2 : ℚ) ^ (-1075 : Int) ≤ 2 ^ (-54 : Int) := zpow_le_zpow_right₀ one_le_two (by decide)
    _ = lastPlace / 4 := by norm_num [lastPlace]

/-- Rounding is off by half a unit in the last place, or by half of the least double. -/
theorem roundingError_eq (w : ℚ) : roundingError w = max (w * (lastPlace / 2)) halfLeast := by
  have half : (2 : ℚ) ^ (-53 : Int) = lastPlace / 2 := by norm_num [lastPlace]
  rw [roundingError, half, halfLeast]

/-- The bound of an error is not negative. -/
theorem errorBound_nonneg (nonneg : 0 ≤ p) (n m : ℕ) : 0 ≤ errorBound p n m := by
  have relative := lastPlace_pos
  have absolute := halfLeast_pos
  unfold errorBound
  positivity

/-- Errors of two numbers are an error of their sum. -/
theorem errorBound_add (p q : ℚ) (n m m' : ℕ) :
    errorBound p n m + errorBound q n m' = errorBound (p + q) n (m + m') := by
  unfold errorBound
  push_cast
  ring

/-- More units are a greater error. -/
theorem errorBound_mono (nonneg : 0 ≤ p) (value : p ≤ q) (relative : n ≤ n')
    (absolute : m ≤ m') : errorBound p n m ≤ errorBound q n' m' := by
  have unit := lastPlace_pos
  have least := halfLeast_pos
  have nonneg' := nonneg.trans value
  unfold errorBound
  gcongr

/-- Twice the greatest double is less than ten to the 309th. -/
theorem two_mul_greatestDouble_lt : 2 * greatestDouble < 10 ^ 309 := by
  have powers : ((2 * ((2 * leadingBit - 1) * 2 ^ 971) : ℕ) : ℚ) < (10 ^ 309 : ℕ) :=
    Nat.cast_lt.mpr (by decide +kernel)
  rw [Nat.cast_mul, Nat.cast_mul, Nat.cast_pow, Nat.cast_pow, Nat.cast_ofNat, Nat.cast_ofNat]
    at powers
  exact powers

/-- A rounding adds a unit of each kind to the error. -/
theorem RoundsTo.error_le (rounds : RoundsTo r s) (nonneg : 0 ≤ p) (few : n ≤ 2 ^ 51)
    (few' : m ≤ 2 ^ 52) (near : |r - p| ≤ errorBound p n m) :
    |s - p| ≤ errorBound p (n + 1) (m + 1) := by
  have unit := lastPlace_pos
  have least := halfLeast_pos
  have relative := mul_le_mul_of_nonneg_left (mul_lastPlace_le few) nonneg
  have absolute : m * halfLeast * (lastPlace / 2) ≤ halfLeast := by
    have count : (m : ℚ) ≤ 2 ^ 52 := by exact_mod_cast few'
    calc m * halfLeast * (lastPlace / 2) ≤ 2 ^ 52 * halfLeast * (lastPlace / 2) := by gcongr
      _ = halfLeast / 2 := by
        rw [lastPlace]
        ring
      _ ≤ halfLeast := half_le_self least.le
  have upper : r ≤ 2 * p + m * halfLeast := by
    have above := (abs_le.mp near).2
    unfold errorBound at above
    linarith
  have rounding : |s - r| ≤ p * lastPlace + halfLeast := by
    refine rounds.near.trans ?_
    rw [roundingError_eq]
    apply max_le
    · have scaled := mul_le_mul_of_nonneg_right upper (half_pos unit).le
      linarith
    · exact le_add_of_nonneg_left (by positivity)
  calc |s - p| ≤ |s - r| + |r - p| := abs_sub_le s r p
    _ ≤ (p * lastPlace + halfLeast) + errorBound p n m := add_le_add rounding near
    _ = errorBound p (n + 1) (m + 1) := by
      unfold errorBound
      push_cast
      ring

/-- A rounding of zero, or of a number that is one at least, adds a relative unit
alone. -/
theorem RoundsTo.relative_error_le (rounds : RoundsTo r s) (number : p = 0 ∨ 1 ≤ p)
    (few : n ≤ 2 ^ 51) (near : |r - p| ≤ errorBound p n 0) :
    |s - p| ≤ errorBound p (n + 1) 0 := by
  have unit := lastPlace_pos
  rcases number with rfl | large
  · have zero : r = 0 := by
      rw [sub_zero, errorBound, zero_mul, Nat.cast_zero, zero_mul, add_zero] at near
      exact abs_nonpos_iff.mp near
    obtain rfl := zero
    rw [rounds.eq_zero, sub_zero, abs_zero]
    exact errorBound_nonneg le_rfl _ _
  · have relative := mul_le_mul_of_nonneg_left (mul_lastPlace_le few) (zero_le_one.trans large)
    have bounds := abs_le.mp near
    unfold errorBound at bounds
    rw [Nat.cast_zero, zero_mul, add_zero] at bounds
    have rounding : |s - r| ≤ p * lastPlace := by
      refine rounds.near.trans ?_
      rw [roundingError_eq]
      apply max_le
      · have upper : r ≤ 2 * p := by linarith
        have scaled := mul_le_mul_of_nonneg_right upper (half_pos unit).le
        linarith
      · have scaled := mul_le_mul_of_nonneg_right large unit.le
        have small := halfLeast_le
        linarith
    calc |s - p| ≤ |s - r| + |r - p| := abs_sub_le s r p
      _ ≤ p * lastPlace + errorBound p n 0 := add_le_add rounding near
      _ = errorBound p (n + 1) 0 := by
        unfold errorBound
        push_cast
        ring

/-- A tenth of a number that is off by two absolute units is off by less than one, and
by a relative unit more, since the double nearest to a tenth is no tenth. -/
theorem abs_mul_tenth_sub_le (nonneg : 0 ≤ p) (few : n ≤ 2 ^ 51)
    (near : |r - p| ≤ errorBound p n 2) : |r * tenth - p / 10| ≤ errorBound (p / 10) (n + 1) 1 := by
  have unit := lastPlace_pos
  have least := halfLeast_pos
  have tenth_pos : 0 < tenth := by norm_num [tenth]
  have tenth_eq : tenth = (1 + lastPlace / 4) / 10 := by norm_num [tenth, lastPlace]
  have relative := mul_le_mul_of_nonneg_left (mul_lastPlace_le few) nonneg
  have small : lastPlace ≤ 1 := by norm_num [lastPlace]
  have split : r * tenth - p / 10 = (r - p) * tenth + p / 10 * (lastPlace / 4) := by
    rw [tenth_eq]
    ring
  have first : |(r - p) * tenth| ≤ errorBound p n 2 * tenth := by
    rw [abs_mul, abs_of_pos tenth_pos]
    exact mul_le_mul_of_nonneg_right near tenth_pos.le
  have second : |p / 10 * (lastPlace / 4)| = p / 10 * (lastPlace / 4) :=
    abs_of_nonneg (by positivity)
  have scaled := mul_le_mul_of_nonneg_right relative (half_pos unit).le
  have scaled' := mul_le_mul_of_nonneg_left small least.le
  calc |r * tenth - p / 10| ≤ |(r - p) * tenth| + |p / 10 * (lastPlace / 4)| := by
        rw [split]
        exact abs_add_le _ _
    _ ≤ errorBound p n 2 * tenth + p / 10 * (lastPlace / 4) := add_le_add first second.le
    _ ≤ errorBound (p / 10) (n + 1) 1 := by
      unfold errorBound
      rw [tenth_eq]
      push_cast
      nlinarith

end Units

/-- A double is a number up to an error. -/
structure Approximates (x : Float) (p : ℚ) (n m : ℕ) : Prop where
  /-- The double is a rational near the number. -/
  value : ∃ r, Exactly x r ∧ 0 ≤ r ∧ |r - p| ≤ errorBound p n m

section Operations

variable {x y : Float} {p q : ℚ} {n m n' m' : ℕ}

/-- A number is near itself. -/
theorem near_self (nonneg : 0 ≤ p) (n m : ℕ) : |p - p| ≤ errorBound p n m := by
  rw [sub_self, abs_zero]
  exact errorBound_nonneg nonneg n m

/-- What is exact has no error. -/
theorem Exactly.approximates (h : Exactly x p) (nonneg : 0 ≤ p) (n m : ℕ) :
    Approximates x p n m :=
  ⟨p, h, nonneg, near_self nonneg n m⟩

/-- The error may be counted as greater. -/
theorem Approximates.mono (h : Approximates x p n m) (nonneg : 0 ≤ p) (relative : n ≤ n')
    (absolute : m ≤ m') : Approximates x p n' m' := by
  obtain ⟨r, exactly, nonneg', near⟩ := h
  exact ⟨r, exactly, nonneg', near.trans (errorBound_mono nonneg le_rfl relative absolute)⟩

/-- A number with an error does not exceed the greatest double. -/
def Fits (p : ℚ) (n m : ℕ) : Prop := p + errorBound p n m ≤ greatestDouble

/-- Lesser numbers with lesser errors do not exceed it either. -/
theorem Fits.mono (h : Fits q n' m') (nonneg : 0 ≤ p) (value : p ≤ q) (relative : n ≤ n')
    (absolute : m ≤ m') : Fits p n m :=
  (add_le_add value (errorBound_mono nonneg value relative absolute)).trans h

/-- What is near a number that fits does not exceed the greatest double. -/
theorem Fits.le {r : ℚ} (h : Fits p n m) (near : |r - p| ≤ errorBound p n m) :
    r ≤ greatestDouble := by
  have upper := (abs_le.mp near).2
  unfold Fits at h
  linarith

/-- A sum of numbers near two others is near their sum. -/
theorem near_add {r s : ℚ} (near : |r - p| ≤ errorBound p n m)
    (near' : |s - q| ≤ errorBound q n m') : |r + s - (p + q)| ≤ errorBound (p + q) n (m + m') := by
  rw [← errorBound_add, add_sub_add_comm]
  exact (abs_add_le _ _).trans (add_le_add near near')

/-- A multiple of a number near another is near the multiple of that. -/
theorem near_mul {r : ℚ} (c : ℕ) (near : |r - p| ≤ errorBound p n m) :
    |r * c - p * c| ≤ errorBound (p * c) n (m * c) := by
  have scaled : errorBound (p * c) n (m * c) = errorBound p n m * c := by
    unfold errorBound
    push_cast
    ring
  rw [← sub_mul, abs_mul, Nat.abs_cast, scaled]
  exact mul_le_mul_of_nonneg_right near (Nat.cast_nonneg c)

/-- The error of a sum is that of both numbers and of a rounding. -/
theorem Approximates.add (hx : Approximates x p n m) (hy : Approximates y q n m')
    (nonneg : 0 ≤ p) (nonneg' : 0 ≤ q) (few : n ≤ 2 ^ 51) (few' : m + m' ≤ 2 ^ 52)
    (fits : Fits (p + q) n (m + m')) : Approximates (x + y) (p + q) (n + 1) (m + m' + 1) := by
  obtain ⟨r, exactly, r_nonneg, near⟩ := hx
  obtain ⟨s, exactly', s_nonneg, near'⟩ := hy
  have near_sum := near_add near near'
  have sum_nonneg := add_nonneg r_nonneg s_nonneg
  obtain ⟨t, rounds, sum⟩ := exactly.roundsTo_add exactly' sum_nonneg (fits.le near_sum)
  exact ⟨t, sum, rounds.nonneg sum_nonneg,
    rounds.error_le (add_nonneg nonneg nonneg') few few' near_sum⟩

/-- The error of a product with a digit is as many times the absolute error, and that of
a rounding. -/
theorem Approximates.digit_mul (d : Digit) (hy : Approximates y q n m) (nonneg : 0 ≤ q)
    (few : n ≤ 2 ^ 51) (few' : m * 9 ≤ 2 ^ 52) (fits : Fits (q * d.val) n (m * d.val)) :
    Approximates (d.toFloat * y) (q * d.val) (n + 1) (m * 9 + 1) := by
  obtain ⟨s, exactly, s_nonneg, near⟩ := hy
  have near_product := near_mul d.val near
  have digit_nonneg : (0 : ℚ) ≤ d.val := Nat.cast_nonneg _
  have absolute : m * d.val ≤ m * 9 := Nat.mul_le_mul_left m (by omega)
  have small := fits.le near_product
  rw [mul_comm s] at near_product small
  obtain ⟨t, rounds, product⟩ :=
    d.exactly_toFloat.roundsTo_mul exactly digit_nonneg s_nonneg small
  have rounded := rounds.error_le (mul_nonneg nonneg digit_nonneg) few (absolute.trans few')
    near_product
  exact ⟨t, product, rounds.nonneg (mul_nonneg digit_nonneg s_nonneg),
    rounded.trans (errorBound_mono (by positivity) le_rfl le_rfl (by omega))⟩

/-- The weight of a digit behind the point is a power of a tenth up to an error. -/
theorem Approximates.mul_tenth (hx : Approximates x p n 2) (nonneg : 0 ≤ p) (bounded : p ≤ 1)
    (few : n < 2 ^ 51) : Approximates (x * 0.1) (p / 10) (n + 2) 2 := by
  obtain ⟨r, exactly, r_nonneg, near⟩ := hx
  have near_product := abs_mul_tenth_sub_le nonneg few.le near
  have tenth_pos : 0 < tenth := by norm_num [tenth]
  have small : r * tenth ≤ greatestDouble := by
    have relative := mul_le_mul bounded (mul_lastPlace_le (n := n + 1) few)
      (mul_nonneg (Nat.cast_nonneg _) lastPlace_pos.le) zero_le_one
    have least := halfLeast_le
    have unit : lastPlace ≤ 1 := by norm_num [lastPlace]
    have upper := (abs_le.mp near_product).2
    unfold errorBound at upper
    apply le_greatestDouble_of_le_one
    rw [Nat.cast_one, one_mul, div_mul_eq_mul_div] at upper
    linarith
  obtain ⟨s, rounds, product⟩ := exactly.roundsTo_mul exactly_tenth r_nonneg tenth_pos.le small
  exact ⟨s, product, rounds.nonneg (mul_nonneg r_nonneg tenth_pos.le),
    rounds.error_le (by positivity) few (by norm_num) near_product⟩

/-- Naturals are zero or one at least. -/
theorem natCast_eq_zero_or_one_le (N : ℕ) : (N : ℚ) = 0 ∨ (1 : ℚ) ≤ N := by
  rcases Nat.eq_zero_or_pos N with rfl | positive
  · exact .inl Nat.cast_zero
  · exact .inr (Nat.one_le_cast.mpr positive)

/-- A natural times ten has a relative error more. -/
theorem Approximates.mul_ten {N : ℕ} (hx : Approximates x N n 0) (few : n ≤ 2 ^ 51)
    (fits : Fits (10 * N : ℕ) n 0) : Approximates (x * 10) (10 * N : ℕ) (n + 1) 0 := by
  obtain ⟨r, exactly, nonneg, near⟩ := hx
  have product : ((10 * N : ℕ) : ℚ) = N * (10 : ℕ) := by
    rw [Nat.mul_comm, Nat.cast_mul]
  have near_product := near_mul 10 near
  rw [← product, Nat.zero_mul] at near_product
  obtain ⟨s, rounds, exactly'⟩ := exactly.roundsTo_mul exactly_ten nonneg (by norm_num)
    (fits.le near_product)
  exact ⟨s, exactly', rounds.nonneg (by positivity),
    rounds.relative_error_le (natCast_eq_zero_or_one_le _) few near_product⟩

/-- A natural with one more digit has two relative errors more. -/
theorem Approximates.appendDigit {N : ℕ} (hx : Approximates x N n 0) (d : Digit)
    (few : n < 2 ^ 51) (fits : Fits (10 * N + d.val : ℕ) (n + 1) 0) :
    Approximates (Literal.appendDigit x d) (10 * N + d.val : ℕ) (n + 2) 0 := by
  have shifted_fits : Fits (10 * N : ℕ) n 0 :=
    fits.mono (Nat.cast_nonneg _) (Nat.cast_le.mpr (Nat.le_add_right _ _)) (by omega) le_rfl
  obtain ⟨r, exactly, nonneg, near⟩ := hx.mul_ten few.le shifted_fits
  have digit_nonneg : (0 : ℚ) ≤ d.val := Nat.cast_nonneg _
  have number : ((10 * N + d.val : ℕ) : ℚ) = (10 * N : ℕ) + (d.val : ℚ) := Nat.cast_add _ _
  have near_sum := near_add near (near_self digit_nonneg (n + 1) 0)
  rw [← number] at near_sum
  obtain ⟨s, rounds, exactly'⟩ := exactly.roundsTo_add d.exactly_toFloat
    (add_nonneg nonneg digit_nonneg) (fits.le near_sum)
  exact ⟨s, exactly', rounds.nonneg (add_nonneg nonneg digit_nonneg),
    rounds.relative_error_le (natCast_eq_zero_or_one_le _) few near_sum⟩

end Operations

namespace Literal

/-- Digits that count are accumulated with two relative errors for each. -/
theorem approximates_foldl_appendDigit (digits : List Digit) (few : 2 * digits.length ≤ 2 ^ 51)
    (fits : Fits (wholeNumber digits) (2 * digits.length) 0) :
    Approximates (digits.foldl appendDigit 0) (wholeNumber digits) (2 * digits.length) 0 := by
  induction digits using List.reverseRecOn with
  | nil => exact exactly_zero.approximates le_rfl 0 0
  | append_singleton digits d ih =>
    rw [List.length_append, List.length_singleton, Nat.mul_add] at few fits ⊢
    rw [wholeNumber_concat] at fits ⊢
    rw [List.foldl_append]
    have less : wholeNumber digits ≤ 10 * wholeNumber digits + d.val := by omega
    have before := ih (by omega)
      (fits.mono (Nat.cast_nonneg _) (Nat.cast_le.mpr less) (by omega) le_rfl)
    exact before.appendDigit d (by omega)
      (fits.mono (Nat.cast_nonneg _) le_rfl (by omega) le_rfl)

/-- Digits that do not count shift the number with a relative error for each. -/
theorem approximates_foldl_shift (digits : List Digit) {x : Float} {N n : ℕ}
    (hx : Approximates x N n 0) (few : n + digits.length ≤ 2 ^ 51)
    (fits : Fits (10 ^ digits.length * N : ℕ) (n + digits.length) 0) :
    Approximates (digits.foldl shift x) (10 ^ digits.length * N : ℕ) (n + digits.length) 0 := by
  induction digits using List.reverseRecOn with
  | nil =>
    rw [List.length_nil, pow_zero, Nat.one_mul]
    exact hx
  | append_singleton digits d ih =>
    rw [List.length_append, List.length_singleton] at few fits ⊢
    have shifted : 10 ^ (digits.length + 1) * N = 10 * (10 ^ digits.length * N) := by
      rw [pow_succ', Nat.mul_assoc]
    rw [shifted] at fits ⊢
    rw [List.foldl_append]
    have less : 10 ^ digits.length * N ≤ 10 * (10 ^ digits.length * N) := by omega
    have before := ih (by omega)
      (fits.mono (Nat.cast_nonneg _) (Nat.cast_le.mpr less) (by omega) le_rfl)
    exact before.mul_ten (by omega) (fits.mono (Nat.cast_nonneg _) le_rfl (by omega) le_rfl)

/-- The digits before the point make their number with two relative errors for each, if
those that do not count are zeros. -/
theorem approximates_wholeValue {digits : List Digit} (few : 2 * digits.length ≤ 2 ^ 51)
    (uncounted : wholeNumber (digits.drop countedDigits) = 0)
    (fits : Fits (wholeNumber digits) (2 * digits.length) 0) :
    Approximates (wholeValue digits) (wholeNumber digits) (2 * digits.length) 0 := by
  have split := wholeNumber_append (digits.take countedDigits) (digits.drop countedDigits)
  have length := congrArg List.length (List.take_append_drop countedDigits digits)
  rw [List.take_append_drop, uncounted, Nat.add_zero] at split
  rw [List.length_append] at length
  have less : wholeNumber (digits.take countedDigits) ≤ wholeNumber digits := by
    rw [split]
    exact Nat.le_mul_of_pos_left _ (Nat.pow_pos (by decide))
  have first := approximates_foldl_appendDigit (digits.take countedDigits) (by omega)
    (fits.mono (Nat.cast_nonneg _) (Nat.cast_le.mpr less) (by omega) le_rfl)
  have last := approximates_foldl_shift (digits.drop countedDigits) first (by omega)
  rw [← split] at last
  exact (last (fits.mono (Nat.cast_nonneg _) le_rfl (by omega) le_rfl)).mono (Nat.cast_nonneg _)
    (by omega) le_rfl

/-- The weight of a digit behind the point is a power of a tenth with two relative errors
for each factor. -/
theorem approximates_weight (digits : List Digit) (x : Float)
    (few : 2 * digits.length ≤ 2 ^ 51) :
    Approximates (digits.foldl Accumulated.append ⟨x, 1⟩).weight (1 / 10 ^ digits.length)
      (2 * digits.length) 2 := by
  induction digits using List.reverseRecOn with
  | nil =>
    have one : Exactly 1 (1 / 10 ^ ([] : List Digit).length) := by
      rw [List.length_nil, pow_zero, div_one]
      exact_mod_cast exactly_normalize (n := 1) (by decide)
    exact one.approximates (by positivity) _ _
  | append_singleton digits d ih =>
    rw [List.length_append, List.length_singleton] at few ⊢
    rw [List.foldl_append]
    have bounded : (1 : ℚ) / 10 ^ digits.length ≤ 1 := by
      rw [div_le_one (by positivity)]
      exact one_le_pow₀ (by norm_num)
    have next := (ih (by omega)).mul_tenth (by positivity) bounded (by omega)
    rw [div_div, ← pow_succ] at next
    exact next

/-- The digits behind the point add their number with errors of both kinds for each. -/
theorem approximates_foldl_append {digits : List Digit} {x : Float} {p : ℚ} {n : ℕ}
    (hx : Approximates x p n 0) (nonneg : 0 ≤ p) (start : 2 ≤ n)
    (few : n + 2 * digits.length ≤ 2 ^ 48)
    (fits : Fits (p + wholeNumber digits / 10 ^ digits.length) (n + 2 * digits.length)
      (20 * digits.length)) :
    Approximates (digits.foldl Accumulated.append ⟨x, 1⟩).value
      (p + wholeNumber digits / 10 ^ digits.length) (n + 2 * digits.length)
      (20 * digits.length) := by
  induction digits using List.reverseRecOn with
  | nil =>
    have value : p + (wholeNumber [] : ℚ) / 10 ^ ([] : List Digit).length = p := by
      rw [wholeNumber, List.foldl_nil, Nat.cast_zero, zero_div, add_zero]
    rw [value]
    exact hx
  | append_singleton digits d ih =>
    have weight := approximates_weight (digits ++ [d]) x (by omega)
    rw [List.length_append, List.length_singleton] at few fits weight ⊢
    rw [List.foldl_append] at weight ⊢
    have number : p + (wholeNumber (digits ++ [d]) : ℚ) / 10 ^ (digits.length + 1) =
        p + wholeNumber digits / 10 ^ digits.length + 1 / 10 ^ (digits.length + 1) * d.val := by
      rw [wholeNumber_concat, pow_succ]
      push_cast
      field_simp
      ring
    rw [number] at fits ⊢
    have before_nonneg : 0 ≤ p + (wholeNumber digits : ℚ) / 10 ^ digits.length := by positivity
    have term_nonneg : 0 ≤ (1 : ℚ) / 10 ^ (digits.length + 1) * d.val := by positivity
    have before := ih (by omega) (fits.mono before_nonneg (le_add_of_nonneg_right term_nonneg)
      (by omega) (by omega))
    have term := weight.digit_mul d (by positivity) (by omega) (by decide)
      (fits.mono term_nonneg (le_add_of_nonneg_left before_nonneg) (by omega) (by omega))
    have before' : Approximates (digits.foldl Accumulated.append ⟨x, 1⟩).value
        (p + wholeNumber digits / 10 ^ digits.length) (n + 2 * digits.length + 1)
        (20 * digits.length) := before.mono before_nonneg (by omega) le_rfl
    exact before'.add (term.mono term_nonneg (by omega) le_rfl) before_nonneg term_nonneg
      (by omega) (by omega) (fits.mono (by positivity) le_rfl (by omega) (by omega))

/-- The double of a literal is what the literal writes with two relative errors for each
of its digits, and with twenty absolute ones for each behind the point. -/
theorem approximates_value {l : Literal} (nonempty : l.whole.toList ≠ [])
    (uncounted : wholeNumber (l.whole.toList.drop countedDigits) = 0)
    (few : 2 * (l.whole.toList.length + l.decimals.length) ≤ 2 ^ 48)
    (fits : Fits l.rational (2 * (l.whole.toList.length + l.decimals.length))
      (20 * l.decimals.length)) :
    Approximates l.value l.rational (2 * (l.whole.toList.length + l.decimals.length))
      (20 * l.decimals.length) := by
  have length := List.length_pos_iff.mpr nonempty
  have fraction_nonneg : 0 ≤ (wholeNumber l.decimals : ℚ) / 10 ^ l.decimals.length := by positivity
  have whole := approximates_wholeValue (by omega) uncounted
    (fits.mono (Nat.cast_nonneg _) (le_add_of_nonneg_right fraction_nonneg) (by omega)
      (Nat.zero_le _))
  rw [Nat.mul_add] at few fits ⊢
  have accumulated := approximates_foldl_append whole (Nat.cast_nonneg _) (by omega) few fits
  obtain ⟨digits, fraction⟩ := l
  cases fraction with
  | none => exact accumulated
  | some fraction => exact accumulated

end Literal

end Calculator
