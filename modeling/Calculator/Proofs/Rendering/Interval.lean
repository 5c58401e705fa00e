import Calculator.Proofs.Binary64.Magnitude
import Mathlib.Data.Nat.Cast.Order.Field

/-!
# The decimal that is shown for a double

The shortest decimal of a double lies in its rounding interval. Seventeen digits
always suffice for that: the interval is wider than the steps of the last grid that
is tried, so one of the two multiples around the number lies in it. The intervals
of different doubles have nothing in common, since they meet at most in an end that
rounds to one of the two alone. So the decimal settles the double.
-/

namespace Calculator

/-- The rational that a decimal is. -/
def Decimal.rational (d : Decimal) : ℚ := d.coefficient * 10 ^ d.exponent

/-- A power with a natural exponent in place of the positive part of an integer. -/
theorem pow_toNat {a : ℚ} (nonzero : a ≠ 0) (e : Int) :
    a ^ e.toNat = a ^ e * a ^ (-e).toNat := by
  rw [← zpow_natCast, ← zpow_natCast, ← zpow_add₀ nonzero]
  congr 1
  omega

namespace RoundingInterval

/-- A number of units of the interval, as a rational. -/
def units (i : RoundingInterval) (n : Nat) : ℚ := n * 2 ^ i.exponent

/-- Whether a rational rounds to the number. -/
def Covers (i : RoundingInterval) (w : ℚ) : Prop :=
  if i.closed then i.units i.low ≤ w ∧ w ≤ i.units i.high
  else i.units i.low < w ∧ w < i.units i.high

/-- The number lies between the ends of its interval. -/
structure Proper (i : RoundingInterval) : Prop where
  /-- The lower end is below the number. -/
  low : i.low < i.value
  /-- The upper end is above it. -/
  high : i.value < i.high

/-- The factor by which units and multiples of `10 ^ k` are scaled to integers. -/
def sharedFactor (i : RoundingInterval) (k : Int) : ℚ := 2 ^ (-i.exponent).toNat * 10 ^ (-k).toNat

/-- The factor is positive. -/
theorem sharedFactor_pos (i : RoundingInterval) (k : Int) : 0 < i.sharedFactor k := by
  unfold sharedFactor
  positivity

/-- Units on the shared scale. -/
theorem cast_mul_unitFactor (i : RoundingInterval) (n : Nat) (k : Int) :
    ((n * i.unitFactor k : Nat) : ℚ) = i.units n * i.sharedFactor k := by
  have two := pow_toNat two_ne_zero i.exponent
  have factor : (i.unitFactor k : ℚ) = 2 ^ i.exponent.toNat * 10 ^ (-k).toNat := by
    show ((2 ^ i.exponent.toNat * 10 ^ (-k).toNat : Nat) : ℚ) = _
    push_cast
    rfl
  rw [Nat.cast_mul, factor, two]
  unfold units sharedFactor
  ring

/-- Multiples of a power of ten on the shared scale. -/
theorem cast_mul_gridFactor (i : RoundingInterval) (c : Nat) (k : Int) :
    ((c * i.gridFactor k : Nat) : ℚ) = c * 10 ^ k * i.sharedFactor k := by
  have ten : (10 : ℚ) ^ k.toNat = 10 ^ k * 10 ^ (-k).toNat := pow_toNat (by norm_num) k
  have factor : (i.gridFactor k : ℚ) = 2 ^ (-i.exponent).toNat * 10 ^ k.toNat := by
    show ((2 ^ (-i.exponent).toNat * 10 ^ k.toNat : Nat) : ℚ) = _
    push_cast
    rfl
  rw [Nat.cast_mul, factor, ten]
  unfold sharedFactor
  ring

/-- Units are compared with multiples of a power of ten on the shared scale. -/
theorem units_le_iff (i : RoundingInterval) (n c : Nat) (k : Int) :
    n * i.unitFactor k ≤ c * i.gridFactor k ↔ i.units n ≤ c * 10 ^ k := by
  rw [← Nat.cast_le (α := ℚ), cast_mul_unitFactor, cast_mul_gridFactor]
  exact mul_le_mul_iff_left₀ (i.sharedFactor_pos k)

/-- Multiples of a power of ten are compared with units on the shared scale. -/
theorem le_units_iff (i : RoundingInterval) (n c : Nat) (k : Int) :
    c * i.gridFactor k ≤ n * i.unitFactor k ↔ c * 10 ^ k ≤ i.units n := by
  rw [← Nat.cast_le (α := ℚ), cast_mul_unitFactor, cast_mul_gridFactor]
  exact mul_le_mul_iff_left₀ (i.sharedFactor_pos k)

/-- The test on the shared scale decides whether a decimal rounds to the number. -/
theorem contains_iff (i : RoundingInterval) (c : Nat) (k : Int) :
    i.contains c k = true ↔ i.Covers (c * 10 ^ k) := by
  have low := i.units_le_iff i.low c k
  have high := i.le_units_iff i.high c k
  have low' := i.le_units_iff i.low c k
  have high' := i.units_le_iff i.high c k
  unfold contains Covers
  cases i.closed with
  | true => simp [low, high]
  | false => simp [← not_le, low', high']

/-- Between two rationals that round to the number all do. -/
theorem Covers.between {i : RoundingInterval} {a b w : ℚ} (ha : i.Covers a) (hb : i.Covers b)
    (low : a ≤ w) (high : w ≤ b) : i.Covers w := by
  unfold Covers at *
  split at ha
  · rename_i closed
    rw [if_pos closed] at hb ⊢
    exact ⟨ha.1.trans low, high.trans hb.2⟩
  · rename_i opened
    rw [if_neg opened] at hb ⊢
    exact ⟨ha.1.trans_le low, high.trans_lt hb.2⟩

/-- More units are more. -/
theorem units_lt_units (i : RoundingInterval) {n m : Nat} (less : n < m) : i.units n < i.units m :=
  mul_lt_mul_of_pos_right (Nat.cast_lt.mpr less) (zpow_pos two_pos _)

/-- What lies strictly between the ends rounds to the number. -/
theorem covers_of_lt {i : RoundingInterval} {w : ℚ} (low : i.units i.low < w)
    (high : w < i.units i.high) : i.Covers w := by
  unfold Covers
  split
  · exact ⟨low.le, high.le⟩
  · exact ⟨low, high⟩

/-- What rounds to the number lies between the ends. -/
theorem Covers.bounds {i : RoundingInterval} {w : ℚ} (covers : i.Covers w) :
    i.units i.low ≤ w ∧ w ≤ i.units i.high := by
  unfold Covers at covers
  split at covers
  · exact covers
  · exact ⟨covers.1.le, covers.2.le⟩

/-- Only a closed interval has its upper end. -/
theorem Covers.closed_of_high {i : RoundingInterval} (covers : i.Covers (i.units i.high)) :
    i.closed = true := by
  unfold Covers at covers
  split at covers
  · assumption
  · exact absurd covers.2 (lt_irrefl _)

/-- Only a closed interval has its lower end. -/
theorem Covers.closed_of_low {i : RoundingInterval} (covers : i.Covers (i.units i.low)) :
    i.closed = true := by
  unfold Covers at covers
  split at covers
  · assumption
  · exact absurd covers.1 (lt_irrefl _)

/-- If one interval ends no later than another one starts, only a common end rounds to
both numbers. -/
theorem Covers.ends_meet {i j : RoundingInterval} {w : ℚ} (hi : i.Covers w) (hj : j.Covers w)
    (apart : i.units i.high ≤ j.units j.low) :
    i.units i.high = j.units j.low ∧ i.closed = true ∧ j.closed = true := by
  have above := hi.bounds.2
  have below := hj.bounds.1
  have high : w = i.units i.high := le_antisymm above (apart.trans below)
  have low : w = j.units j.low := le_antisymm (above.trans apart) below
  exact ⟨high.symm.trans low, (high ▸ hi).closed_of_high, (low ▸ hj).closed_of_low⟩

/-- The number rounds to itself. -/
theorem Proper.covers_value {i : RoundingInterval} (h : i.Proper) : i.Covers (i.units i.value) :=
  covers_of_lt (i.units_lt_units h.low) (i.units_lt_units h.high)

/-- The number lies between two neighbouring multiples of a power of ten. -/
theorem below_bounds (i : RoundingInterval) (k : Int) :
    i.below k * 10 ^ k ≤ i.units i.value ∧ i.units i.value < (i.below k + 1 : Nat) * 10 ^ k := by
  have positive := i.gridFactor_pos k
  constructor
  · exact (i.le_units_iff _ _ k).mp (Nat.div_mul_le_self _ _)
  · rw [← not_le, ← i.le_units_iff, not_le]
    exact Nat.lt_mul_of_div_lt (Nat.lt_succ_self _) positive

/-- A grid on which some multiple rounds to the number gives one. -/
theorem Proper.exists_onGrid? {i : RoundingInterval} (h : i.Proper) {c : Nat} {k : Int}
    (covers : i.Covers (c * 10 ^ k)) : ∃ c', i.onGrid? k = some c' := by
  obtain ⟨low, high⟩ := i.below_bounds k
  have step : (0 : ℚ) < 10 ^ k := zpow_pos (by norm_num) k
  have neighbour : i.contains (i.below k) k = true ∨ i.contains (i.below k + 1) k = true := by
    rw [contains_iff, contains_iff]
    rcases Nat.lt_or_ge (i.below k) c with above | below
    · right
      refine h.covers_value.between covers high.le ?_
      exact mul_le_mul_of_nonneg_right (Nat.cast_le.mpr above) step.le
    · left
      refine covers.between h.covers_value ?_ low
      exact mul_le_mul_of_nonneg_right (Nat.cast_le.mpr below) step.le
  unfold onGrid?
  rcases neighbour with found | found
  · cases other : i.contains (i.below k + 1) k <;> simp [found]
  · cases other : i.contains (i.below k) k <;> simp [found]

/-- An interval that is wider than the steps of a grid has a multiple in it. -/
theorem Proper.exists_covers {i : RoundingInterval} (h : i.Proper) {k : Int}
    (wide : 10 ^ k < i.units i.high - i.units i.low) : ∃ c : Nat, i.Covers (c * 10 ^ k) := by
  obtain ⟨below, above⟩ := i.below_bounds k
  have low := i.units_lt_units h.low
  have high := i.units_lt_units h.high
  push_cast at above
  by_cases inside : i.units i.low < i.below k * 10 ^ k
  · exact ⟨i.below k, covers_of_lt inside (below.trans_lt high)⟩
  · refine ⟨i.below k + 1, covers_of_lt ?_ ?_⟩
    · push_cast
      exact low.trans above
    · push_cast
      linarith

/-- A search that passes a grid on which some multiple rounds to the number finds a
decimal that does. -/
theorem Proper.covers_search {i : RoundingInterval} (h : i.Proper) {count : Nat} {k j : Int}
    (first : j ≤ k) (last : k - count < j) {c : Nat} (covers : i.Covers (c * 10 ^ j)) :
    i.Covers (i.search count k).rational := by
  induction count generalizing k with
  | zero =>
    exact absurd first (by omega)
  | succ count ih =>
    unfold search
    cases found : i.onGrid? k with
    | some c' =>
      exact (i.contains_iff c' k).mp (contains_of_onGrid? found)
    | none =>
      have later : j ≠ k := by
        rintro rfl
        obtain ⟨c', some⟩ := h.exists_onGrid? covers
        rw [found] at some
        contradiction
      exact ih (by omega) (by omega)

/-- A natural is no less than the weight of its first digit. -/
theorem pow_length_toDigits_le {n : Nat} (positive : 0 < n) :
    10 ^ ((Nat.toDigits 10 n).length - 1) ≤ n := by
  rcases Nat.eq_zero_or_pos ((Nat.toDigits 10 n).length - 1) with single | more
  · rw [single]
    exact positive
  · rw [← Nat.not_lt, ← Nat.length_toDigits_le_iff (by decide) more]
    omega

/-- A natural is less than the weight of a digit in front of its first one. -/
theorem lt_pow_length_toDigits (n : Nat) : n < 10 ^ (Nat.toDigits 10 n).length :=
  (Nat.length_toDigits_le_iff (by decide) Nat.length_toDigits_pos).mp le_rfl

/-- The number on the scale that it shares with the integers. -/
theorem units_value_mul_gridFactor (i : RoundingInterval) :
    i.units i.value * i.gridFactor 0 = ((i.value * i.unitFactor 0 : Nat) : ℚ) := by
  have one := i.cast_mul_gridFactor 1 0
  rw [one_mul, Nat.cast_one, zpow_zero, one_mul, one_mul] at one
  rw [one]
  exact (i.cast_mul_unitFactor _ 0).symm

/-- The first digit of the number stands at its order of magnitude. -/
theorem order_bounds {i : RoundingInterval} (positive : 0 < i.value) :
    10 ^ i.order ≤ i.units i.value ∧ i.units i.value < 10 ^ (i.order + 1) := by
  have shared := i.units_value_mul_gridFactor
  have above_pos : 0 < i.value * i.unitFactor 0 := Nat.mul_pos positive (i.unitFactor_pos 0)
  have under_pos : 0 < i.gridFactor 0 := i.gridFactor_pos 0
  have under_pos' : (0 : ℚ) < i.gridFactor 0 := Nat.cast_pos.mpr under_pos
  rw [← mul_le_mul_iff_left₀ under_pos', ← mul_lt_mul_iff_left₀ under_pos', shared]
  unfold order
  dsimp only
  generalize i.value * i.unitFactor 0 = above at above_pos ⊢
  generalize i.gridFactor 0 = under at under_pos ⊢
  split
  · rename_i whole
    -- the first digit is that of the whole part
    have quotient_pos := Nat.div_pos whole under_pos
    have first := pow_length_toDigits_le quotient_pos
    have behind := lt_pow_length_toDigits (above / under)
    have length : 0 < (Nat.toDigits 10 (above / under)).length := Nat.length_toDigits_pos
    have exponent : ((Nat.toDigits 10 (above / under)).length : Int) - 1 =
        ((Nat.toDigits 10 (above / under)).length - 1 : Nat) := by omega
    rw [Nat.div_lt_iff_lt_mul under_pos] at behind
    rw [sub_add_cancel, exponent, zpow_natCast, zpow_natCast]
    have bound : 10 ^ ((Nat.toDigits 10 (above / under)).length - 1) * under ≤ above :=
      (Nat.mul_le_mul_right under first).trans (Nat.div_mul_le_self above under)
    exact ⟨by exact_mod_cast bound, by exact_mod_cast behind⟩
  · rename_i fraction
    -- the first digit is that of the reciprocal, and the weight behind it exceeds that
    have quotient_pos : 0 < (under - 1) / above := Nat.div_pos (by omega) above_pos
    have first := pow_length_toDigits_le quotient_pos
    have behind := lt_pow_length_toDigits ((under - 1) / above)
    rw [Nat.div_lt_iff_lt_mul above_pos] at behind
    rw [Nat.le_div_iff_mul_le above_pos] at first
    have length : 0 < (Nat.toDigits 10 ((under - 1) / above)).length := Nat.length_toDigits_pos
    generalize (Nat.toDigits 10 ((under - 1) / above)).length = count at first behind length ⊢
    have exponent : -(count : Int) + 1 = -((count - 1 : Nat) : Int) := by omega
    have low : under ≤ 10 ^ count * above := by omega
    have high : 10 ^ (count - 1) * above < under := by omega
    have positive (n : Nat) : (0 : ℚ) < 10 ^ n := by positivity
    rw [exponent, zpow_neg, zpow_neg, zpow_natCast, zpow_natCast, inv_mul_le_iff₀ (positive _),
      lt_inv_mul_iff₀ (positive _)]
    exact ⟨by exact_mod_cast low, by exact_mod_cast high⟩

/-- A search gives up on the last of its grids. -/
theorem le_exponent_search (i : RoundingInterval) (count : Nat) (k : Int) :
    k - count ≤ (i.search count k).exponent := by
  induction count generalizing k with
  | zero =>
    show k - (0 : Nat) ≤ k
    omega
  | succ count ih =>
    unfold search
    split
    · show k - (count + 1 : Nat) ≤ k
      omega
    · have later := ih (k - 1)
      omega

/-- The interval is wider than the steps of the last grid that is tried. -/
def Wide (i : RoundingInterval) : Prop :=
  i.units i.value * 10 ^ (-16 : Int) < i.units i.high - i.units i.low

/-- The shortest decimal rounds to the number. -/
theorem Proper.covers_shortest {i : RoundingInterval} (h : i.Proper) (wide : i.Wide) :
    i.Covers i.shortest.rational := by
  have positive : 0 < i.value := Nat.zero_lt_of_lt h.low
  have step : (10 : ℚ) ^ (i.order - 16) < i.units i.high - i.units i.low := by
    calc (10 : ℚ) ^ (i.order - 16) = 10 ^ i.order * 10 ^ (-16 : Int) := by
          rw [← zpow_add₀ (by norm_num)]
          rfl
      _ ≤ i.units i.value * 10 ^ (-16 : Int) :=
          mul_le_mul_of_nonneg_right (order_bounds positive).1 (by positivity)
      _ < i.units i.high - i.units i.low := wide
  obtain ⟨c, covers⟩ := h.exists_covers step
  exact h.covers_search (by omega) (by omega) covers

end RoundingInterval

section Doubles

variable {x y : Float}

/-- The lower end of a rounding interval. It is nearer below a power of two. -/
theorem low_ofFloat (x : Float) :
    (RoundingInterval.ofFloat x).low =
      if storedFraction x = 0 ∧ 1 < storedExponent x then 4 * significand x - 1
      else 4 * significand x - 2 := rfl

/-- A power of two that is a normal double has the leading bit alone. -/
theorem significand_of_power (power : storedFraction x = 0 ∧ 1 < storedExponent x) :
    significand x = leadingBit := by
  rw [significand, if_neg (by omega), power.1]
  rfl

/-- The rounding interval of a double other than zero has the double inside. -/
theorem proper_ofFloat (nonzero : significand x ≠ 0) : (RoundingInterval.ofFloat x).Proper := by
  constructor
  · show (RoundingInterval.ofFloat x).low < 4 * significand x
    rw [low_ofFloat]
    split <;> omega
  · show 4 * significand x < 4 * significand x + 2
    omega

/-- The number of the rounding interval is the magnitude of the double. -/
theorem units_value_ofFloat (x : Float) :
    (RoundingInterval.ofFloat x).units (RoundingInterval.ofFloat x).value =
      significand x * 2 ^ scale x := by
  show ((4 * significand x : Nat) : ℚ) * 2 ^ (scale x - 2) = _
  rw [zpow_sub₀ two_ne_zero]
  push_cast
  ring

/-- The rounding interval of a double is wide enough for seventeen digits. -/
theorem wide_ofFloat (x : Float) : (RoundingInterval.ofFloat x).Wide := by
  have bound := significand_lt x
  have unit : (0 : ℚ) < 2 ^ (scale x - 2) := zpow_pos two_pos _
  -- in units of the interval, which is narrower below a power of two
  have narrow : 4 * significand x + 10 ^ 16 * (RoundingInterval.ofFloat x).low <
      10 ^ 16 * (4 * significand x + 2) := by
    unfold leadingBit at bound
    rw [low_ofFloat]
    split
    · rename_i power
      rw [significand_of_power power]
      decide
    · omega
  have narrow' : ((4 * significand x : Nat) : ℚ) * 10 ^ (-16 : Int) <
      (4 * significand x + 2 : Nat) - (RoundingInterval.ofFloat x).low := by
    have cast : ((4 * significand x + 10 ^ 16 * (RoundingInterval.ofFloat x).low : Nat) : ℚ) <
        (10 ^ 16 * (4 * significand x + 2) : Nat) := Nat.cast_lt.mpr narrow
    push_cast at cast ⊢
    norm_num at cast ⊢
    linarith
  show ((4 * significand x : Nat) : ℚ) * 2 ^ (scale x - 2) * 10 ^ (-16 : Int) <
    ((4 * significand x + 2 : Nat) : ℚ) * 2 ^ (scale x - 2) -
      (RoundingInterval.ofFloat x).low * 2 ^ (scale x - 2)
  rw [← sub_mul, mul_right_comm]
  exact mul_lt_mul_of_pos_right narrow' unit

/-- What rounds to a double is at most half a unit in its last place away. -/
theorem near_of_covers {w : ℚ} (covers : (RoundingInterval.ofFloat x).Covers w) :
    |w - significand x * 2 ^ scale x| ≤ 2 ^ (scale x - 1) := by
  have low : 4 * significand x ≤ (RoundingInterval.ofFloat x).low + 2 := by
    rw [low_ofFloat]
    split <;> omega
  have low' : 4 * (significand x : ℚ) ≤ (RoundingInterval.ofFloat x).low + 2 := by
    exact_mod_cast low
  have unit : (0 : ℚ) < 2 ^ (scale x - 2) := zpow_pos two_pos _
  have whole : (2 : ℚ) ^ scale x = 4 * 2 ^ (scale x - 2) := by
    rw [zpow_sub₀ two_ne_zero]
    norm_num
    ring
  have half : (2 : ℚ) ^ (scale x - 1) = 2 * 2 ^ (scale x - 2) := by
    rw [← zpow_one_add₀ two_ne_zero]
    congr 1
    ring
  obtain ⟨below, above⟩ := covers.bounds
  have above' : w ≤ ((4 * significand x + 2 : Nat) : ℚ) * 2 ^ (scale x - 2) := above
  have below' : ((RoundingInterval.ofFloat x).low : ℚ) * 2 ^ (scale x - 2) ≤ w := below
  have least := mul_le_mul_of_nonneg_right low' unit.le
  push_cast at above'
  rw [abs_le, whole, half]
  constructor <;> linarith

/-- The decimal of a double other than zero rounds to it. -/
theorem Decimal.covers_ofFloat (nonzero : significand x ≠ 0) :
    (RoundingInterval.ofFloat x).Covers (ofFloat x).rational := by
  rw [ofFloat, if_neg nonzero]
  exact (proper_ofFloat nonzero).covers_shortest (wide_ofFloat x)

/-- The ends round to the double if its significand is even. -/
theorem closed_ofFloat_iff (x : Float) :
    (RoundingInterval.ofFloat x).closed = true ↔ significand x % 2 = 0 := beq_iff_eq

/-- The intervals of two doubles at the same scale meet at most in an end, which does
not round to both. -/
theorem high_le_low_of_scale_eq (scale_eq : scale x = scale y)
    (less : significand x < significand y) :
    4 * significand x + 2 ≤ (RoundingInterval.ofFloat y).low ∧
      (4 * significand x + 2 = (RoundingInterval.ofFloat y).low →
        ¬ (significand x % 2 = 0 ∧ significand y % 2 = 0)) := by
  have low : (RoundingInterval.ofFloat y).low = 4 * significand y - 2 := by
    rw [low_ofFloat, if_neg]
    intro power
    -- a double below the least normal one has the least scale
    rw [significand_of_power power] at less
    unfold significand at less
    unfold scale at scale_eq
    split at less <;> omega
  rw [low]
  constructor
  · omega
  · omega

/-- So do those of two doubles at different scales. -/
theorem high_le_low_of_scale_lt (less : scale x < scale y) :
    4 * significand x + 2 ≤ 2 * (RoundingInterval.ofFloat y).low ∧
      (4 * significand x + 2 = 2 * (RoundingInterval.ofFloat y).low →
        ¬ significand x % 2 = 0) := by
  have bound := significand_lt x
  have normal : 1 < storedExponent y := by
    unfold scale at less
    omega
  have implicit : significand y = leadingBit + storedFraction y := by
    rw [significand, if_neg (by omega)]
  have low : 4 * leadingBit - 1 ≤ (RoundingInterval.ofFloat y).low := by
    rw [low_ofFloat, implicit]
    split <;> omega
  unfold leadingBit at *
  constructor
  · omega
  · omega

/-- Nothing rounds to a double and to another one above it. -/
theorem not_covers_both {w : ℚ}
    (less : scale x < scale y ∨ (scale x = scale y ∧ significand x < significand y))
    (hx : (RoundingInterval.ofFloat x).Covers w) (hy : (RoundingInterval.ofFloat y).Covers w) :
    False := by
  have unit : (0 : ℚ) < 2 ^ (scale x - 2) := zpow_pos two_pos _
  have high : (RoundingInterval.ofFloat x).units (RoundingInterval.ofFloat x).high =
      ((4 * significand x + 2 : Nat) : ℚ) * 2 ^ (scale x - 2) := rfl
  have low : (RoundingInterval.ofFloat y).units (RoundingInterval.ofFloat y).low =
      ((RoundingInterval.ofFloat y).low : ℚ) * 2 ^ (scale y - 2) := rfl
  rcases less with finer | ⟨same, smaller⟩
  · obtain ⟨bound, odd⟩ := high_le_low_of_scale_lt finer
    have first : ((4 * significand x + 2 : Nat) : ℚ) * 2 ^ (scale x - 2) ≤
        (2 * (RoundingInterval.ofFloat y).low : Nat) * 2 ^ (scale x - 2) :=
      mul_le_mul_of_nonneg_right (Nat.cast_le.mpr bound) unit.le
    have second : ((2 * (RoundingInterval.ofFloat y).low : Nat) : ℚ) * 2 ^ (scale x - 2) ≤
        (RoundingInterval.ofFloat y).low * 2 ^ (scale y - 2) := by
      have power : (2 : ℚ) ^ (scale x - 2) * 2 ≤ 2 ^ (scale y - 2) := by
        rw [← zpow_add_one₀ two_ne_zero]
        exact zpow_le_zpow_right₀ one_le_two (by omega)
      have scaled := mul_le_mul_of_nonneg_left power
        (Nat.cast_nonneg (α := ℚ) (RoundingInterval.ofFloat y).low)
      push_cast
      linarith
    obtain ⟨meet, closed, -⟩ := hx.ends_meet hy (by rw [high, low]; exact first.trans second)
    rw [high, low] at meet
    have equal := le_antisymm first (second.trans meet.symm.le)
    have equal' := Nat.cast_injective (mul_right_cancel₀ unit.ne' equal)
    exact odd equal' ((closed_ofFloat_iff x).mp closed)
  · obtain ⟨bound, odd⟩ := high_le_low_of_scale_eq same smaller
    rw [← same] at low
    have apart : ((4 * significand x + 2 : Nat) : ℚ) * 2 ^ (scale x - 2) ≤
        (RoundingInterval.ofFloat y).low * 2 ^ (scale x - 2) :=
      mul_le_mul_of_nonneg_right (Nat.cast_le.mpr bound) unit.le
    obtain ⟨meet, closed, closed'⟩ := hx.ends_meet hy (by rw [high, low]; exact apart)
    rw [high, low] at meet
    have equal := Nat.cast_injective (mul_right_cancel₀ unit.ne' meet)
    exact odd equal ⟨(closed_ofFloat_iff x).mp closed, (closed_ofFloat_iff y).mp closed'⟩

/-- The significand and the scale of a finite double settle its exponent and its
fraction. -/
theorem parts_of_significand_of_scale (significands : significand x = significand y)
    (scales : scale x = scale y) :
    storedExponent x = storedExponent y ∧ storedFraction x = storedFraction y := by
  have fraction_x := storedFraction_lt x
  have fraction_y := storedFraction_lt y
  unfold scale at scales
  unfold significand at significands
  split at significands <;> split at significands <;> constructor <;> omega

/-- A rational rounds to at most one magnitude. -/
theorem IsMagnitude.eq_of_covers (hx : IsMagnitude x) (hy : IsMagnitude y) {w : ℚ}
    (covers : (RoundingInterval.ofFloat x).Covers w)
    (covers' : (RoundingInterval.ofFloat y).Covers w) : x = y := by
  have significands : significand x = significand y ∧ scale x = scale y := by
    rcases lt_trichotomy (scale x) (scale y) with less | same | more
    · exact (not_covers_both (.inl less) covers covers').elim
    · rcases lt_trichotomy (significand x) (significand y) with less | equal | more
      · exact (not_covers_both (.inr ⟨same, less⟩) covers covers').elim
      · exact ⟨equal, same⟩
      · exact (not_covers_both (.inr ⟨same.symm, more⟩) covers' covers).elim
    · exact (not_covers_both (.inl more) covers' covers).elim
  obtain ⟨exponent, fraction⟩ := parts_of_significand_of_scale significands.1 significands.2
  exact hx.eq_of_parts hy exponent fraction

/-- A rational is at most one magnitude. -/
theorem IsMagnitude.eq_of_exactly (hx : IsMagnitude x) (hy : IsMagnitude y) {q : ℚ}
    (exactly : Exactly x q) (exactly' : Exactly y q) : x = y := by
  have value_x := (rationalValue_of_unsigned hx.unsigned).symm.trans exactly.value
  have value_y := (rationalValue_of_unsigned hy.unsigned).symm.trans exactly'.value
  have zero_iff {z : Float} (value : (significand z : ℚ) * 2 ^ scale z = q) :
      significand z = 0 ↔ q = 0 := by
    have power : (2 : ℚ) ^ scale z ≠ 0 := zpow_ne_zero _ two_ne_zero
    rw [← value, mul_eq_zero, or_iff_left power, Nat.cast_eq_zero]
  by_cases zero : significand x = 0
  · rw [hx.eq_zero zero, hy.eq_zero ((zero_iff value_y).mpr ((zero_iff value_x).mp zero))]
  · have nonzero : significand y ≠ 0 := fun other =>
      zero ((zero_iff value_x).mpr ((zero_iff value_y).mp other))
    have covers := (proper_ofFloat zero).covers_value
    have covers' := (proper_ofFloat nonzero).covers_value
    rw [units_value_ofFloat, value_x] at covers
    rw [units_value_ofFloat, value_y] at covers'
    exact hx.eq_of_covers hy covers covers'

end Doubles

end Calculator
