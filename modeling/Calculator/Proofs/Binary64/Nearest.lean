import Calculator.Proofs.Binary64.Arithmetic

/-!
# Rounding to the nearest double

A number that no double holds is rounded to one near by. The error is at most
half a unit in the last place, and no double lies strictly between the number and
what it is rounded to, so every bound that a double holds survives rounding. A
magnitude becomes infinite only if it exceeds the greatest double.
-/

namespace Calculator

open Float.Model Float.Model.UnpackedFloat

/-- The greatest double. -/
def greatestDouble : ℚ := (2 * leadingBit - 1 : ℕ) * 2 ^ (971 : Int)

/-- How far rounding can move a magnitude: half a unit of its 53rd bit, and not
less than half of the least double. -/
def roundingError (w : ℚ) : ℚ := max (w * 2 ^ (-53 : Int)) (2 ^ (-1075 : Int))

/-- What a magnitude is rounded to. -/
structure RoundsTo (w r : ℚ) : Prop where
  /-- It is near the magnitude. -/
  near : |r - w| ≤ roundingError w
  /-- Doubles that do not exceed the magnitude do not exceed it either. -/
  below : ∀ a, Representable a → a ≤ w → a ≤ r
  /-- Doubles that the magnitude does not exceed are not exceeded by it either. -/
  above : ∀ a, Representable a → w ≤ a → r ≤ a

/-- The error of rounding is not negative. -/
theorem roundingError_nonneg (w : ℚ) : 0 ≤ roundingError w :=
  le_trans (zpow_pos two_pos _).le (le_max_right _ _)

/-- What a double holds already is left alone. -/
theorem roundsTo_self (q : ℚ) : RoundsTo q q := by
  refine ⟨?_, fun _ _ less => less, fun _ _ less => less⟩
  rw [sub_self, abs_zero]
  exact roundingError_nonneg q

/-- A number that is not negative is not rounded to a negative one. -/
theorem RoundsTo.nonneg {w r : ℚ} (rounds : RoundsTo w r) (nonneg : 0 ≤ w) : 0 ≤ r :=
  rounds.below 0 ⟨_, .zero .positive⟩ nonneg

/-- Zero is rounded to zero. -/
theorem RoundsTo.eq_zero {r : ℚ} (rounds : RoundsTo 0 r) : r = 0 :=
  le_antisymm (rounds.above 0 ⟨_, .zero .positive⟩ le_rfl) (rounds.nonneg le_rfl)

/-- A significand is rounded by at most a half. -/
theorem StandsFor.near_roundedMantissa {em : ExtendedMantissa} {v : ℚ} (stands : StandsFor em v) :
    |(em.roundedMantissa : ℚ) - v| ≤ 1 / 2 := by
  obtain ⟨m, roundBit, stickyBit⟩ := em
  unfold StandsFor halves at stands
  have parity := Nat.mod_two_eq_zero_or_one m
  rw [abs_le]
  cases roundBit <;> cases stickyBit
  case false.false =>
    have rounded : ExtendedMantissa.roundedMantissa ⟨m, false, false⟩ = m := rfl
    simp at stands
    rw [rounded]
    constructor <;> linarith
  case false.true =>
    have rounded : ExtendedMantissa.roundedMantissa ⟨m, false, true⟩ = m := rfl
    simp at stands
    rw [rounded]
    constructor <;> linarith
  case true.false =>
    have rounded : ExtendedMantissa.roundedMantissa ⟨m, true, false⟩ = m + m % 2 := rfl
    simp at stands
    rw [rounded]
    rcases parity with even | odd
    · rw [even]
      push_cast
      constructor <;> linarith
    · rw [odd]
      push_cast
      constructor <;> linarith
  case true.true =>
    have rounded : ExtendedMantissa.roundedMantissa ⟨m, true, true⟩ = m + 1 := rfl
    simp at stands
    rw [rounded]
    push_cast
    constructor <;> linarith

/-- Integers that a number is not below are not above what it is rounded to. -/
theorem StandsFor.le_roundedMantissa {em : ExtendedMantissa} {v : ℚ} (stands : StandsFor em v)
    {n : Nat} (below : n ≤ v) : n ≤ em.roundedMantissa := by
  have near := (abs_le.mp stands.near_roundedMantissa).1
  have less : (n : ℚ) < em.roundedMantissa + 1 := by linarith
  have less' : n < em.roundedMantissa + 1 := by exact_mod_cast less
  omega

/-- Integers that a number is not above are not below what it is rounded to. -/
theorem StandsFor.roundedMantissa_le {em : ExtendedMantissa} {v : ℚ} (stands : StandsFor em v)
    {n : Nat} (above : v ≤ n) : em.roundedMantissa ≤ n := by
  have near := (abs_le.mp stands.near_roundedMantissa).2
  have less : (em.roundedMantissa : ℚ) < n + 1 := by linarith
  have less' : em.roundedMantissa < n + 1 := by exact_mod_cast less
  omega

/-- A scale has at most 53 bits below the leading bit. -/
theorem shifted_le {m : Nat} {e t : Int} {v : ℚ} (high : v < m + 1) (scale : m.log2 + e - 52 ≤ t) :
    v * 2 ^ e ≤ 2 ^ 53 * 2 ^ t := by
  have bits : (m : ℚ) + 1 ≤ 2 ^ (m.log2 + 1) := by exact_mod_cast Nat.lt_log2_self
  have room : (m.log2 : Int) + 1 + e ≤ 53 + t := by omega
  calc v * 2 ^ e ≤ 2 ^ (m.log2 + 1) * 2 ^ e := by gcongr; linarith
    _ = 2 ^ ((m.log2 : Int) + 1 + e) := by
      rw [zpow_add₀ two_ne_zero ((m.log2 : Int) + 1), ← zpow_natCast]
      rfl
    _ ≤ 2 ^ (53 + t) := zpow_le_zpow_right₀ one_le_two room
    _ = 2 ^ 53 * 2 ^ t := zpow_add₀ two_ne_zero 53 t

/-- A scale above the least has the leading bit in its place. -/
theorem le_shifted {m : Nat} {e t : Int} {v : ℚ} (low : m ≤ v) (nonzero : m ≠ 0)
    (scale : t ≤ m.log2 + e - 52) : 2 ^ 52 * 2 ^ t ≤ v * 2 ^ e := by
  have bits : (2 : ℚ) ^ m.log2 ≤ m := by exact_mod_cast Nat.log2_self_le nonzero
  have room : 52 + t ≤ m.log2 + e := by omega
  calc (2 : ℚ) ^ 52 * 2 ^ t = 2 ^ (52 + t) := (zpow_add₀ two_ne_zero 52 t).symm
    _ ≤ 2 ^ ((m.log2 : Int) + e) := zpow_le_zpow_right₀ one_le_two room
    _ = 2 ^ m.log2 * 2 ^ e := by rw [zpow_add₀ two_ne_zero, zpow_natCast]
    _ ≤ v * 2 ^ e := by gcongr; linarith

/-- The scale at which a magnitude is rounded: either the least, or the magnitude
has a leading bit there. -/
structure RoundingScale (w : ℚ) (t : Int) : Prop where
  /-- It is no less than the least scale. -/
  least : -1074 ≤ t
  /-- There are at most 53 bits. -/
  bounded : w ≤ 2 ^ 53 * 2 ^ t
  /-- There are at least 53 unless the scale is the least. -/
  normal : t = -1074 ∨ 2 ^ 52 * 2 ^ t ≤ w

/-- The scale of the leading bit is the one at which a magnitude is rounded. -/
theorem StandsFor.roundingScale {m : Nat} {e : Int} {a : Accuracy} {v : ℚ}
    (stands : StandsFor (.ofMantissaAndAccuracy m a) v) (fits : e ≤ targetScale m e) :
    RoundingScale (v * 2 ^ e) (targetScale m e) := by
  have mantissa : (ExtendedMantissa.ofMantissaAndAccuracy m a).mantissa = m := by
    cases a with
    | exact => rfl
    | inexact order => cases order <;> rfl
  obtain ⟨low, high⟩ := stands.floor
  rw [mantissa] at low high
  have scale := targetScale_eq m e
  refine ⟨by omega, shifted_le high (by omega), ?_⟩
  by_cases least : targetScale m e = -1074
  · exact .inl least
  · right
    have nonzero : m ≠ 0 := by
      rintro rfl
      have none : Nat.log2 0 = 0 := rfl
      omega
    exact le_shifted low nonzero (by omega)

/-- A double that is positive is a significand at a scale. -/
theorem Representable.nonpos_or_canonical {a : ℚ} (r : Representable a) :
    a ≤ 0 ∨ ∃ k f, Canonical k f ∧ a = k * 2 ^ f := by
  obtain ⟨u, holds⟩ := r
  cases holds with
  | zero => exact .inl le_rfl
  | @finite s k f h =>
    cases s with
    | negative =>
      have magnitude : (0 : ℚ) ≤ k * 2 ^ f := by positivity
      left
      rw [signFactor, neg_one_mul, neg_mul]
      exact neg_nonpos.mpr magnitude
    | positive => exact .inr ⟨k, f, h, by rw [signFactor, one_mul]⟩

/-- No double exceeds the greatest. -/
theorem Representable.le_greatestDouble {a : ℚ} (r : Representable a) : a ≤ greatestDouble := by
  rcases r.nonpos_or_canonical with nonpos | ⟨m, e, h, rfl⟩
  · exact nonpos.trans (mul_nonneg (Nat.cast_nonneg _) (zpow_pos two_pos _).le)
  · have bits : m ≤ 2 * leadingBit - 1 := Nat.le_pred_of_lt h.bounded
    have scale := h.greatest
    unfold greatestDouble
    gcongr
    exact one_le_two

/-- A double with a finer scale lies below the leading bit of a magnitude. -/
theorem RoundingScale.finer {w : ℚ} {t : Int} (scale : RoundingScale w t) {k : Nat} {f : Int}
    (h : Canonical k f) (less : f < t) :
    (k : ℚ) * 2 ^ f < 2 ^ 52 * 2 ^ t ∧ 2 ^ 52 * 2 ^ t ≤ w := by
  constructor
  · have bits : (k : ℚ) < 2 ^ 53 := by exact_mod_cast h.bounded
    calc (k : ℚ) * 2 ^ f < 2 ^ 53 * 2 ^ f := by gcongr
      _ ≤ 2 ^ 53 * 2 ^ (t - 1) := by gcongr; exacts [one_le_two, by omega]
      _ = 2 ^ 52 * 2 ^ t := by rw [zpow_sub_one₀ two_ne_zero]; ring
  · rcases scale.normal with least | normal
    · have := h.least
      omega
    · exact normal

/-- A double with a coarser scale is an integer at a finer one. -/
theorem coarser_eq (k : Nat) {f t : Int} (more : t ≤ f) :
    (k : ℚ) * 2 ^ f = (k * 2 ^ (f - t).toNat : ℕ) * 2 ^ t := by
  have distance : f = ((f - t).toNat : Int) + t := by omega
  conv_lhs => rw [distance]
  rw [zpow_add₀ two_ne_zero, zpow_natCast]
  push_cast
  ring

/-- A half of the unit at the scale of a magnitude is the error of rounding it. -/
theorem RoundingScale.half_le {w : ℚ} {t : Int} (scale : RoundingScale w t) :
    1 / 2 * 2 ^ t ≤ roundingError w := by
  rcases scale.normal with least | normal
  · have half : (1 / 2 : ℚ) * 2 ^ (-1074 : Int) = 2 ^ (-1075 : Int) := by
      rw [show (-1075 : Int) = -1074 - 1 by rfl, zpow_sub_one₀ two_ne_zero]
      ring
    rw [least, half]
    exact le_max_right _ _
  · have share : (2 : ℚ) ^ 52 * 2 ^ (-53 : Int) = 1 / 2 := by norm_num
    refine le_trans ?_ (le_max_left _ _)
    rw [← share, mul_right_comm]
    gcongr

/-- A magnitude is rounded to an integer at its scale that is off by a half at most
and on the same side of every other integer. -/
theorem RoundingScale.roundsTo {w v : ℚ} {t : Int} {r : Nat} (scale : RoundingScale w t)
    (value : v * 2 ^ t = w) (nonneg : 0 ≤ v) (near : |(r : ℚ) - v| ≤ 1 / 2)
    (below : ∀ n : Nat, n ≤ v → n ≤ r) (above : ∀ n : Nat, v ≤ n → r ≤ n) :
    RoundsTo w (r * 2 ^ t) := by
  have unit : (0 : ℚ) < 2 ^ t := zpow_pos two_pos t
  have integer {n : Nat} : (n : ℚ) * 2 ^ t ≤ w ↔ n ≤ v := by
    rw [← value]
    exact mul_le_mul_iff_of_pos_right unit
  have integer' {n : Nat} : w ≤ n * 2 ^ t ↔ v ≤ n := by
    rw [← value]
    exact mul_le_mul_iff_of_pos_right unit
  refine ⟨?_, ?_, ?_⟩
  · refine le_trans ?_ scale.half_le
    rw [← value, ← sub_mul, abs_mul, abs_of_pos unit]
    gcongr
  · intro a double less
    rcases double.nonpos_or_canonical with nonpos | ⟨k, f, h, rfl⟩
    · exact le_trans nonpos (by positivity)
    · rcases lt_or_ge f t with fine | coarse
      · obtain ⟨small, leading⟩ := scale.finer h fine
        have leading' : (2 ^ 52 : ℕ) ≤ r := below _ (integer.mp (by exact_mod_cast leading))
        have leading'' : (2 : ℚ) ^ 52 ≤ r := by exact_mod_cast leading'
        exact le_trans small.le (by gcongr)
      · rw [coarser_eq k coarse] at less ⊢
        have integer := below _ (integer.mp less)
        gcongr
  · intro a double less
    rcases double.nonpos_or_canonical with nonpos | ⟨k, f, h, rfl⟩
    · have magnitude : 0 ≤ w := by rw [← value]; positivity
      have zero : w ≤ (0 : ℕ) * 2 ^ t := by rw [Nat.cast_zero, zero_mul]; linarith
      have none := Nat.le_zero.mp (above 0 (integer'.mp zero))
      rw [none, Nat.cast_zero, zero_mul]
      linarith
    · rcases lt_or_ge f t with fine | coarse
      · obtain ⟨small, leading⟩ := scale.finer h fine
        linarith
      · rw [coarser_eq k coarse] at less ⊢
        have integer := above _ (integer'.mp less)
        gcongr

/-- What rounding a magnitude under a sign gives before it is put together. -/
inductive Rounded (s : Sign) (w : ℚ) : UnpackedFloat → Prop where
  /-- A zero. -/
  | zero (rounds : RoundsTo w 0) : Rounded s w (.zero s)
  /-- A significand at a scale. -/
  | finite {m : Nat} {e : Int} (h : Canonical m e) (rounds : RoundsTo w (m * 2 ^ e)) :
    Rounded s w (.finite s m e h.positive)
  /-- Something that is put together to an infinity. -/
  | tooLarge {m : Nat} {e : Int} (positive : 0 < m) (beyond : 971 < e)
    (large : greatestDouble < w) : Rounded s w (.finite s m e positive)

/-- A significand without superfluous bits stays at its scale. -/
theorem targetScale_eq_self {m : Nat} {e : Int} (bounded : m < 2 ^ 53) (least : -1074 ≤ e)
    (normal : 2 ^ 52 ≤ m ∨ e = -1074) : targetScale m e = e := by
  have upper : m.log2 < 53 := by
    by_cases zero : m = 0
    · rw [zero]
      decide
    · exact (Nat.log2_lt zero).mpr bounded
  rw [targetScale_eq]
  rcases normal with leading | subnormal
  · have lower : 52 ≤ m.log2 := (Nat.le_log2 (by omega)).mpr leading
    omega
  · omega

/-- The greatest double is one. -/
theorem representable_greatestDouble : Representable greatestDouble :=
  representable_natCast_mul_zpow (by decide) (by decide) le_rfl

/-- The least significand at the next scale exceeds the greatest double. -/
theorem greatestDouble_lt_next : greatestDouble < 2 ^ 52 * 2 ^ (972 : Int) := by
  have bits : ((2 * leadingBit - 1 : ℕ) : ℚ) < 2 ^ 52 * 2 := by
    have bits' : 2 * leadingBit - 1 < 2 ^ 52 * 2 := by decide
    exact_mod_cast bits'
  have step : (2 : ℚ) ^ (972 : Int) = 2 * 2 ^ (971 : Int) := by
    rw [show (972 : Int) = 1 + 971 by rfl, zpow_add₀ two_ne_zero, zpow_one]
  rw [greatestDouble, step, ← mul_assoc]
  gcongr

/-- A significand at a scale that a magnitude is rounded to is a double, unless the
magnitude exceeds the greatest. -/
theorem RoundsTo.rounded {s : Sign} {w : ℚ} {m : Nat} {e : Int} (rounds : RoundsTo w (m * 2 ^ e))
    (positive : 0 < m) (bounded : m < 2 ^ 53) (least : -1074 ≤ e)
    (normal : 2 ^ 52 ≤ m ∨ e = -1074) : Rounded s w (.finite s m e positive) := by
  rcases le_or_gt e 971 with small | beyond
  · exact .finite ⟨positive, bounded, least, small, normal⟩ rounds
  · refine .tooLarge positive beyond ?_
    by_contra notLarge
    have bound := rounds.above _ representable_greatestDouble (not_lt.mp notLarge)
    have leading : (2 : ℚ) ^ 52 ≤ m := by
      have leading' : 2 ^ 52 ≤ m := by omega
      exact_mod_cast leading'
    have more : (2 : ℚ) ^ 52 * 2 ^ (972 : Int) ≤ m * 2 ^ e := by
      gcongr
      exacts [one_le_two, by omega]
    exact absurd (more.trans bound) (not_le.mpr greatestDouble_lt_next)

/-- One bit too many is shifted out, and what is shifted out is zero. -/
theorem shiftToTargetExponent_carry {e : Int} (least : -1074 ≤ e) :
    shiftToTargetExponent .binary64 (2 ^ 53) e .exact = (⟨2 ^ 52, false, false⟩, e + 1) := by
  have bits : (2 ^ 53).log2 = 53 := by decide
  have target : targetScale (2 ^ 53) e = e + 1 := by
    rw [targetScale_eq, bits]
    omega
  have one : (e + 1 - e).toNat = 1 := by omega
  rw [shiftToTargetExponent_eq (by omega), target, one]
  rfl

/-- Shifting to the scale at which it is leaves a significand alone. -/
theorem shiftToTargetExponent_self {m : Nat} {e : Int} (at_scale : targetScale m e = e) :
    shiftToTargetExponent .binary64 m e .exact = (⟨m, false, false⟩, e) := by
  rw [shiftToTargetExponent_eq at_scale.ge, at_scale, sub_self]
  rfl

/-- A magnitude is rounded to an integer at a scale of doubles: one of at most 53 bits, or
the power of two above those. -/
structure RoundsAt (w : ℚ) (r : Nat) (t : Int) : Prop where
  /-- The integer at its scale is what the magnitude is rounded to. -/
  rounds : RoundsTo w (r * 2 ^ t)
  /-- At most one bit is carried beyond the 53rd. -/
  bounded : r ≤ 2 ^ 53
  /-- The scale is no less than the least. -/
  least : -1074 ≤ t
  /-- There is a 53rd bit unless the scale is the least. -/
  normal : 2 ^ 52 ≤ r ∨ t = -1074

/-- Residual bits are rounded at the scale of the leading bit. -/
theorem StandsFor.roundsAt {m : Nat} {e : Int} {a : Accuracy} {v : ℚ}
    (stands : StandsFor (.ofMantissaAndAccuracy m a) v) (fits : e ≤ targetScale m e) :
    RoundsAt (v * 2 ^ e)
      (ExtendedMantissa.ofMantissaAndAccuracy m a >>> (targetScale m e - e).toNat).roundedMantissa
      (targetScale m e) := by
  have scale := stands.roundingScale fits
  have nonneg : 0 ≤ v := le_trans (Nat.cast_nonneg _) stands.floor.1
  have shifted := stands.shiftRight (targetScale m e - e).toNat
  have value : v / 2 ^ (targetScale m e - e).toNat * 2 ^ targetScale m e = v * 2 ^ e := by
    generalize room : (targetScale m e - e).toNat = n
    rw [show targetScale m e = n + e by omega, zpow_add₀ two_ne_zero, zpow_natCast, ← mul_assoc,
      div_mul_cancel₀ _ (by positivity)]
  have nonneg' : 0 ≤ v / 2 ^ (targetScale m e - e).toNat := by positivity
  have rounds := scale.roundsTo value nonneg' shifted.near_roundedMantissa
    (fun n => shifted.le_roundedMantissa) (fun n => shifted.roundedMantissa_le)
  refine ⟨rounds, ?_, scale.least, ?_⟩
  · apply shifted.roundedMantissa_le
    have bound := scale.bounded
    rw [← value] at bound
    push_cast
    exact le_of_mul_le_mul_right bound (zpow_pos two_pos _)
  · rcases scale.normal with subnormal | leading
    · exact .inr subnormal
    · left
      apply shifted.le_roundedMantissa
      rw [← value] at leading
      push_cast
      exact le_of_mul_le_mul_right leading (zpow_pos two_pos _)

/-- A magnitude that a significand with residual bits stands for is rounded. -/
theorem rounded_roundWithAccuracy {m : Nat} {e : Int} {a : Accuracy} {v : ℚ}
    (stands : StandsFor (.ofMantissaAndAccuracy m a) v) (fits : e ≤ targetScale m e) (s : Sign) :
    Rounded s (v * 2 ^ e) (roundWithAccuracy .binary64 s m e a) := by
  have roundsAt := stands.roundsAt fits
  unfold roundWithAccuracy
  rw [shiftToTargetExponent_eq fits]
  dsimp only
  generalize (ExtendedMantissa.ofMantissaAndAccuracy m a >>>
    (targetScale m e - e).toNat).roundedMantissa = r at roundsAt ⊢
  generalize targetScale m e = t at roundsAt ⊢
  obtain ⟨rounds, bounded, least, normal⟩ := roundsAt
  rcases Nat.lt_or_eq_of_le bounded with less | carry
  · rw [shiftToTargetExponent_self (targetScale_eq_self less least normal)]
    dsimp only
    by_cases zero : r = 0
    · rw [dif_pos zero]
      rw [zero, Nat.cast_zero, zero_mul] at rounds
      exact .zero rounds
    · rw [dif_neg zero]
      exact rounds.rounded (Nat.pos_of_ne_zero zero) less least normal
  · -- the carried bit is shifted out, to the 53rd bit at the next scale
    rw [carry, shiftToTargetExponent_carry least]
    have same : ((2 ^ 53 : ℕ) : ℚ) * 2 ^ t = (2 ^ 52 : ℕ) * 2 ^ (t + 1) := by
      rw [zpow_add_one₀ two_ne_zero]
      push_cast
      ring
    rw [carry, same] at rounds
    exact rounds.rounded (by decide) (by decide) (by omega) (.inl le_rfl)

/-- A magnitude is rounded from any scale. -/
theorem rounded_round {m : Nat} (positive : 0 < m) (e : Int) (s : Sign) :
    Rounded s (m * 2 ^ e) (UnpackedFloat.round .binary64 s m e) := by
  have fits : e - (e - targetScale m e).toNat ≤
      targetScale (m <<< (e - targetScale m e).toNat) (e - (e - targetScale m e).toNat) := by
    rw [targetScale_shiftLeft positive]
    omega
  have rounded := rounded_roundWithAccuracy
    (standsFor_exact (m <<< (e - targetScale m e).toNat)) fits s
  rw [shiftLeft_mul_zpow] at rounded
  exact rounded

/-- An integer that is not negative is rounded from any scale. -/
theorem rounded_normalize {n : Int} (nonneg : 0 ≤ n) (e : Int) :
    Rounded .positive (n * 2 ^ e) (UnpackedFloat.normalize .binary64 n e .positive) := by
  unfold UnpackedFloat.normalize
  cases order : compare n 0 with
  | lt => exact absurd nonneg (not_le.mpr (Int.compare_eq_lt.mp order))
  | eq =>
    obtain rfl : n = 0 := Int.compare_eq_eq.mp order
    rw [Int.cast_zero, zero_mul]
    exact .zero (roundsTo_self 0)
  | gt =>
    have positive : 0 < n := Int.compare_eq_gt.mp order
    have magnitude : ((n.toNat : ℕ) : ℚ) = n := by
      have cast : ((n.toNat : ℕ) : Int) = n := Int.toNat_of_nonneg nonneg
      exact_mod_cast cast
    rw [← magnitude]
    exact rounded_round (by omega) e .positive

/-- What is too large is put together to an infinity. -/
theorem isInf_packed_of_tooLarge (s : Sign) {m : Nat} {e : Int} (positive : 0 < m)
    (beyond : 971 < e) : (packed (.finite s m e positive)).isInf = true := by
  have word_eq := word_packed_finite s e positive
  generalize packed (.finite s m e positive) = x at word_eq ⊢
  rw [if_pos (by omega)] at word_eq
  obtain ⟨-, exponent, fraction⟩ := parts_of_word_eq word_eq
  exact (isInf_iff x).mpr ⟨exponent, fraction⟩

/-- A magnitude is rounded to a double, or to an infinity if it exceeds the greatest. -/
theorem Rounded.exactly_or_isInf {w : ℚ} {u : UnpackedFloat} (h : Rounded .positive w u) :
    (∃ r, RoundsTo w r ∧ Exactly (packed u) r) ∨
      (greatestDouble < w ∧ (packed u).isInf = true) := by
  cases h with
  | zero rounds => exact .inl ⟨0, rounds, (Holds.zero .positive).packed⟩
  | @finite m e h rounds =>
    have holds := Holds.finite .positive h
    rw [signFactor, one_mul] at holds
    exact .inl ⟨m * 2 ^ e, rounds, holds.packed⟩
  | tooLarge positive beyond large =>
    exact .inr ⟨large, isInf_packed_of_tooLarge .positive positive beyond⟩

/-- A significand at a scale has the sign of its number. -/
theorem Canonical.eq_positive {m : Nat} {e : Int} (h : Canonical m e) {s : Sign}
    (nonneg : 0 ≤ signFactor s * m * 2 ^ e) : s = .positive := by
  cases s with
  | positive => rfl
  | negative =>
    have magnitude : (0 : ℚ) < m * 2 ^ e :=
      mul_pos (Nat.cast_pos.mpr h.positive) (zpow_pos two_pos e)
    rw [signFactor, neg_one_mul, neg_mul] at nonneg
    linarith

section Operations

variable {x y : Float} {p q : ℚ}

/-- A sum that is not negative is rounded, if it is no double. -/
theorem Holds.rounded_add {a b : UnpackedFloat} (ha : Holds a p) (hb : Holds b q)
    (nonneg : 0 ≤ p + q) (inexact : ¬ Representable (p + q)) :
    Rounded .positive (p + q) (UnpackedFloat.add .binary64 a b) := by
  cases ha with
  | zero s =>
    rw [zero_add] at inexact
    exact absurd ⟨b, hb⟩ inexact
  | @finite s m e h =>
    cases hb with
    | zero t =>
      rw [add_zero] at inexact
      exact absurd ⟨_, .finite s h⟩ inexact
    | @finite t n f h' =>
      have left := apply_decreaseExponent s m (min_le_left e f)
      have right := apply_decreaseExponent t n (min_le_right e f)
      have sum : ((s.apply (decreaseExponent m e (min e f)).1 +
          t.apply (decreaseExponent n f (min e f)).1 : Int) : ℚ) * 2 ^ min e f =
            signFactor s * m * 2 ^ e + signFactor t * n * 2 ^ f := by
        rw [Int.cast_add, add_mul, left, right]
      rw [← sum] at nonneg ⊢
      have integer := nonneg_of_mul_nonneg_left nonneg (zpow_pos two_pos _)
      exact rounded_normalize (Int.cast_nonneg_iff.mp integer) (min e f)

/-- A product of what is not negative is rounded, if it is no double. -/
theorem Holds.rounded_mul {a b : UnpackedFloat} (ha : Holds a p) (hb : Holds b q)
    (nonneg : 0 ≤ p) (nonneg' : 0 ≤ q) (inexact : ¬ Representable (p * q)) :
    Rounded .positive (p * q) (UnpackedFloat.mul .binary64 a b) := by
  cases ha with
  | zero s =>
    rw [zero_mul] at inexact
    exact absurd ⟨_, .zero s⟩ inexact
  | @finite s m e h =>
    cases hb with
    | zero t =>
      rw [mul_zero] at inexact
      exact absurd ⟨_, .zero t⟩ inexact
    | @finite t n f h' =>
      obtain rfl := h.eq_positive nonneg
      obtain rfl := h'.eq_positive nonneg'
      have product : signFactor .positive * m * 2 ^ e * (signFactor .positive * n * 2 ^ f) =
          ((m * n : ℕ) : ℚ) * 2 ^ (e + f) := by
        rw [signFactor, zpow_add₀ two_ne_zero]
        push_cast
        ring
      rw [product]
      exact rounded_roundWithAccuracy (standsFor_exact (m * n)) (h.fits_mul h') .positive

/-- A sum that is not negative is rounded, or infinite if it is too large. -/
theorem Exactly.roundsTo_add_or_isInf (hx : Exactly x p) (hy : Exactly y q) (nonneg : 0 ≤ p + q) :
    (∃ r, RoundsTo (p + q) r ∧ Exactly (x + y) r) ∨
      (greatestDouble < p + q ∧ (x + y).isInf = true) := by
  by_cases double : Representable (p + q)
  · exact .inl ⟨p + q, roundsTo_self _, hx.add hy double⟩
  · exact (hx.holds.rounded_add hy.holds nonneg double).exactly_or_isInf

/-- A sum that is neither negative nor too large is rounded. -/
theorem Exactly.roundsTo_add (hx : Exactly x p) (hy : Exactly y q) (nonneg : 0 ≤ p + q)
    (small : p + q ≤ greatestDouble) : ∃ r, RoundsTo (p + q) r ∧ Exactly (x + y) r :=
  (hx.roundsTo_add_or_isInf hy nonneg).resolve_right fun large => small.not_gt large.1

/-- A product that is not negative is rounded, or infinite if it is too large. -/
theorem Exactly.roundsTo_mul_or_isInf (hx : Exactly x p) (hy : Exactly y q) (nonneg : 0 ≤ p)
    (nonneg' : 0 ≤ q) :
    (∃ r, RoundsTo (p * q) r ∧ Exactly (x * y) r) ∨
      (greatestDouble < p * q ∧ (x * y).isInf = true) := by
  by_cases double : Representable (p * q)
  · exact .inl ⟨p * q, roundsTo_self _, hx.mul hy double⟩
  · exact (hx.holds.rounded_mul hy.holds nonneg nonneg' double).exactly_or_isInf

/-- A product that is neither negative nor too large is rounded. -/
theorem Exactly.roundsTo_mul (hx : Exactly x p) (hy : Exactly y q) (nonneg : 0 ≤ p)
    (nonneg' : 0 ≤ q) (small : p * q ≤ greatestDouble) :
    ∃ r, RoundsTo (p * q) r ∧ Exactly (x * y) r :=
  (hx.roundsTo_mul_or_isInf hy nonneg nonneg').resolve_right fun large => small.not_gt large.1

end Operations

end Calculator
