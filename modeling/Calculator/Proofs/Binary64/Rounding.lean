import Calculator.Proofs.Binary64.Format
import Mathlib.Algebra.Order.Field.Basic
import Mathlib.Algebra.Order.Field.Power
import Mathlib.Tactic.FieldSimp
import Mathlib.Tactic.Linarith
import Mathlib.Tactic.NormNum
import Mathlib.Tactic.Ring

/-!
# Rounding what a double can hold

An operation first computes a significand that may be too long, with two bits
for what is cut off behind it, and then shifts it to the scale of its leading
bit. The two bits always tell where the exact result lies, so a result that a
double can hold is found at its own scale, with nothing cut off.
-/

namespace Calculator

open Float.Model Float.Model.UnpackedFloat

/-- A significand with its round bit, in halves. -/
def halves (em : ExtendedMantissa) : Nat := 2 * em.mantissa + em.roundBit.toNat

/-- A significand with its two residual bits stands for a number: its halves are
the number, or, if the sticky bit is set, less than a half is missing. -/
def StandsFor (em : ExtendedMantissa) (v : ℚ) : Prop :=
  if em.stickyBit then (halves em : ℚ) < 2 * v ∧ 2 * v < halves em + 1 else 2 * v = halves em

/-- A significand is the integer part of the number that it stands for. -/
theorem StandsFor.floor {em : ExtendedMantissa} {v : ℚ} (stands : StandsFor em v) :
    em.mantissa ≤ v ∧ v < em.mantissa + 1 := by
  have low : (2 * em.mantissa : ℚ) ≤ halves em := by
    unfold halves
    norm_cast
    omega
  have high : (halves em : ℚ) + 1 ≤ 2 * em.mantissa + 2 := by
    have bit := Bool.toNat_le em.roundBit
    unfold halves
    norm_cast
    omega
  unfold StandsFor at stands
  split at stands
  · constructor <;> linarith [stands.1, stands.2]
  · constructor <;> linarith

/-- The residual bits tell whether anything is cut off. -/
theorem StandsFor.residue {em : ExtendedMantissa} {v : ℚ} (stands : StandsFor em v) :
    (em.roundBit || em.stickyBit) = true ↔ em.mantissa < v := by
  unfold StandsFor halves at stands
  cases sticky : em.stickyBit with
  | true =>
    rw [if_pos sticky] at stands
    have nonneg : (0 : ℚ) ≤ em.roundBit.toNat := Nat.cast_nonneg _
    push_cast at stands
    have more : (em.mantissa : ℚ) < v := by linarith [stands.1]
    simp [more]
  | false =>
    rw [if_neg (by simp [sticky])] at stands
    push_cast at stands
    cases round : em.roundBit with
    | true =>
      have more : (em.mantissa : ℚ) < v := by
        rw [round, Bool.toNat_true] at stands
        push_cast at stands
        linarith
      simp [more]
    | false =>
      have same : v ≤ em.mantissa := by
        rw [round, Bool.toNat_false] at stands
        push_cast at stands
        linarith
      simp [same]

/-- A shift makes the significand the halves. -/
theorem halves_shiftRightOne (em : ExtendedMantissa) : halves em.shiftRightOne = em.mantissa := by
  show 2 * (em.mantissa / 2) + (em.mantissa % 2 != 0).toNat = em.mantissa
  rcases Nat.mod_two_eq_zero_or_one em.mantissa with even | odd
  · rw [even]
    show 2 * (em.mantissa / 2) + 0 = _
    omega
  · rw [odd]
    show 2 * (em.mantissa / 2) + 1 = _
    omega

/-- A shift by one bit halves the number. -/
theorem StandsFor.shiftRightOne {em : ExtendedMantissa} {v : ℚ} (stands : StandsFor em v) :
    StandsFor em.shiftRightOne (v / 2) := by
  obtain ⟨low, high⟩ := stands.floor
  have sticky : em.shiftRightOne.stickyBit = (em.roundBit || em.stickyBit) := rfl
  have double : 2 * (v / 2) = v := by ring
  unfold StandsFor
  rw [halves_shiftRightOne, sticky, double]
  split
  · rename_i cut
    exact ⟨stands.residue.mp cut, high⟩
  · rename_i whole
    exact le_antisymm (not_lt.mp (mt stands.residue.mpr whole)) low

/-- A shift divides the number by a power of two. -/
theorem StandsFor.shiftRight {em : ExtendedMantissa} {v : ℚ} (stands : StandsFor em v) (n : Nat) :
    StandsFor (em >>> n) (v / 2 ^ n) := by
  induction n with
  | zero =>
    rw [pow_zero, div_one]
    exact stands
  | succ n ih =>
    have halved := ih.shiftRightOne
    rw [div_div, ← pow_succ] at halved
    exact halved

/-- An integer is rounded to itself. -/
theorem StandsFor.roundedMantissa {em : ExtendedMantissa} {n : Nat} (stands : StandsFor em n) :
    em.roundedMantissa = n := by
  obtain ⟨low, high⟩ := stands.floor
  have low' : em.mantissa ≤ n := by exact_mod_cast low
  have high' : n < em.mantissa + 1 := by exact_mod_cast high
  have same : em.mantissa = n := by omega
  have whole : (em.roundBit || em.stickyBit) = false := by
    rw [Bool.eq_false_iff, Ne, stands.residue, same]
    exact lt_irrefl _
  obtain ⟨m, roundBit, stickyBit⟩ := em
  obtain ⟨rfl, rfl⟩ := Bool.or_eq_false_iff.mp whole
  exact same

/-- A significand that is exact stands for itself. -/
theorem standsFor_exact (m : Nat) : StandsFor (.ofMantissaAndAccuracy m .exact) m := by
  show 2 * (m : ℚ) = (2 * m + 0 : Nat)
  push_cast
  ring

/-- A quotient with its remainder stands for the fraction. -/
theorem standsFor_fraction (n : Nat) {d : Nat} (positive : 0 < d) :
    StandsFor (.ofMantissaAndAccuracy (n / d) (accuracyOfFraction (n % d) d)) (n / d : ℚ) := by
  have split : (n : ℚ) = d * (n / d : ℕ) + (n % d : ℕ) := by
    exact_mod_cast (Nat.div_add_mod n d).symm
  have below : ((n % d : ℕ) : ℚ) < d := by exact_mod_cast Nat.mod_lt n positive
  have positive' : (0 : ℚ) < d := by exact_mod_cast positive
  have value : (n / d : ℚ) = (n / d : ℕ) + (n % d : ℕ) / d := by
    rw [split, add_div, mul_div_cancel_left₀ _ positive'.ne']
  rw [value]
  generalize n / d = q
  generalize n % d = r at below
  unfold accuracyOfFraction
  by_cases zero : r = 0
  · rw [if_pos zero, zero]
    simpa using standsFor_exact q
  · have part : (0 : ℚ) < r / d := div_pos (by exact_mod_cast Nat.pos_of_ne_zero zero) positive'
    have proper : (r / d : ℚ) < 1 := (div_lt_one positive').mpr below
    rw [if_neg zero]
    cases order : compare (2 * r) d with
    | lt =>
      have less : 2 * (r / d : ℚ) < 1 := by
        rw [← mul_div_assoc, div_lt_one positive']
        exact_mod_cast Nat.compare_eq_lt.mp order
      show ((2 * q + 0 : ℕ) : ℚ) < _ ∧ _ < ((2 * q + 0 : ℕ) : ℚ) + 1
      push_cast
      constructor <;> linarith
    | eq =>
      have same : 2 * (r / d : ℚ) = 1 := by
        rw [← mul_div_assoc, div_eq_one_iff_eq positive'.ne']
        exact_mod_cast Nat.compare_eq_eq.mp order
      show _ = ((2 * q + 1 : ℕ) : ℚ)
      push_cast
      linarith
    | gt =>
      have more : 1 < 2 * (r / d : ℚ) := by
        rw [← mul_div_assoc, one_lt_div positive']
        exact_mod_cast Nat.compare_eq_gt.mp order
      show ((2 * q + 1 : ℕ) : ℚ) < _ ∧ _ < ((2 * q + 1 : ℕ) : ℚ) + 1
      push_cast
      constructor <;> linarith

/-- The scale of a double whose leading bit is that of `m * 2 ^ e`. -/
def targetScale (m : Nat) (e : Int) : Int := Format.binary64.targetExponent (totalExponent m e)

/-- The leading bit is the 53rd, unless the scale is the least. -/
theorem targetScale_eq (m : Nat) (e : Int) : targetScale m e = max (m.log2 + e - 52) (-1074) := by
  have digits : (Format.binary64.mantissaBits : Int) = 53 := rfl
  have least : Format.binary64.minExponent = -1074 := rfl
  unfold targetScale Format.targetExponent totalExponent
  rw [digits, least]
  omega

/-- What a double holds is at its scale. -/
theorem Canonical.at_targetScale {m : Nat} {e : Int} (h : Canonical m e) : targetScale m e = e := by
  have leading := h.log2_eq_iff
  have upper : m.log2 < 53 := (Nat.log2_lt h.positive.ne').mpr h.bounded
  have least := h.least
  rw [targetScale_eq]
  rcases h.normal with normal | subnormal
  · have exact := leading.mpr normal
    omega
  · omega

/-- Two powers of two compare as their exponents do. -/
theorem two_zpow_lt_iff (a b : Int) : (2 : ℚ) ^ a < 2 ^ b ↔ a < b :=
  zpow_lt_zpow_iff_right₀ one_lt_two

/-- A leading bit that a double has is not above that of the integer part. -/
theorem le_log2_of_leadingBit_le {m k : Nat} {e f : Int} {v : ℚ} (high : v < m + 1)
    (value : v * 2 ^ e = k * 2 ^ f) (normal : leadingBit ≤ k) : f ≤ m.log2 + e - 52 := by
  have two : (2 : ℚ) ≠ 0 := two_ne_zero
  have bits : (m : ℚ) + 1 ≤ 2 ^ ((m.log2 : Int) + 1) := by
    have bound : m + 1 ≤ 2 ^ (m.log2 + 1) := Nat.lt_log2_self
    exact_mod_cast bound
  have normal' : (2 : ℚ) ^ (52 : Int) ≤ k := by exact_mod_cast normal
  have chain : (2 : ℚ) ^ (52 + f) < 2 ^ ((m.log2 : Int) + 1 + e) := by
    rw [zpow_add₀ two, zpow_add₀ two]
    calc (2 : ℚ) ^ (52 : Int) * 2 ^ f ≤ k * 2 ^ f := by gcongr
      _ = v * 2 ^ e := value.symm
      _ < 2 ^ ((m.log2 : Int) + 1) * 2 ^ e := by gcongr; linarith
  have less := (two_zpow_lt_iff _ _).mp chain
  omega

/-- The leading bit of the integer part, if it has one, is not above the highest
that a double has. -/
theorem Canonical.log2_le {m k : Nat} {e f : Int} {v : ℚ} (h : Canonical k f) (low : m ≤ v)
    (value : v * 2 ^ e = k * 2 ^ f) (nonzero : m ≠ 0) : m.log2 + e - 52 ≤ f := by
  have two : (2 : ℚ) ≠ 0 := two_ne_zero
  have unit : (0 : ℚ) < 2 ^ f := zpow_pos two_pos f
  have bits : (2 : ℚ) ^ (m.log2 : Int) ≤ m := by
    have bound := Nat.log2_self_le nonzero
    exact_mod_cast bound
  have bounded : (k : ℚ) < 2 ^ (53 : Int) := by exact_mod_cast h.bounded
  have chain : (2 : ℚ) ^ ((m.log2 : Int) + e) < 2 ^ (53 + f) := by
    rw [zpow_add₀ two, zpow_add₀ two]
    calc (2 : ℚ) ^ (m.log2 : Int) * 2 ^ e ≤ v * 2 ^ e := by gcongr; linarith
      _ = k * 2 ^ f := value
      _ < 2 ^ (53 : Int) * 2 ^ f := by gcongr
  have less := (two_zpow_lt_iff _ _).mp chain
  omega

/-- A number that a double holds is found at the scale of the double. -/
theorem targetScale_eq_of_canonical {m k : Nat} {e f : Int} {v : ℚ} (low : m ≤ v)
    (high : v < m + 1) (fits : e ≤ targetScale m e) (h : Canonical k f)
    (value : v * 2 ^ e = k * 2 ^ f) : targetScale m e = f := by
  have least := h.least
  rw [targetScale_eq] at fits ⊢
  -- without an integer part the scale is the least already, since it fits
  have lower : max (m.log2 + e - 52) (-1074) ≤ f := by
    by_cases zero : m = 0
    · have bits : m.log2 = 0 := by rw [zero]; rfl
      omega
    · have below := h.log2_le low value zero
      omega
  rcases h.normal with normal | subnormal
  · have above := le_log2_of_leadingBit_le high value normal
    omega
  · omega

/-- Shifting to the scale of the leading bit only cuts off. -/
theorem shiftToTargetExponent_eq {m : Nat} {e : Int} (fits : e ≤ targetScale m e) (a : Accuracy) :
    shiftToTargetExponent .binary64 m e a =
      (ExtendedMantissa.ofMantissaAndAccuracy m a >>> (targetScale m e - e).toNat,
        targetScale m e) := by
  have reached : e + ((targetScale m e - e).toNat : Int) = targetScale m e := by omega
  exact congrArg (Prod.mk _) reached

/-- A number that a double can hold is rounded to itself. -/
theorem roundWithAccuracy_eq_finite {m k : Nat} {e f : Int} {a : Accuracy} {v : ℚ}
    (stands : StandsFor (.ofMantissaAndAccuracy m a) v) (fits : e ≤ targetScale m e)
    (h : Canonical k f) (value : v * 2 ^ e = k * 2 ^ f) (s : Sign) :
    roundWithAccuracy .binary64 s m e a = .finite s k f h.positive := by
  have mantissa : (ExtendedMantissa.ofMantissaAndAccuracy m a).mantissa = m := by
    cases a with
    | exact => rfl
    | inexact order => cases order <;> rfl
  obtain ⟨low, high⟩ := stands.floor
  rw [mantissa] at low high
  have scale := targetScale_eq_of_canonical low high fits h value
  have shifted := stands.shiftRight (f - e).toNat
  have quotient : v / 2 ^ (f - e).toNat = k := by
    have distance : f = e + ((f - e).toNat : Int) := by omega
    rw [div_eq_iff (by positivity), ← mul_left_inj' (zpow_ne_zero e two_ne_zero : (2 : ℚ) ^ e ≠ 0),
      value, mul_assoc, ← zpow_natCast, ← zpow_add₀ two_ne_zero, add_comm, ← distance]
  rw [quotient] at shifted
  have rounded := shifted.roundedMantissa
  have again := shiftToTargetExponent_eq (le_of_eq h.at_targetScale.symm) .exact
  rw [h.at_targetScale, sub_self] at again
  unfold roundWithAccuracy
  rw [shiftToTargetExponent_eq fits, scale]
  dsimp only
  rw [rounded, again]
  exact dif_neg h.positive.ne'

/-- Making room for further bits leaves the scale alone. -/
theorem targetScale_shiftLeft {m : Nat} (positive : 0 < m) (e : Int) (n : Nat) :
    targetScale (m <<< n) (e - n) = targetScale m e := by
  have bits : (m <<< n).log2 = m.log2 + n := by
    have positive' : 0 < m <<< n := by
      rw [Nat.shiftLeft_eq]
      positivity
    have lower : m.log2 + n ≤ (m <<< n).log2 := by
      rw [Nat.le_log2 positive'.ne', Nat.shiftLeft_eq, pow_add]
      exact Nat.mul_le_mul_right _ (Nat.log2_self_le positive.ne')
    have upper : (m <<< n).log2 < m.log2 + 1 + n := by
      rw [Nat.log2_lt positive'.ne', Nat.shiftLeft_eq, pow_add]
      exact Nat.mul_lt_mul_of_pos_right Nat.lt_log2_self (by positivity)
    omega
  rw [targetScale_eq, targetScale_eq, bits]
  omega

/-- Making room for further bits leaves the number alone. -/
theorem shiftLeft_mul_zpow (m : Nat) (e : Int) (n : Nat) :
    ((m <<< n : Nat) : ℚ) * 2 ^ (e - n) = m * 2 ^ e := by
  rw [Nat.shiftLeft_eq, zpow_sub₀ two_ne_zero, zpow_natCast]
  push_cast
  field_simp

/-- A number that a double can hold is rounded to itself from any scale. -/
theorem round_eq_finite {m k : Nat} {e f : Int} (h : Canonical k f)
    (value : (m : ℚ) * 2 ^ e = k * 2 ^ f) (s : Sign) :
    UnpackedFloat.round .binary64 s m e = .finite s k f h.positive := by
  have positive : 0 < m := by
    have nonzero : (k : ℚ) * 2 ^ f ≠ 0 :=
      mul_ne_zero (Nat.cast_ne_zero.mpr h.positive.ne') (zpow_ne_zero _ two_ne_zero)
    rw [← value] at nonzero
    exact Nat.pos_of_ne_zero (Nat.cast_ne_zero.mp (left_ne_zero_of_mul nonzero))
  let room := (e - targetScale m e).toNat
  have fits : e - room ≤ targetScale (m <<< room) (e - room) := by
    rw [targetScale_shiftLeft positive]
    omega
  have value' : ((m <<< room : Nat) : ℚ) * 2 ^ (e - room) = k * 2 ^ f := by
    rw [shiftLeft_mul_zpow, value]
  exact roundWithAccuracy_eq_finite (standsFor_exact _) fits h value' s

end Calculator
