import Calculator.Proofs.Binary64.Magnitude
import Mathlib.Algebra.Order.Ring.WithTop

/-!
# The order of magnitudes

Magnitudes compare as their values do, infinity being above all others. A sum of
magnitudes is not below either of them, for a double that an exact sum is not below is
not above what the sum is rounded to. Infinity stays infinity whatever is added to it,
and zero changes nothing.
-/

namespace Calculator

open Float.Model Float.Model.UnpackedFloat

/-- Infinity without a sign. -/
def infinity : Float := packed (.infinity .positive)

/-- Infinity is a magnitude. -/
theorem isMagnitude_infinity : IsMagnitude infinity := Unsigned.packed .infinity

/-- The value of a magnitude, where infinity is above every rational. -/
def extendedValue (x : Float) : WithTop ℚ := if x.isInf then ⊤ else rationalValue x

section Values

variable {x y : Float} {p q : ℚ}

/-- The value of a finite double. -/
theorem Exactly.extendedValue_eq (h : Exactly x p) : extendedValue x = p := by
  rw [extendedValue, (isNaN_isInf_of_isFinite h.finite).2, h.value]
  rfl

/-- The value of an infinite double. -/
theorem extendedValue_of_isInf (infinite : x.isInf = true) : extendedValue x = ⊤ := if_pos infinite

/-- A magnitude is infinity or a rational that is not negative. -/
theorem IsMagnitude.infinity_or_exactly (hx : IsMagnitude x) :
    x = infinity ∨ ∃ p, Exactly x p ∧ 0 ≤ p := by
  cases finite : x.isFinite with
  | true =>
    refine .inr ⟨rationalValue x, ⟨finite, rfl⟩, ?_⟩
    rw [rationalValue_of_unsigned hx.unsigned]
    positivity
  | false =>
    obtain ⟨ones, zero⟩ := (isInf_iff x).mp (hx.isInf finite)
    obtain ⟨-, ones', zero'⟩ := parts_packed_infinity .positive
    exact .inl (hx.eq_of_parts isMagnitude_infinity (ones.trans ones'.symm) (zero.trans zero'.symm))

/-- A significand at a scale that is no greater has the lesser scale, or the same one and
no greater significand. -/
theorem Canonical.le_cases {m n : Nat} {e f : Int} (h : Canonical m e) (h' : Canonical n f)
    (le : (m : ℚ) * 2 ^ e ≤ n * 2 ^ f) : e < f ∨ (e = f ∧ m ≤ n) := by
  rcases lt_trichotomy e f with less | rfl | more
  · exact .inl less
  · exact .inr ⟨rfl, by exact_mod_cast le_of_mul_le_mul_right le (zpow_pos two_pos e)⟩
  · -- a significand at a scale above the least has the leading bit
    have leading : leadingBit ≤ m := h.normal.resolve_right (by have := h'.least; omega)
    have bits : ((2 * leadingBit : ℕ) : ℚ) ≤ (m * 2 : ℕ) := by
      exact_mod_cast (by omega : 2 * leadingBit ≤ m * 2)
    have less : (n : ℚ) < (2 * leadingBit : ℕ) := by exact_mod_cast h'.bounded
    have unit : (0 : ℚ) < 2 ^ f := zpow_pos two_pos f
    have above : (n : ℚ) * 2 ^ f < m * 2 ^ e := by
      calc (n : ℚ) * 2 ^ f < (2 * leadingBit : ℕ) * 2 ^ f := by gcongr
        _ ≤ (m * 2 : ℕ) * 2 ^ f := by gcongr
        _ = m * 2 ^ (f + 1) := by
          rw [zpow_add_one₀ two_ne_zero]
          push_cast
          ring
        _ ≤ m * 2 ^ e := by
          gcongr
          exacts [one_le_two, by omega]
    exact absurd le above.not_ge

/-- Nothing is above infinity. -/
theorem Unsigned.le_infinity {a : UnpackedFloat} (ha : Unsigned a) :
    a.le (.infinity .positive) = true := by
  cases ha <;> rfl

/-- What is taken apart from magnitudes is in order if the rationals are. -/
theorem Unsigned.le_of_le {a b : UnpackedFloat} (ha : Unsigned a) (hb : Unsigned b)
    (held : Holds a p) (held' : Holds b q) (le : p ≤ q) : a.le b = true := by
  cases held with
  | zero s =>
    cases hb with
    | infinity | zero | finite => rfl
  | @finite s m e h =>
    cases ha
    have positive : (0 : ℚ) < m * 2 ^ e :=
      mul_pos (Nat.cast_pos.mpr h.positive) (zpow_pos two_pos e)
    rw [signFactor, one_mul] at le
    cases held' with
    | zero => exact absurd le positive.not_ge
    | @finite t n f h' =>
      cases hb
      rw [signFactor, one_mul] at le
      show ((compare e f).then (compare m n)).isLE = true
      rcases h.le_cases h' le with less | ⟨rfl, bound⟩
      · rw [Int.compare_eq_lt.mpr less]
        rfl
      · rw [Int.compare_eq_eq.mpr rfl]
        exact Nat.isLE_compare.mpr bound

/-- Magnitudes compare as their values do. -/
theorem IsMagnitude.le_of_extendedValue_le (hx : IsMagnitude x) (hy : IsMagnitude y)
    (le : extendedValue x ≤ extendedValue y) : x ≤ y := by
  suffices unpacked : x.toModel.unpack.le y.toModel.unpack = true by
    show decide (x.toModel ≤ y.toModel) = true
    exact decide_eq_true unpacked
  rcases hy.infinity_or_exactly with rfl | ⟨q, exactly', -⟩
  · exact hx.unpack.le_infinity
  · rcases hx.infinity_or_exactly with rfl | ⟨p, exactly, -⟩
    · rw [extendedValue_of_isInf (by decide), exactly'.extendedValue_eq, top_le_iff] at le
      exact absurd le (WithTop.coe_ne_top)
    · rw [exactly.extendedValue_eq, exactly'.extendedValue_eq, WithTop.coe_le_coe] at le
      exact hx.unpack.le_of_le hy.unpack exactly.holds exactly'.holds le

/-- Infinity takes in whatever is added to it. -/
theorem IsMagnitude.infinity_add (hy : IsMagnitude y) : infinity + y = infinity := by
  have apart := hy.unpack
  show packed (UnpackedFloat.add .binary64 (.infinity .positive) y.toModel.unpack) = infinity
  generalize y.toModel.unpack = b at apart ⊢
  cases apart <;> rfl

/-- Adding infinity gives infinity. -/
theorem IsMagnitude.add_infinity (hx : IsMagnitude x) : x + infinity = infinity := by
  have apart := hx.unpack
  show packed (UnpackedFloat.add .binary64 x.toModel.unpack (.infinity .positive)) = infinity
  generalize x.toModel.unpack = a at apart ⊢
  cases apart <;> rfl

/-- Adding zero changes nothing. -/
theorem IsMagnitude.add_zero (hx : IsMagnitude x) : x + 0 = x := by
  have apart := hx.unpack
  have whole := packed_unpack hx.number
  show packed (UnpackedFloat.add .binary64 x.toModel.unpack (.zero .positive)) = x
  generalize x.toModel.unpack = a at apart whole ⊢
  cases apart <;> exact whole

/-- Zero times a finite magnitude is zero. -/
theorem IsMagnitude.zero_mul (hy : IsMagnitude y) (finite : y.isFinite = true) : 0 * y = 0 := by
  have apart := hy.unpack
  have finite' : y.toModel.unpack.isFinite = true := finite
  show packed (UnpackedFloat.mul .binary64 (.zero .positive) y.toModel.unpack) = 0
  generalize y.toModel.unpack = b at apart finite' ⊢
  cases apart with
  | infinity => contradiction
  | zero | finite => rfl

/-- A sum of magnitudes is not below the first. -/
theorem IsMagnitude.extendedValue_le_add (hx : IsMagnitude x) (hy : IsMagnitude y) :
    extendedValue x ≤ extendedValue (x + y) := by
  rcases hx.infinity_or_exactly with rfl | ⟨p, exactly, nonneg⟩
  · rw [hy.infinity_add]
  · rcases hy.infinity_or_exactly with rfl | ⟨q, exactly', nonneg'⟩
    · rw [hx.add_infinity, extendedValue_of_isInf (x := infinity) (by decide)]
      exact le_top
    · rcases exactly.roundsTo_add_or_isInf exactly' (add_nonneg nonneg nonneg') with
        ⟨r, rounds, sum⟩ | ⟨-, infinite⟩
      · -- the first summand is a double that the exact sum is not below
        have bound := rounds.below p ⟨_, exactly.holds⟩ (le_add_of_nonneg_right nonneg')
        rw [exactly.extendedValue_eq, sum.extendedValue_eq]
        exact WithTop.coe_le_coe.mpr bound
      · rw [extendedValue_of_isInf infinite]
        exact le_top

end Values

end Calculator
