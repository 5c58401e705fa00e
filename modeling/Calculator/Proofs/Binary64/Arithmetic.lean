import Calculator.Proofs.Binary64.Rounding
import Mathlib.Tactic.Linarith

/-!
# Exact arithmetic on doubles

Every finite double is a rational. Where the sum, difference, product or
quotient of two finite doubles is a rational that some double holds, the
operation gives a finite double that is this rational. All integers of up to 53
bits are such rationals.
-/

namespace Calculator

open Float.Model Float.Model.UnpackedFloat

/-- The factor that a sign stands for. -/
def signFactor : Sign → ℚ
  | .negative => -1
  | .positive => 1

/-- The rational that a finite double is. -/
def rationalValue (x : Float) : ℚ := signFactor (signOf x) * significand x * 2 ^ scale x

/-- A double is finite and a certain rational. -/
structure Exactly (x : Float) (q : ℚ) : Prop where
  /-- It is finite. -/
  finite : x.isFinite = true
  /-- It is the rational. -/
  value : rationalValue x = q

/-- The factor of the other sign is the opposite one. -/
@[simp] theorem signFactor_neg (s : Sign) : signFactor (-s) = -signFactor s := by
  cases s with
  | negative => exact (neg_neg 1).symm
  | positive => rfl

/-- The factor of a product of signs is the product of their factors. -/
@[simp] theorem signFactor_mul (s t : Sign) : signFactor (s * t) = signFactor s * signFactor t := by
  cases s with
  | negative =>
    have flip : Sign.negative * t = -t := by cases t <;> rfl
    rw [flip, signFactor_neg]
    exact (neg_one_mul _).symm
  | positive =>
    have same : Sign.positive * t = t := by cases t <;> rfl
    rw [same]
    exact (one_mul _).symm

/-- Signs divide as they multiply. -/
theorem sign_div (s t : Sign) : s / t = s * t := by
  cases s <;> cases t <;> rfl

/-- A sign is its own inverse. -/
@[simp] theorem signFactor_mul_self (s : Sign) : signFactor s * signFactor s = 1 := by
  cases s <;> norm_num [signFactor]

/-- A sign has the magnitude one. -/
@[simp] theorem abs_signFactor (s : Sign) : |signFactor s| = 1 := by
  cases s <;> norm_num [signFactor]

/-- Applying a sign to an integer multiplies it by the factor. -/
theorem cast_apply (s : Sign) (n : Int) : ((s.apply n : Int) : ℚ) = signFactor s * n := by
  cases s with
  | negative => simp [Sign.apply, signFactor]
  | positive => simp [Sign.apply, signFactor]

/-- What an operation takes apart or puts together is a rational that a double
can hold. -/
inductive Holds : UnpackedFloat → ℚ → Prop where
  /-- A zero of either sign. -/
  | zero (s : Sign) : Holds (.zero s) 0
  /-- A significand at its scale. -/
  | finite (s : Sign) {m : Nat} {e : Int} (h : Canonical m e) :
    Holds (.finite s m e h.positive) (signFactor s * m * 2 ^ e)

/-- Some double holds the rational. -/
def Representable (q : ℚ) : Prop := ∃ u, Holds u q

/-- A double that is a rational is taken apart to what holds it. -/
theorem Exactly.holds {x : Float} {q : ℚ} (h : Exactly x q) : Holds x.toModel.unpack q := by
  obtain ⟨finite, rfl⟩ := h
  have exponent := (isFinite_iff x).mp finite
  have apart := unpacks x
  generalize x.toModel.unpack = u at apart ⊢
  cases apart with
  | infinity ones | notANumber ones => contradiction
  | zero _ zero =>
    have value : rationalValue x = 0 := by simp [rationalValue, zero]
    rw [value]
    exact .zero _
  | finite less positive => exact .finite _ (canonical less positive)

/-- What holds a rational is put together to a double that is it. -/
theorem Holds.packed {u : UnpackedFloat} {q : ℚ} (h : Holds u q) : Exactly (packed u) q := by
  cases h with
  | zero s =>
    obtain ⟨-, exponent, fraction⟩ := parts_packed_zero s
    have zero : significand (Calculator.packed (.zero s)) = 0 := by
      rw [significand, if_pos exponent, fraction]
    refine ⟨(isFinite_iff _).mpr (by rw [exponent]; decide), ?_⟩
    simp [rationalValue, zero]
  | finite s h =>
    obtain ⟨sign, exponent, significand_eq, scale_eq⟩ := packed_finite s h
    refine ⟨(isFinite_iff _).mpr exponent, ?_⟩
    rw [rationalValue, sign, significand_eq, scale_eq]

/-- A significand at a scale is not zero. -/
theorem Canonical.value_ne_zero {m : Nat} {e : Int} (h : Canonical m e) (s : Sign) :
    signFactor s * m * 2 ^ e ≠ 0 := by
  have sign : signFactor s ≠ 0 := left_ne_zero_of_mul_eq_one (signFactor_mul_self s)
  have nonzero : (m : ℚ) ≠ 0 := Nat.cast_ne_zero.mpr h.positive.ne'
  exact mul_ne_zero (mul_ne_zero sign nonzero) (zpow_ne_zero _ two_ne_zero)

/-- The magnitude of a rational other than zero that a double holds is a
significand at a scale. -/
theorem Representable.canonical {q w : ℚ} (r : Representable q) (nonzero : q ≠ 0) (nonneg : 0 ≤ w)
    {s : Sign} (signed : q = signFactor s * w) :
    ∃ m e, Canonical m e ∧ w = m * 2 ^ e := by
  obtain ⟨u, holds⟩ := r
  cases holds with
  | zero => contradiction
  | @finite t m e h =>
    refine ⟨m, e, h, ?_⟩
    have magnitude : |signFactor t * m * 2 ^ e| = |signFactor s * w| := by rw [signed]
    have nonneg' : (0 : ℚ) ≤ m * 2 ^ e := by positivity
    rw [mul_assoc, abs_mul, abs_mul (signFactor s), abs_signFactor, abs_signFactor, one_mul,
      one_mul, abs_of_nonneg nonneg', abs_of_nonneg nonneg] at magnitude
    exact magnitude.symm

/-- Rounding finds a rational that a double holds. -/
theorem holds_roundWithAccuracy {m : Nat} {e : Int} {a : Accuracy} {v q : ℚ} {s : Sign}
    (stands : StandsFor (.ofMantissaAndAccuracy m a) v) (fits : e ≤ targetScale m e)
    (signed : q = signFactor s * (v * 2 ^ e)) (nonzero : q ≠ 0) (r : Representable q) :
    Holds (roundWithAccuracy .binary64 s m e a) q := by
  have nonneg : 0 ≤ v := by
    have low := stands.floor.1
    exact le_trans (Nat.cast_nonneg _) low
  obtain ⟨k, f, h, value⟩ := r.canonical nonzero (by positivity) signed
  rw [roundWithAccuracy_eq_finite stands fits h value s, signed, value, ← mul_assoc]
  exact .finite s h

/-- Rounding finds a rational that a double holds from any scale. -/
theorem holds_round {m : Nat} {e : Int} {q : ℚ} {s : Sign}
    (signed : q = signFactor s * (m * 2 ^ e)) (nonzero : q ≠ 0) (r : Representable q) :
    Holds (UnpackedFloat.round .binary64 s m e) q := by
  obtain ⟨k, f, h, value⟩ := r.canonical nonzero (by positivity) signed
  rw [round_eq_finite h value s, signed, value, ← mul_assoc]
  exact .finite s h

/-- An integer at a scale that a double holds is found. -/
theorem holds_normalize {n : Int} {e : Int} (r : Representable (n * 2 ^ e)) (s : Sign) :
    Holds (UnpackedFloat.normalize .binary64 n e s) (n * 2 ^ e) := by
  have unit : (2 : ℚ) ^ e ≠ 0 := zpow_ne_zero _ two_ne_zero
  unfold UnpackedFloat.normalize
  cases order : compare n 0 with
  | lt =>
    have negative : n < 0 := Int.compare_eq_lt.mp order
    have magnitude : (((-n).toNat : ℕ) : ℚ) = -n := by
      have cast : (((-n).toNat : ℕ) : Int) = -n := Int.toNat_of_nonneg (by omega)
      exact_mod_cast cast
    have nonzero : (n : ℚ) * 2 ^ e ≠ 0 := mul_ne_zero (Int.cast_ne_zero.mpr negative.ne) unit
    refine holds_round ?_ nonzero r
    rw [magnitude, signFactor]
    ring
  | eq =>
    obtain rfl : n = 0 := Int.compare_eq_eq.mp order
    rw [Int.cast_zero, zero_mul]
    exact .zero s
  | gt =>
    have positive : 0 < n := Int.compare_eq_gt.mp order
    have magnitude : ((n.toNat : ℕ) : ℚ) = n := by
      have cast : ((n.toNat : ℕ) : Int) = n := Int.toNat_of_nonneg (by omega)
      exact_mod_cast cast
    have nonzero : (n : ℚ) * 2 ^ e ≠ 0 := mul_ne_zero (Int.cast_ne_zero.mpr positive.ne') unit
    refine holds_round ?_ nonzero r
    rw [magnitude, signFactor, one_mul]

/-- The opposite of what a double holds. -/
theorem Holds.neg {a : UnpackedFloat} {p : ℚ} (ha : Holds a p) : Holds a.neg (-p) := by
  cases ha with
  | zero s =>
    rw [neg_zero]
    exact .zero (-s)
  | @finite s m e h =>
    have negated := Holds.finite (-s) h
    rw [signFactor_neg, neg_mul, neg_mul] at negated
    exact negated

/-- A significand at a smaller scale. -/
theorem apply_decreaseExponent (s : Sign) (m : Nat) {e t : Int} (below : t ≤ e) :
    ((s.apply (decreaseExponent m e t).1 : Int) : ℚ) * 2 ^ t = signFactor s * m * 2 ^ e := by
  have room : e - ((e - t).toNat : Int) = t := by omega
  have same := shiftLeft_mul_zpow m e (e - t).toNat
  rw [room] at same
  show ((s.apply ((m <<< (e - t).toNat : Nat) : Int) : Int) : ℚ) * 2 ^ t = _
  rw [cast_apply, Int.cast_natCast, mul_assoc, same, ← mul_assoc]

/-- A sum that a double holds is exact. -/
theorem Holds.add {a b : UnpackedFloat} {p q : ℚ} (ha : Holds a p) (hb : Holds b q)
    (r : Representable (p + q)) : Holds (UnpackedFloat.add .binary64 a b) (p + q) := by
  cases ha with
  | zero s =>
    rw [zero_add]
    cases hb with
    | zero t =>
      show Holds (if (s == t) = true then .zero s else .zero .positive) 0
      split
      · exact .zero s
      · exact .zero .positive
    | finite t h => exact .finite t h
  | @finite s m e h =>
    cases hb with
    | zero t =>
      rw [add_zero]
      exact .finite s h
    | @finite t n f h' =>
      have left := apply_decreaseExponent s m (min_le_left e f)
      have right := apply_decreaseExponent t n (min_le_right e f)
      have sum : ((s.apply (decreaseExponent m e (min e f)).1 +
          t.apply (decreaseExponent n f (min e f)).1 : Int) : ℚ) * 2 ^ min e f =
            signFactor s * m * 2 ^ e + signFactor t * n * 2 ^ f := by
        rw [Int.cast_add, add_mul, left, right]
      rw [← sum] at r ⊢
      exact holds_normalize r .positive

/-- The opposite sign applies the opposite. -/
theorem apply_neg (s : Sign) (n : Int) : (-s).apply n = -s.apply n := by
  cases s with
  | negative => exact (Int.neg_neg n).symm
  | positive => rfl

/-- A difference is the sum with the opposite. -/
theorem sub_eq_add (a b : UnpackedFloat) :
    UnpackedFloat.sub .binary64 a b = UnpackedFloat.add .binary64 a b.neg := by
  cases a with
  | notANumber | infinity | zero => cases b <;> rfl
  | finite s m e =>
    cases b with
    | notANumber | infinity | zero => rfl
    | finite t n f =>
      unfold UnpackedFloat.sub UnpackedFloat.add UnpackedFloat.neg
      dsimp only
      rw [apply_neg, Int.sub_eq_add_neg]

/-- The leading bit of a product is no lower than those of both factors allow. -/
theorem Canonical.fits_mul {m n : Nat} {e f : Int} (h : Canonical m e) (h' : Canonical n f) :
    e + f ≤ targetScale (m * n) (e + f) := by
  have positive : m * n ≠ 0 := (Nat.mul_pos h.positive h'.positive).ne'
  rw [targetScale_eq]
  have leading (normal : leadingBit ≤ m * n) : 52 ≤ (m * n).log2 :=
    (Nat.le_log2 positive).mpr normal
  rcases h.normal with normal | subnormal
  · have := leading (le_trans normal (Nat.le_mul_of_pos_right m h'.positive))
    omega
  · rcases h'.normal with normal | subnormal'
    · have := leading (le_trans normal (Nat.le_mul_of_pos_left n h.positive))
      omega
    · omega

/-- A product that a double holds is exact. -/
theorem Holds.mul {a b : UnpackedFloat} {p q : ℚ} (ha : Holds a p) (hb : Holds b q)
    (r : Representable (p * q)) : Holds (UnpackedFloat.mul .binary64 a b) (p * q) := by
  cases ha with
  | zero s =>
    rw [zero_mul]
    cases hb with
    | zero t => exact .zero (s * t)
    | finite t h => exact .zero (s * t)
  | @finite s m e h =>
    cases hb with
    | zero t =>
      rw [mul_zero]
      exact .zero (s * t)
    | @finite t n f h' =>
      have product : signFactor s * m * 2 ^ e * (signFactor t * n * 2 ^ f) =
          signFactor (s * t) * (((m * n : Nat) : ℚ) * 2 ^ (e + f)) := by
        rw [signFactor_mul, zpow_add₀ two_ne_zero]
        push_cast
        ring
      exact holds_roundWithAccuracy (standsFor_exact (m * n)) (h.fits_mul h') product
        (mul_ne_zero (h.value_ne_zero s) (h'.value_ne_zero t)) r

/-- A quotient is computed with enough bits. -/
theorem fits_divCore {m n : Nat} (m_pos : 0 < m) (n_pos : 0 < n) (e f : Int) :
    (divCore .binary64 m e n f).2.1 ≤
      targetScale (divCore .binary64 m e n f).1 (divCore .binary64 m e n f).2.1 := by
  have digits : (Format.binary64.mantissaBits : Int) = 53 := rfl
  have least : Format.binary64.minExponent = -1074 := rfl
  unfold divCore Format.targetExponent totalExponent
  dsimp only
  rw [digits, least, targetScale_eq]
  generalize scale_eq :
    min (e - f) (max ((m.log2 : Int) + 1 + e - (n.log2 + 1 + f) - 53) (-1074)) = t
  generalize room_eq : (e - f - t).toNat = room
  by_cases small : t ≤ -1074
  · omega
  · have enough : n.log2 + 53 ≤ m.log2 + room := by omega
    have bits : 2 ^ 52 ≤ (m <<< room) / n := by
      rw [Nat.le_div_iff_mul_le n_pos, Nat.shiftLeft_eq]
      calc 2 ^ 52 * n ≤ 2 ^ 52 * 2 ^ (n.log2 + 1) :=
            Nat.mul_le_mul_left _ (Nat.le_of_lt Nat.lt_log2_self)
        _ = 2 ^ (n.log2 + 53) := by ring
        _ ≤ 2 ^ (m.log2 + room) := Nat.pow_le_pow_right two_pos enough
        _ = 2 ^ m.log2 * 2 ^ room := pow_add _ _ _
        _ ≤ m * 2 ^ room := Nat.mul_le_mul_right _ (Nat.log2_self_le m_pos.ne')
    have nonzero : (m <<< room) / n ≠ 0 := by
      have := Nat.two_pow_pos 52
      omega
    have leading := (Nat.le_log2 nonzero).mpr bits
    omega

/-- What a quotient is computed as stands for it. -/
theorem exists_divCore (m n : Nat) (n_pos : 0 < n) (e f : Int) :
    ∃ v : ℚ, v * 2 ^ (divCore .binary64 m e n f).2.1 = m * 2 ^ e / (n * 2 ^ f) ∧
      StandsFor (.ofMantissaAndAccuracy (divCore .binary64 m e n f).1
        (divCore .binary64 m e n f).2.2) v := by
  unfold divCore
  dsimp only
  generalize scale_eq : min (e - f)
    (Format.binary64.targetExponent (totalExponent m e - totalExponent n f)) = t
  have reached : e - f - ((e - f - t).toNat : Int) = t := by omega
  have same := shiftLeft_mul_zpow m (e - f) (e - f - t).toNat
  rw [reached] at same
  refine ⟨_, ?_, standsFor_fraction (m <<< (e - f - t).toNat) n_pos⟩
  rw [div_mul_eq_mul_div, same, zpow_sub₀ two_ne_zero]
  field_simp

/-- A quotient that a double holds is exact. -/
theorem Holds.div {a b : UnpackedFloat} {p q : ℚ} (ha : Holds a p) (hb : Holds b q)
    (divisible : q ≠ 0) (r : Representable (p / q)) :
    Holds (UnpackedFloat.div .binary64 a b) (p / q) := by
  cases hb with
  | zero t => contradiction
  | @finite t n f h' =>
    cases ha with
    | zero s =>
      rw [zero_div]
      exact .zero (s / t)
    | @finite s m e h =>
      obtain ⟨v, value, stands⟩ := exists_divCore m n h'.positive e f
      have inverse : (signFactor t)⁻¹ = signFactor t :=
        inv_eq_of_mul_eq_one_left (signFactor_mul_self t)
      have quotient : signFactor s * m * 2 ^ e / (signFactor t * n * 2 ^ f) =
          signFactor (s / t) * (v * 2 ^ (divCore .binary64 m e n f).2.1) := by
        rw [value, sign_div, signFactor_mul, mul_assoc, mul_assoc, mul_div_mul_comm,
          div_eq_mul_inv (signFactor s), inverse]
      exact holds_roundWithAccuracy stands (fits_divCore h.positive h'.positive e f) quotient
        (div_ne_zero (h.value_ne_zero s) divisible) r

/-- An integer of fewer than 54 bits is held at any scale that leaves it among the
doubles. -/
theorem representable_natCast_mul_zpow {n : Nat} {e : Int} (bounded : n < 2 * leadingBit)
    (least : -1074 ≤ e) (greatest : e ≤ 971) : Representable (n * 2 ^ e) := by
  by_cases zero : n = 0
  · rw [zero, Nat.cast_zero, zero_mul]
    exact ⟨_, .zero .positive⟩
  · have upper : n.log2 < 53 := (Nat.log2_lt zero).mpr bounded
    -- shifted until the leading bit is in its place, or the scale is the least
    let room := min (52 - n.log2) (e + 1074).toNat
    have canonical : Canonical (n <<< room) (e - room) := by
      rw [Nat.shiftLeft_eq]
      refine ⟨?_, ?_, ?_, ?_, ?_⟩
      · have := Nat.pos_of_ne_zero zero
        positivity
      · calc n * 2 ^ room < 2 ^ (n.log2 + 1) * 2 ^ room := by
              exact Nat.mul_lt_mul_of_pos_right Nat.lt_log2_self (Nat.two_pow_pos room)
          _ = 2 ^ (n.log2 + 1 + room) := (pow_add _ _ _).symm
          _ ≤ 2 ^ 53 := Nat.pow_le_pow_right two_pos (by omega)
      · omega
      · omega
      · by_cases full : room = 52 - n.log2
        · left
          calc 2 ^ 52 = 2 ^ (n.log2 + room) := by rw [full]; congr 1; omega
            _ = 2 ^ n.log2 * 2 ^ room := pow_add _ _ _
            _ ≤ n * 2 ^ room := Nat.mul_le_mul_right _ (Nat.log2_self_le zero)
        · right
          omega
    have held := Holds.finite .positive canonical
    rw [signFactor, one_mul, shiftLeft_mul_zpow] at held
    exact ⟨_, held⟩

/-- The opposite of what some double holds is held by another. -/
theorem Representable.neg {q : ℚ} (r : Representable q) : Representable (-q) := by
  obtain ⟨u, holds⟩ := r
  exact ⟨u.neg, holds.neg⟩

/-- Integers of up to 53 bits are doubles, and so is the next one. -/
theorem representable_intCast {z : Int} (bounded : |z| ≤ 2 ^ 53) : Representable z := by
  have magnitude : Representable (z.natAbs : ℚ) := by
    have bounded' : z.natAbs ≤ 2 ^ 53 := by
      have := abs_le.mp bounded
      omega
    rcases Nat.lt_or_eq_of_le bounded' with less | exact
    · have held := representable_natCast_mul_zpow (e := 0) less (by omega) (by omega)
      rwa [zpow_zero, mul_one] at held
    · have held := representable_natCast_mul_zpow (n := 2 ^ 52) (e := 1) (by decide) (by omega)
        (by omega)
      rw [exact]
      norm_num at held ⊢
      exact held
  rcases Int.natAbs_eq z with nonneg | negative
  · rw [nonneg, Int.cast_natCast]
    exact magnitude
  · rw [negative, Int.cast_neg, Int.cast_natCast]
    exact magnitude.neg

section Operations

variable {x y : Float} {p q : ℚ}

/-- Negation is exact. -/
theorem Exactly.neg (hx : Exactly x p) : Exactly (-x) (-p) := hx.holds.neg.packed

/-- A sum that some double holds is exact. -/
theorem Exactly.add (hx : Exactly x p) (hy : Exactly y q) (r : Representable (p + q)) :
    Exactly (x + y) (p + q) := (hx.holds.add hy.holds r).packed

/-- A difference that some double holds is exact. -/
theorem Exactly.sub (hx : Exactly x p) (hy : Exactly y q) (r : Representable (p - q)) :
    Exactly (x - y) (p - q) := by
  rw [sub_eq_add_neg] at r ⊢
  have difference := (hx.holds.add hy.holds.neg r).packed
  rw [← sub_eq_add] at difference
  exact difference

/-- A product that some double holds is exact. -/
theorem Exactly.mul (hx : Exactly x p) (hy : Exactly y q) (r : Representable (p * q)) :
    Exactly (x * y) (p * q) := (hx.holds.mul hy.holds r).packed

/-- A quotient that some double holds is exact. -/
theorem Exactly.div (hx : Exactly x p) (hy : Exactly y q) (divisible : q ≠ 0)
    (r : Representable (p / q)) : Exactly (x / y) (p / q) :=
  (hx.holds.div hy.holds divisible r).packed

end Operations

end Calculator
