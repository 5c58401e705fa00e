import Calculator.Expression
import Calculator.Proofs.Binary64.Nearest

/-!
# Magnitudes

A magnitude is a double without a sign that is a number: zero, a positive double,
or infinity. Sums of magnitudes are magnitudes, and so are products unless
infinity meets zero. Among magnitudes equality as numbers is identity, since only
the two zeros and the NaN tell them apart.
-/

namespace Calculator

open Float.Model Float.Model.UnpackedFloat

/-- A double is zero, positive or infinite, with the sign bit clear. -/
structure IsMagnitude (x : Float) : Prop where
  /-- The sign bit is clear. -/
  unsigned : signBit x = false
  /-- It is a number. -/
  number : x.isNaN = false

/-- A double is settled by its three parts. -/
theorem eq_of_parts {x y : Float} (sign : signOf x = signOf y)
    (exponent : storedExponent x = storedExponent y)
    (fraction : storedFraction x = storedFraction y) : x = y := by
  have sign : signBit x = signBit y := by
    unfold signOf at sign
    cases hx : signBit x <;> cases hy : signBit y <;> simp [hx, hy] at sign ⊢
  have bits : x.toBits.toNat = y.toBits.toNat := by
    have hx : x.toBits.toNat < 2 ^ 64 := x.toBits.toNat_lt
    have hy : y.toBits.toNat < 2 ^ 64 := y.toBits.toNat_lt
    unfold signBit signWeight at sign
    unfold storedExponent leadingBit at exponent
    unfold storedFraction leadingBit at fraction
    have sign' := decide_eq_decide.mp sign
    omega
  obtain ⟨⟨a, valid⟩⟩ := x
  obtain ⟨⟨b, valid'⟩⟩ := y
  obtain rfl : a = b := UInt64.toNat_inj.mp bits
  rfl

/-- The sign of a double is that of its sign bit. -/
theorem signOf_eq_positive_iff (x : Float) : signOf x = .positive ↔ signBit x = false := by
  unfold signOf
  cases signBit x <;> simp

/-- The sign of a double is negative if its sign bit is set. -/
theorem signOf_eq_negative_iff (x : Float) : signOf x = .negative ↔ signBit x = true := by
  unfold signOf
  cases signBit x <;> simp

/-- A magnitude is settled by its exponent and its fraction. -/
theorem IsMagnitude.eq_of_parts {x y : Float} (hx : IsMagnitude x) (hy : IsMagnitude y)
    (exponent : storedExponent x = storedExponent y)
    (fraction : storedFraction x = storedFraction y) : x = y := by
  refine Calculator.eq_of_parts ?_ exponent fraction
  rw [(signOf_eq_positive_iff x).mpr hx.unsigned, (signOf_eq_positive_iff y).mpr hy.unsigned]

/-- What magnitudes are taken apart to. -/
inductive Unsigned : UnpackedFloat → Prop where
  /-- Infinity. -/
  | infinity : Unsigned (.infinity .positive)
  /-- Zero. -/
  | zero : Unsigned (.zero .positive)
  /-- A positive number. -/
  | finite {m : Nat} (e : Int) (positive : 0 < m) : Unsigned (.finite .positive m e positive)

/-- A magnitude is taken apart without a sign. -/
theorem IsMagnitude.unpack {x : Float} (h : IsMagnitude x) : Unsigned x.toModel.unpack := by
  have sign := (signOf_eq_positive_iff x).mpr h.unsigned
  have apart := unpacks x
  generalize x.toModel.unpack = u at apart ⊢
  cases apart with
  | infinity => exact sign ▸ .infinity
  | notANumber ones nonzero => exact absurd (storedFraction_eq_zero h.number ones) nonzero
  | zero => exact sign ▸ .zero
  | finite less positive => exact sign ▸ .finite _ positive

/-- What is put together without a sign is a magnitude. -/
theorem Unsigned.packed {u : UnpackedFloat} (h : Unsigned u) : IsMagnitude (packed u) := by
  have of_parts {x : Float} (sign : signOf x = .positive)
      (number : ¬ (storedExponent x = 2047 ∧ storedFraction x ≠ 0)) : IsMagnitude x :=
    ⟨(signOf_eq_positive_iff x).mp sign, by rwa [Bool.eq_false_iff, Ne, isNaN_iff]⟩
  cases h with
  | infinity =>
    obtain ⟨sign, -, fraction⟩ := parts_packed_infinity .positive
    exact of_parts sign fun special => special.2 fraction
  | zero =>
    obtain ⟨sign, -, fraction⟩ := parts_packed_zero .positive
    exact of_parts sign fun special => special.2 fraction
  | @finite m e positive =>
    have word_eq := word_packed_finite .positive e positive
    generalize Calculator.packed (.finite .positive m e positive) = x at word_eq ⊢
    split at word_eq
    · obtain ⟨sign, -, fraction⟩ := parts_of_word_eq word_eq
      exact of_parts sign fun special => special.2 fraction
    · rename_i small
      split at word_eq
      · obtain ⟨sign, exponent, -⟩ := parts_of_word_eq word_eq
        rw [BitVec.toNat_ofNat] at exponent
        exact of_parts sign fun special => by omega
      · obtain ⟨sign, exponent, -⟩ := parts_of_word_eq word_eq
        have zero : storedExponent x = 0 := exponent
        exact of_parts sign fun special => by omega

/-- What has no sign in either case has none. -/
theorem unsigned_dite {p : Prop} [Decidable p] {a : p → UnpackedFloat} {b : ¬p → UnpackedFloat}
    (ha : ∀ h, Unsigned (a h)) (hb : ∀ h, Unsigned (b h)) : Unsigned (dite p a b) := by
  by_cases holds : p
  · rw [dif_pos holds]
    exact ha holds
  · rw [dif_neg holds]
    exact hb holds

/-- Rounding keeps a positive sign. -/
theorem unsigned_roundWithAccuracy (m : Nat) (e : Int) (a : Accuracy) :
    Unsigned (roundWithAccuracy .binary64 .positive m e a) := by
  unfold roundWithAccuracy
  dsimp only
  exact unsigned_dite (fun _ => .zero) fun _ => .finite _ _

/-- Rounding an integer that is not negative gives no sign. -/
theorem unsigned_normalize {n : Int} (nonneg : 0 ≤ n) (e : Int) :
    Unsigned (UnpackedFloat.normalize .binary64 n e .positive) := by
  unfold UnpackedFloat.normalize
  cases order : compare n 0 with
  | lt => exact absurd nonneg (not_le.mpr (Int.compare_eq_lt.mp order))
  | eq => exact .zero
  | gt => exact unsigned_roundWithAccuracy _ _ _

/-- Adding magnitudes gives no sign. -/
theorem Unsigned.add {a b : UnpackedFloat} (ha : Unsigned a) (hb : Unsigned b) :
    Unsigned (UnpackedFloat.add .binary64 a b) := by
  cases ha with
  | infinity => cases hb <;> exact .infinity
  | zero =>
    cases hb with
    | infinity => exact .infinity
    | zero => exact .zero
    | finite e positive => exact .finite e positive
  | finite e positive =>
    cases hb with
    | infinity => exact .infinity
    | zero => exact .finite e positive
    | finite f positive' =>
      apply unsigned_normalize
      exact Int.add_nonneg (Int.natCast_nonneg _) (Int.natCast_nonneg _)

/-- Multiplying magnitudes gives no sign unless infinity meets zero. -/
theorem Unsigned.mul {a b : UnpackedFloat} (ha : Unsigned a) (hb : Unsigned b)
    (finite : b.isFinite = true) (proper : a.isFinite = true ∨ b ≠ .zero .positive) :
    Unsigned (UnpackedFloat.mul .binary64 a b) := by
  cases hb with
  | infinity => contradiction
  | zero =>
    cases ha with
    | infinity =>
      rcases proper with special | nonzero
      · contradiction
      · exact absurd rfl nonzero
    | zero | finite => exact .zero
  | finite f positive' =>
    cases ha with
    | infinity => exact .infinity
    | zero => exact .zero
    | finite e positive => exact unsigned_roundWithAccuracy _ _ _

/-- The sum of magnitudes is a magnitude. -/
theorem IsMagnitude.add {x y : Float} (hx : IsMagnitude x) (hy : IsMagnitude y) :
    IsMagnitude (x + y) := (hx.unpack.add hy.unpack).packed

/-- A double that is taken apart to zero has no significand. -/
theorem Unpacks.significand_eq_zero {x : Float} {s : Sign} (h : Unpacks x (.zero s)) :
    significand x = 0 := by
  generalize zero : UnpackedFloat.zero s = u at h
  cases h with
  | zero _ none => exact none
  | infinity | notANumber | finite => contradiction

/-- The product of a magnitude with a finite one is a magnitude, unless infinity
meets zero. -/
theorem IsMagnitude.mul {x y : Float} (hx : IsMagnitude x) (hy : IsMagnitude y)
    (finite : y.isFinite = true) (proper : x.isFinite = true ∨ significand y ≠ 0) :
    IsMagnitude (x * y) := by
  have apart := unpacks y
  refine (hx.unpack.mul hy.unpack finite (proper.imp id fun nonzero zero => ?_)).packed
  rw [zero] at apart
  exact nonzero apart.significand_eq_zero

/-- Infinity is the only magnitude that is not finite. -/
theorem IsMagnitude.isInf {x : Float} (h : IsMagnitude x) (special : x.isFinite = false) :
    x.isInf = true := by
  have ones : storedExponent x = 2047 := by
    rwa [Bool.eq_false_iff, Ne, isFinite_iff, Decidable.not_not] at special
  exact (isInf_iff x).mpr ⟨ones, storedFraction_eq_zero h.number ones⟩

/-- A double without a sign is its significand at its scale. -/
theorem rationalValue_of_unsigned {x : Float} (unsigned : signBit x = false) :
    rationalValue x = significand x * 2 ^ scale x := by
  rw [rationalValue, (signOf_eq_positive_iff x).mpr unsigned, signFactor, one_mul]

/-- A finite double without a sign, from its parts. -/
theorem exactly_of_parts {x : Float} {m : Nat} {e : Int} (finite : x.isFinite = true)
    (unsigned : signBit x = false) (significand_eq : significand x = m) (scale_eq : scale x = e) :
    Exactly x (m * 2 ^ e) := by
  refine ⟨finite, ?_⟩
  rw [rationalValue_of_unsigned unsigned, significand_eq, scale_eq]

/-- A magnitude with a significand of zero is zero. -/
theorem IsMagnitude.eq_zero {x : Float} (h : IsMagnitude x) (zero : significand x = 0) :
    x = 0 := by
  obtain ⟨exponent, fraction⟩ := parts_of_significand_eq_zero zero
  exact h.eq_of_parts ⟨by decide, by decide⟩ exponent fraction

/-- A magnitude is zero, positive, or infinity. -/
theorem IsMagnitude.trichotomy {x : Float} (h : IsMagnitude x) :
    x = 0 ∨ (x.isFinite = true ∧ 0 < rationalValue x) ∨ x.isInf = true := by
  cases finite : x.isFinite with
  | false => exact .inr (.inr (h.isInf finite))
  | true =>
    by_cases zero : significand x = 0
    · exact .inl (h.eq_zero zero)
    · right; left
      have positive : (0 : ℚ) < significand x := Nat.cast_pos.mpr (Nat.pos_of_ne_zero zero)
      refine ⟨rfl, ?_⟩
      rw [rationalValue_of_unsigned h.unsigned]
      positivity

/-- Magnitudes that compare as equal are taken apart to the same. -/
theorem Unsigned.eq_of_equal {a b : UnpackedFloat} (ha : Unsigned a) (hb : Unsigned b)
    (same : a.beq b = true) : a = b := by
  have order : a.compare b = some .eq := eq_of_beq same
  cases ha <;> cases hb
  case infinity.infinity | zero.zero => rfl
  case finite.finite m e positive n f positive' =>
    have both : (compare e f).then (compare m n) = .eq := Option.some.inj order
    obtain ⟨exponent, mantissa⟩ := Ordering.then_eq_eq.mp both
    obtain rfl := Int.compare_eq_eq.mp exponent
    obtain rfl := Nat.compare_eq_eq.mp mantissa
    rfl
  all_goals contradiction

/-- A magnitude compares as equal with itself. -/
theorem Unsigned.beq_self {a : UnpackedFloat} (ha : Unsigned a) : a.beq a = true := by
  have order : a.compare a = some .eq := by
    cases ha with
    | infinity | zero => rfl
    | @finite m e positive =>
      show some ((compare e e).then (compare m m)) = _
      rw [Int.compare_eq_eq.mpr rfl, Nat.compare_eq_eq.mpr rfl]
      rfl
  exact beq_iff_eq.mpr order

/-- Putting together what a number is taken apart to gives it back. -/
theorem packed_unpack {x : Float} (number : x.isNaN = false) : packed x.toModel.unpack = x := by
  have apart := unpacks x
  generalize x.toModel.unpack = u at apart ⊢
  cases apart with
  | infinity ones zero =>
    obtain ⟨sign, exponent, fraction⟩ := parts_packed_infinity (signOf x)
    exact eq_of_parts sign (exponent.trans ones.symm) (fraction.trans zero.symm)
  | notANumber ones nonzero => exact absurd (storedFraction_eq_zero number ones) nonzero
  | zero _ zero =>
    obtain ⟨sign, exponent, fraction⟩ := parts_packed_zero (signOf x)
    obtain ⟨exponent', fraction'⟩ := parts_of_significand_eq_zero zero
    exact eq_of_parts sign (exponent.trans exponent'.symm) (fraction.trans fraction'.symm)
  | finite less positive =>
    obtain ⟨sign, exponent, fraction⟩ := parts_packed_resigned less positive (signOf x)
    exact eq_of_parts sign exponent fraction

/-- Magnitudes are equal as numbers exactly if they are the same. -/
theorem IsMagnitude.beq_iff_eq {x y : Float} (hx : IsMagnitude x) (hy : IsMagnitude y) :
    (x == y) = true ↔ x = y := by
  constructor
  · intro same
    have apart : x.toModel.unpack = y.toModel.unpack := hx.unpack.eq_of_equal hy.unpack same
    rw [← packed_unpack hx.number, apart, packed_unpack hy.number]
  · rintro rfl
    exact hx.unpack.beq_self

end Calculator
