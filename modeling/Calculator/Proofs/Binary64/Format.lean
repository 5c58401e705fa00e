import Calculator.Rendering

/-!
# The format of doubles

A double is a sign bit, eleven bits of exponent and 52 bits of fraction. The
operations on doubles take them apart into a sign, a significand and a scale, and
put the result together again. What is taken apart are the sign bit, the
significand and the scale of the double, and taking apart undoes putting together
for everything that a double can hold.
-/

namespace Calculator

open Float.Model Float.Model.UnpackedFloat

/-- The 64 bits of a double. -/
def word (x : Float) : BitVec Format.binary64.numBits := x.toBits.toBitVec

/-- The sign that the sign bit of a double stands for. -/
def signOf (x : Float) : Sign := if signBit x then .negative else .positive

/-- The sign bit is the leading bit. -/
theorem toNat_unpackSign (x : Float) :
    (unpackSign (word x)).toNat = if signBit x then 1 else 0 := by
  have bits : (word x).toNat < 2 ^ 64 := (word x).isLt
  have leading : (unpackSign (word x)).toNat = (word x).toNat >>> 63 % 2 := rfl
  rw [leading, Nat.shiftRight_eq_div_pow]
  unfold signBit signWeight
  change _ = if decide (9223372036854775808 ≤ (word x).toNat) = true then 1 else 0
  by_cases h : 9223372036854775808 ≤ (word x).toNat
  · rw [if_pos (by simpa using h)]
    omega
  · rw [if_neg (by simpa using h)]
    omega

/-- The eleven bits behind it are the stored exponent. -/
theorem toNat_unpackExponent (x : Float) : (unpackExponent (word x)).toNat = storedExponent x := by
  have middle : (unpackExponent (word x)).toNat = (word x).toNat >>> 52 % 2 ^ 11 := rfl
  rw [middle, Nat.shiftRight_eq_div_pow]
  rfl

/-- The last 52 bits are the stored fraction. -/
theorem toNat_unpackMantissa (x : Float) : (unpackMantissa (word x)).toNat = storedFraction x := by
  have last : (unpackMantissa (word x)).toNat = (word x).toNat >>> 0 % 2 ^ 52 := rfl
  rw [last, Nat.shiftRight_zero]
  rfl

/-- A stored exponent has eleven bits. -/
theorem storedExponent_lt (x : Float) : storedExponent x < 2048 := Nat.mod_lt _ (by decide)

/-- The sign that is taken out of a double is that of its sign bit. -/
theorem ofBitVec_unpackSign (x : Float) : Sign.ofBitVec (unpackSign (word x)) = signOf x := by
  have bit := toNat_unpackSign x
  unfold signOf Sign.ofBitVec
  split
  · rename_i clear
    rw [clear] at bit
    cases h : signBit x with
    | false => rfl
    | true => simp [h] at bit
  · rename_i set
    cases h : signBit x with
    | false => exact absurd (BitVec.eq_of_toNat_eq (by simpa [h] using bit)) set
    | true => rfl

/-- The exponent of all ones is the greatest one. -/
theorem unpackExponent_eq_neg_one_iff (x : Float) :
    unpackExponent (word x) = -1#_ ↔ storedExponent x = 2047 := by
  rw [← toNat_unpackExponent, ← BitVec.toNat_inj]
  rfl

/-- The exponent of all zeros is the least one. -/
theorem unpackExponent_eq_zero_iff (x : Float) :
    unpackExponent (word x) = 0#_ ↔ storedExponent x = 0 := by
  rw [← toNat_unpackExponent, ← BitVec.toNat_inj]
  rfl

/-- The fraction of all zeros is zero. -/
theorem unpackMantissa_eq_zero_iff (x : Float) :
    unpackMantissa (word x) = 0#_ ↔ storedFraction x = 0 := by
  rw [← toNat_unpackMantissa, ← BitVec.toNat_inj]
  rfl

/-- A fraction behind the implicit bit. -/
theorem toNat_one_append (x : Float) :
    (1#1 ++ unpackMantissa (word x)).toNat = leadingBit + storedFraction x := by
  have small := storedFraction_lt x
  rw [BitVec.toNat_append, ← Nat.shiftLeft_add_eq_or_of_lt (unpackMantissa (word x)).isLt,
    toNat_unpackMantissa]
  rfl

/-- An exponent of all ones without a fraction means an infinity. -/
theorem unpack_eq_infinity {x : Float} (ones : storedExponent x = 2047)
    (zero : storedFraction x = 0) : x.toModel.unpack = .infinity (signOf x) := by
  show UnpackedFloat.unpack .binary64 (word x) = _
  unfold UnpackedFloat.unpack
  dsimp only
  rw [if_pos ((unpackExponent_eq_neg_one_iff x).mpr ones),
    if_pos ((unpackMantissa_eq_zero_iff x).mpr zero), ofBitVec_unpackSign]

/-- An exponent of all ones with a fraction means no number. -/
theorem unpack_eq_notANumber {x : Float} (ones : storedExponent x = 2047)
    (nonzero : storedFraction x ≠ 0) : x.toModel.unpack = .notANumber := by
  show UnpackedFloat.unpack .binary64 (word x) = _
  unfold UnpackedFloat.unpack
  dsimp only
  rw [if_pos ((unpackExponent_eq_neg_one_iff x).mpr ones),
    if_neg (mt (unpackMantissa_eq_zero_iff x).mp nonzero)]

/-- Only the least exponent without a fraction has a significand of zero. -/
theorem parts_of_significand_eq_zero {x : Float} (zero : significand x = 0) :
    storedExponent x = 0 ∧ storedFraction x = 0 := by
  unfold significand leadingBit at zero
  split at zero <;> omega

/-- Any other exponent with a significand of zero means zero. -/
theorem unpack_eq_zero {x : Float} (finite : storedExponent x ≠ 2047)
    (zero : significand x = 0) : x.toModel.unpack = .zero (signOf x) := by
  have least := parts_of_significand_eq_zero zero
  show UnpackedFloat.unpack .binary64 (word x) = _
  unfold UnpackedFloat.unpack
  dsimp only
  rw [if_neg (mt (unpackExponent_eq_neg_one_iff x).mp finite),
    if_pos ((unpackExponent_eq_zero_iff x).mpr least.1),
    dif_pos ((unpackMantissa_eq_zero_iff x).mpr least.2), ofBitVec_unpackSign]

/-- Any other exponent means the significand, scaled. -/
theorem unpack_eq_finite {x : Float} (finite : storedExponent x ≠ 2047)
    (positive : 0 < significand x) :
    x.toModel.unpack = .finite (signOf x) (significand x) (scale x) positive := by
  have bias : ((Format.binary64.exponentBias : Nat) : Int) = 1023 := rfl
  have width : ((Format.binary64.mantissaBitsWithoutImplicit : Nat) : Int) = 52 := rfl
  show UnpackedFloat.unpack .binary64 (word x) = _
  unfold UnpackedFloat.unpack
  dsimp only
  rw [if_neg (mt (unpackExponent_eq_neg_one_iff x).mp finite)]
  by_cases least : storedExponent x = 0
  · have fraction : significand x = storedFraction x := by rw [significand, if_pos least]
    have subnormal : storedFraction x ≠ 0 := by omega
    rw [if_pos ((unpackExponent_eq_zero_iff x).mpr least),
      dif_neg (mt (unpackMantissa_eq_zero_iff x).mp subnormal)]
    rw [UnpackedFloat.finite.injEq]
    refine ⟨ofBitVec_unpackSign x, (toNat_unpackMantissa x).trans fraction.symm, ?_⟩
    rw [toNat_unpackExponent, bias, width]
    unfold scale
    omega
  · have implicit : significand x = leadingBit + storedFraction x := by
      rw [significand, if_neg least]
    rw [if_neg (mt (unpackExponent_eq_zero_iff x).mp least)]
    rw [UnpackedFloat.finite.injEq]
    refine ⟨ofBitVec_unpackSign x, (toNat_one_append x).trans implicit.symm, ?_⟩
    rw [toNat_unpackExponent, bias, width]
    unfold scale
    omega

/-- What a double is taken apart to, by its exponent and its fraction. -/
inductive Unpacks (x : Float) : UnpackedFloat → Prop where
  /-- An infinity. -/
  | infinity (ones : storedExponent x = 2047) (zero : storedFraction x = 0) :
    Unpacks x (.infinity (signOf x))
  /-- No number. -/
  | notANumber (ones : storedExponent x = 2047) (nonzero : storedFraction x ≠ 0) :
    Unpacks x .notANumber
  /-- A zero. -/
  | zero (less : storedExponent x ≠ 2047) (zero : significand x = 0) : Unpacks x (.zero (signOf x))
  /-- Any other number. -/
  | finite (less : storedExponent x ≠ 2047) (positive : 0 < significand x) :
    Unpacks x (.finite (signOf x) (significand x) (scale x) positive)

/-- Every double is taken apart so. -/
theorem unpacks (x : Float) : Unpacks x x.toModel.unpack := by
  by_cases ones : storedExponent x = 2047
  · by_cases zero : storedFraction x = 0
    · rw [unpack_eq_infinity ones zero]
      exact .infinity ones zero
    · rw [unpack_eq_notANumber ones zero]
      exact .notANumber ones zero
  · by_cases zero : significand x = 0
    · rw [unpack_eq_zero ones zero]
      exact .zero ones zero
    · rw [unpack_eq_finite ones (Nat.pos_of_ne_zero zero)]
      exact .finite ones _

/-- The weights of the three parts of a double. -/
theorem toNat_packComponents (s : Sign) (e : BitVec 11) (m : BitVec 52) :
    (packComponents .binary64 s e m).toNat =
      s.toBitVec.toNat * signWeight + e.toNat * leadingBit + m.toNat := by
  have hm : m.toNat < 2 ^ 52 := m.isLt
  have he : e.toNat < 2 ^ 11 := e.isLt
  unfold packComponents
  rw [BitVec.toNat_append, BitVec.toNat_append, ← Nat.shiftLeft_add_eq_or_of_lt he,
    ← Nat.shiftLeft_add_eq_or_of_lt hm, Nat.shiftLeft_eq, Nat.shiftLeft_eq]
  unfold signWeight leadingBit
  omega

/-- The double that is put together from its parts has these parts. -/
theorem parts_of_word_eq {x : Float} {s : Sign} {e : BitVec 11} {m : BitVec 52}
    (h : word x = packComponents .binary64 s e m) :
    signOf x = s ∧ storedExponent x = e.toNat ∧ storedFraction x = m.toNat := by
  have bits : x.toBits.toNat = s.toBitVec.toNat * signWeight + e.toNat * leadingBit + m.toNat :=
    (congrArg BitVec.toNat h).trans (toNat_packComponents s e m)
  have hm : m.toNat < 4503599627370496 := m.isLt
  have he : e.toNat < 2048 := e.isLt
  unfold signWeight leadingBit at bits
  refine ⟨?_, ?_, ?_⟩
  · unfold signOf signBit signWeight
    rw [bits]
    cases s with
    | negative =>
      have one : Sign.negative.toBitVec.toNat = 1 := rfl
      rw [one, decide_eq_true (by omega), if_pos rfl]
    | positive =>
      have none : Sign.positive.toBitVec.toNat = 0 := rfl
      rw [none, decide_eq_false (by omega), if_neg (by decide)]
  · unfold storedExponent leadingBit
    omega
  · unfold storedFraction leadingBit
    omega

/-- The double that something taken apart is put together to. -/
def packed (u : UnpackedFloat) : Float := .ofModel (.pack u)

/-- The bits of an infinity. -/
theorem parts_packed_infinity (s : Sign) :
    signOf (packed (.infinity s)) = s ∧ storedExponent (packed (.infinity s)) = 2047 ∧
      storedFraction (packed (.infinity s)) = 0 :=
  parts_of_word_eq (rfl : word (packed (.infinity s)) = packComponents .binary64 s (-1#_) 0)

/-- The bits of a zero. -/
theorem parts_packed_zero (s : Sign) :
    signOf (packed (.zero s)) = s ∧ storedExponent (packed (.zero s)) = 0 ∧
      storedFraction (packed (.zero s)) = 0 :=
  parts_of_word_eq (rfl : word (packed (.zero s)) = packComponents .binary64 s 0 0)

/-- The significands and scales of doubles: the significand is below two leading
bits, and at least one unless the scale is the least. -/
structure Canonical (m : Nat) (e : Int) : Prop where
  /-- A zero is put together otherwise. -/
  positive : 0 < m
  /-- The significand has no more bits than a double holds. -/
  bounded : m < 2 * leadingBit
  /-- The scale is not below the least. -/
  least : -1074 ≤ e
  /-- The scale is not above the greatest. -/
  greatest : e ≤ 971
  /-- A significand without the leading bit has the least scale. -/
  normal : leadingBit ≤ m ∨ e = -1074

/-- The logarithm of a significand tells whether it has the leading bit. -/
theorem Canonical.log2_eq_iff {m : Nat} {e : Int} (h : Canonical m e) :
    m.log2 + 1 = 53 ↔ leadingBit ≤ m := by
  have nonzero : m ≠ 0 := Nat.ne_of_gt h.positive
  have small : m < 2 ^ 53 := h.bounded
  have upper := (Nat.log2_lt nonzero).mpr small
  have lower : 52 ≤ m.log2 ↔ leadingBit ≤ m := Nat.le_log2 nonzero
  omega

/-- The word of a number that is not zero. The exponent of all ones is kept for
numbers that are too large, that of all zeros for those without the leading bit. -/
theorem word_packed_finite (s : Sign) {m : Nat} (e : Int) (positive : 0 < m) :
    word (packed (.finite s m e positive)) =
      if 2048 ≤ (e + 1023 + 52).toNat + 1 then packComponents .binary64 s (-1#_) 0
      else if m.log2 + 1 = 53 then
        packComponents .binary64 s (.ofNat _ (e + 1023 + 52).toNat) (.ofNat _ m)
      else packComponents .binary64 s 0 (.ofNat _ m) := rfl

/-- The bits of a number that is not zero. -/
theorem parts_packed_finite (s : Sign) {m : Nat} {e : Int} (h : Canonical m e) :
    signOf (packed (.finite s m e h.positive)) = s ∧
      storedExponent (packed (.finite s m e h.positive)) =
        (if leadingBit ≤ m then (e + 1075).toNat else 0) ∧
      storedFraction (packed (.finite s m e h.positive)) =
        (if leadingBit ≤ m then m - leadingBit else m) := by
  have word_eq := word_packed_finite s e h.positive
  have log2_eq := h.log2_eq_iff
  generalize packed (.finite s m e h.positive) = x at word_eq ⊢
  obtain ⟨positive, bounded, least, greatest, normal⟩ := h
  rw [if_neg (by omega)] at word_eq
  unfold leadingBit at *
  by_cases leading : 4503599627370496 ≤ m
  · rw [if_pos (log2_eq.mpr leading)] at word_eq
    obtain ⟨sign, exponent, fraction⟩ := parts_of_word_eq word_eq
    rw [BitVec.toNat_ofNat] at exponent fraction
    rw [if_pos leading, if_pos leading]
    refine ⟨sign, by omega, by omega⟩
  · rw [if_neg (mt log2_eq.mp leading)] at word_eq
    obtain ⟨sign, exponent, fraction⟩ := parts_of_word_eq word_eq
    rw [BitVec.toNat_ofNat] at fraction
    rw [if_neg leading, if_neg leading]
    exact ⟨sign, exponent, by omega⟩

/-- What is put together from a sign, a significand and a scale has these. -/
theorem packed_finite (s : Sign) {m : Nat} {e : Int} (h : Canonical m e) :
    signOf (packed (.finite s m e h.positive)) = s ∧
      storedExponent (packed (.finite s m e h.positive)) ≠ 2047 ∧
      significand (packed (.finite s m e h.positive)) = m ∧
      scale (packed (.finite s m e h.positive)) = e := by
  obtain ⟨sign, exponent, fraction⟩ := parts_packed_finite s h
  generalize packed (.finite s m e h.positive) = x at sign exponent fraction ⊢
  obtain ⟨positive, bounded, least, greatest, normal⟩ := h
  unfold significand scale
  rw [exponent, fraction]
  unfold leadingBit at *
  by_cases leading : 4503599627370496 ≤ m
  · simp only [if_pos leading]
    refine ⟨sign, by omega, ?_, by omega⟩
    rw [if_neg (by omega)]
    omega
  · simp only [if_neg leading]
    exact ⟨sign, by omega, by simp, by omega⟩

/-- A double is finite unless its exponent is all ones. -/
theorem isFinite_iff (x : Float) : x.isFinite = true ↔ storedExponent x ≠ 2047 := by
  have apart := unpacks x
  show x.toModel.unpack.isFinite = true ↔ _
  generalize x.toModel.unpack = u at apart ⊢
  cases apart with
  | infinity ones | notANumber ones => exact iff_of_false Bool.false_ne_true (absurd ones)
  | zero less | finite less => exact iff_of_true rfl less

/-- A double is no number if its exponent is all ones and its fraction is not zero. -/
theorem isNaN_iff (x : Float) :
    x.isNaN = true ↔ storedExponent x = 2047 ∧ storedFraction x ≠ 0 := by
  have apart := unpacks x
  show x.toModel.unpack.isNaN = true ↔ _
  generalize x.toModel.unpack = u at apart ⊢
  cases apart with
  | infinity _ zero => exact iff_of_false Bool.false_ne_true fun both => both.2 zero
  | notANumber ones nonzero => exact iff_of_true rfl ⟨ones, nonzero⟩
  | zero less | finite less => exact iff_of_false Bool.false_ne_true fun both => less both.1

/-- The sign does not matter for whether a double is a number. -/
theorem isNaN_congr {x y : Float} (exponent : storedExponent x = storedExponent y)
    (fraction : storedFraction x = storedFraction y) : x.isNaN = y.isNaN := by
  rw [Bool.eq_iff_iff, isNaN_iff, isNaN_iff, exponent, fraction]

/-- With an exponent of all ones a number has no fraction. -/
theorem storedFraction_eq_zero {x : Float} (number : x.isNaN = false)
    (ones : storedExponent x = 2047) : storedFraction x = 0 := by
  refine Decidable.byContradiction fun nonzero => ?_
  rw [(isNaN_iff x).mpr ⟨ones, nonzero⟩] at number
  contradiction

/-- A double is infinite if its exponent is all ones and its fraction is zero. -/
theorem isInf_iff (x : Float) :
    x.isInf = true ↔ storedExponent x = 2047 ∧ storedFraction x = 0 := by
  have apart := unpacks x
  show x.toModel.unpack.isInf = true ↔ _
  generalize x.toModel.unpack = u at apart ⊢
  cases apart with
  | infinity ones zero => exact iff_of_true rfl ⟨ones, zero⟩
  | notANumber _ nonzero => exact iff_of_false Bool.false_ne_true fun both => nonzero both.2
  | zero less | finite less => exact iff_of_false Bool.false_ne_true fun both => less both.1

/-- A finite double is neither a NaN nor an infinity. -/
theorem isNaN_isInf_of_isFinite {x : Float} (finite : x.isFinite = true) :
    x.isNaN = false ∧ x.isInf = false := by
  have exponent := (isFinite_iff x).mp finite
  constructor
  · rw [Bool.eq_false_iff]
    exact fun nan => exponent ((isNaN_iff x).mp nan).1
  · rw [Bool.eq_false_iff]
    exact fun infinite => exponent ((isInf_iff x).mp infinite).1

/-- The significand and the scale of a finite double that is not zero. -/
theorem canonical {x : Float} (finite : storedExponent x ≠ 2047) (positive : 0 < significand x) :
    Canonical (significand x) (scale x) := by
  have exponent := storedExponent_lt x
  refine ⟨positive, significand_lt x, ?_, ?_, ?_⟩
  · unfold scale
    omega
  · unfold scale
    omega
  · unfold scale significand leadingBit
    split <;> omega

/-- A double put together from the parts of a finite one under a sign has the
same exponent and fraction. -/
theorem parts_packed_resigned {x : Float} (finite : storedExponent x ≠ 2047)
    (positive : 0 < significand x) (s : Sign) :
    signOf (packed (.finite s (significand x) (scale x) positive)) = s ∧
      storedExponent (packed (.finite s (significand x) (scale x) positive)) = storedExponent x ∧
      storedFraction (packed (.finite s (significand x) (scale x) positive)) =
        storedFraction x := by
  have fraction_lt := storedFraction_lt x
  obtain ⟨sign, exponent, fraction⟩ := parts_packed_finite s (canonical finite positive)
  unfold leadingBit at fraction_lt
  refine ⟨sign, exponent.trans ?_, fraction.trans ?_⟩
  · unfold significand scale leadingBit
    split <;> split <;> omega
  · unfold significand leadingBit
    split <;> split <;> omega

/-- What a double is taken apart to, under another sign. -/
def resigned (s : Sign) : UnpackedFloat → UnpackedFloat
  | .infinity _ => .infinity s
  | .notANumber => .notANumber
  | .zero _ => .zero s
  | .finite _ m e positive => .finite s m e positive

/-- A number put together under another sign keeps its exponent and its fraction. -/
theorem parts_resigned {x : Float} (number : x.isNaN = false) (s : Sign) :
    signOf (packed (resigned s x.toModel.unpack)) = s ∧
      storedExponent (packed (resigned s x.toModel.unpack)) = storedExponent x ∧
      storedFraction (packed (resigned s x.toModel.unpack)) = storedFraction x := by
  have apart := unpacks x
  generalize x.toModel.unpack = u at apart ⊢
  cases apart with
  | infinity ones zero =>
    rw [ones, zero]
    exact parts_packed_infinity s
  | notANumber ones nonzero => exact absurd (storedFraction_eq_zero number ones) nonzero
  | zero _ zero =>
    obtain ⟨exponent, fraction⟩ := parts_of_significand_eq_zero zero
    rw [exponent, fraction]
    exact parts_packed_zero s
  | finite less positive => exact parts_packed_resigned less positive s

/-- Taking the magnitude of a number clears its sign bit and nothing else. -/
theorem parts_abs {x : Float} (number : x.isNaN = false) :
    signOf x.abs = .positive ∧ storedExponent x.abs = storedExponent x ∧
      storedFraction x.abs = storedFraction x := by
  have abs_eq : x.abs = packed (resigned .positive x.toModel.unpack) := by
    show packed x.toModel.unpack.abs = _
    cases x.toModel.unpack <;> rfl
  rw [abs_eq]
  exact parts_resigned number .positive

/-- Negating a number flips its sign bit and nothing else. -/
theorem parts_neg {x : Float} (number : x.isNaN = false) :
    signOf (-x) = -signOf x ∧ storedExponent (-x) = storedExponent x ∧
      storedFraction (-x) = storedFraction x := by
  have neg_eq : -x = packed (resigned (-signOf x) x.toModel.unpack) := by
    show packed x.toModel.unpack.neg = _
    have apart := unpacks x
    generalize x.toModel.unpack = u at apart ⊢
    cases apart <;> rfl
  rw [neg_eq]
  exact parts_resigned number (-signOf x)

end Calculator
