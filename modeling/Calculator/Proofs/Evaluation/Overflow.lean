import Calculator.Proofs.Evaluation.Accuracy
import Calculator.Proofs.Evaluation.Fraction

/-!
# Literals that become infinite

Every digit before the point multiplies the value by ten. The product is rounded and
loses at most a unit in the last place, what is added to it is never lost, and infinity
stays. So the double of a literal that starts with some digit other than zero is bounded
from below by a power of ten and a few units: 310 digits exceed the greatest double, and
whatever follows them is infinite. From above the double is bounded by the number that
counts, with the errors of all digits: 308 digits do not exceed the greatest double.
-/

namespace Calculator

namespace Literal

/-- Digits before the point leave infinity alone. -/
theorem wholeValue_append_of_infinite {digits : List Digit}
    (infinite : wholeValue digits = infinity) (more : List Digit) :
    wholeValue (digits ++ more) = infinity := by
  have appended : ∀ d, appendDigit infinity d = infinity := by decide
  have shifted : ∀ d, shift infinity d = infinity := by decide
  induction more using List.reverseRecOn with
  | nil => rw [List.append_nil, infinite]
  | append_singleton more d ih =>
    rw [← List.append_assoc, wholeValue_concat, ih, appended, shifted, ite_self]

/-- A digit behind the point leaves infinity alone. -/
theorem Accumulated.Sound.value_foldl_of_infinite {p : Accumulated} (h : p.Sound)
    (infinite : p.value = infinity) (digits : List Digit) :
    (digits.foldl Accumulated.append p).value = infinity := by
  induction digits generalizing p with
  | nil => exact infinite
  | cons d digits ih =>
    refine ih (h.append d) ?_
    show p.value + d.toFloat * (p.weight * 0.1) = infinity
    rw [infinite, (h.weight.mul_tenth.isMagnitude_digit_mul d).infinity_add]

/-- A literal whose digits before the point begin with ones that make infinity is
infinite. -/
theorem value_of_infinite {digits : Array Digit}
    (infinite : value ⟨digits, none⟩ = infinity) (more : Array Digit)
    (fraction : Option (Array Digit)) : value ⟨digits ++ more, fraction⟩ = infinity := by
  have whole : wholeValue (digits ++ more).toList = infinity := by
    rw [Array.toList_append]
    exact wholeValue_append_of_infinite infinite more.toList
  cases fraction with
  | none => exact whole
  | some fraction => exact (sound_wholeValue _).value_foldl_of_infinite whole fraction.toList

end Literal

/-- A product of a number with ten that is rounded loses a unit in the last place at
most. -/
theorem RoundsTo.mul_ten_le {r s p : ℚ} (rounds : RoundsTo (r * 10) s) (bound : p ≤ r)
    (large : 1 ≤ p * 10) : p * 10 * (1 - lastPlace) ≤ s := by
  have unit := lastPlace_pos
  have small := halfLeast_le
  have rounding : roundingError (r * 10) ≤ r * 10 * lastPlace := by
    rw [roundingError_eq]
    apply max_le
    · nlinarith
    · nlinarith
  have lower := (abs_le.mp (rounds.near.trans rounding)).1
  have small' : 0 ≤ 1 - lastPlace := by norm_num [lastPlace]
  calc p * 10 * (1 - lastPlace) ≤ r * 10 * (1 - lastPlace) := by gcongr
    _ ≤ s := by linarith

/-- Ten times a magnitude that is not below a number is not below ten times the number
less a unit in the last place. -/
theorem IsMagnitude.le_extendedValue_mul_ten {x : Float} (hx : IsMagnitude x) {p : ℚ}
    (bound : (p : WithTop ℚ) ≤ extendedValue x) (large : 1 ≤ p * 10) :
    ((p * 10 * (1 - lastPlace) : ℚ) : WithTop ℚ) ≤ extendedValue (x * 10) := by
  rcases hx.infinity_or_exactly with rfl | ⟨r, exactly, nonneg⟩
  · have stays : infinity * 10 = infinity := by decide
    rw [stays, extendedValue_of_isInf (by decide)]
    exact le_top
  · rw [exactly.extendedValue_eq, WithTop.coe_le_coe] at bound
    rcases exactly.roundsTo_mul_or_isInf exactly_ten nonneg (by norm_num) with
      ⟨s, rounds, product⟩ | ⟨-, infinite⟩
    · rw [product.extendedValue_eq]
      exact WithTop.coe_le_coe.mpr (rounds.mul_ten_le bound large)
    · rw [extendedValue_of_isInf infinite]
      exact le_top

namespace Literal

/-- One more digit before the point makes the value ten times as much or more, but for
the rounding of the product. -/
theorem extendedValue_mul_ten_le (digits : List Digit) (d : Digit) :
    extendedValue (wholeValue digits * 10) ≤ extendedValue (wholeValue (digits ++ [d])) := by
  rw [wholeValue_concat]
  split
  · exact (isMagnitude_wholeValue digits).mul_ten.extendedValue_le_add d.isMagnitude_toFloat
  · exact le_rfl

/-- What so many digits behind a first one that is not zero are not below. -/
def lowerBound (count : ℕ) : ℚ := 10 ^ count * (1 - count * lastPlace)

/-- A further digit multiplies the bound by ten less a unit in the last place. -/
theorem lowerBound_succ_le (count : ℕ) :
    lowerBound (count + 1) ≤ lowerBound count * 10 * (1 - lastPlace) := by
  have square : 0 ≤ (10 : ℚ) ^ count * (10 * count * lastPlace ^ 2) := by positivity
  unfold lowerBound
  rw [pow_succ]
  push_cast
  linarith

/-- Unless there are very many digits the bound is at least half of a power of ten. -/
theorem half_le_lowerBound {count : ℕ} (few : count ≤ 2 ^ 51) :
    10 ^ count / 2 ≤ lowerBound count := by
  have units := mul_lastPlace_le few
  have power : (0 : ℚ) ≤ 10 ^ count := by positivity
  unfold lowerBound
  nlinarith

/-- Digits behind a first one that is not zero multiply its value by ten, but for the
rounding of the products. -/
theorem lowerBound_le_extendedValue {d : Digit} (first : d ≠ 0) (digits : List Digit)
    (few : digits.length ≤ 2 ^ 51) :
    ((lowerBound digits.length : ℚ) : WithTop ℚ) ≤ extendedValue (wholeValue (d :: digits)) := by
  induction digits using List.reverseRecOn with
  | nil =>
    have value : wholeNumber [d] = d.val := Nat.zero_add _
    have nonzero : d.val ≠ 0 := Fin.val_ne_zero_iff.mpr first
    have small : wholeNumber [d] ≤ 2 ^ 53 := by omega
    have one : 1 ≤ wholeNumber [d] := by omega
    have start : extendedValue (wholeValue [d]) = (wholeNumber [d] : ℚ) :=
      (exactly_foldl_appendDigit [d] small).extendedValue_eq
    rw [start, WithTop.coe_le_coe]
    simpa [lowerBound] using one
  | append_singleton digits e ih =>
    rw [List.length_append, List.length_singleton] at few ⊢
    have before := ih (by omega)
    have large : 1 ≤ lowerBound digits.length * 10 := by
      have half := half_le_lowerBound (by omega : digits.length ≤ 2 ^ 51)
      have power : (1 : ℚ) ≤ 10 ^ digits.length := one_le_pow₀ (by norm_num)
      linarith
    have product := (isMagnitude_wholeValue (d :: digits)).le_extendedValue_mul_ten before large
    calc ((lowerBound (digits.length + 1) : ℚ) : WithTop ℚ)
        ≤ ((lowerBound digits.length * 10 * (1 - lastPlace) : ℚ) : WithTop ℚ) :=
          WithTop.coe_le_coe.mpr (lowerBound_succ_le _)
      _ ≤ extendedValue (wholeValue (d :: digits) * 10) := product
      _ ≤ extendedValue (wholeValue (d :: (digits ++ [e]))) :=
          extendedValue_mul_ten_le (d :: digits) e

/-- From 310 digits on, the first of which is not zero, a literal is infinite. -/
theorem wholeValue_eq_infinity {digits : List Digit} (long : 310 ≤ digits.length)
    (first : digits.head? ≠ some 0) : wholeValue digits = infinity := by
  obtain ⟨d, others, rfl⟩ := List.exists_cons_of_length_pos (by omega : 0 < digits.length)
  have nonzero : d ≠ 0 := fun zero => first (congrArg some zero)
  have begins : wholeValue (d :: others.take 309) = infinity := by
    have count : (others.take 309).length = 309 := by
      rw [List.length_take, Nat.min_eq_left (Nat.le_of_succ_le_succ long)]
    have bound := lowerBound_le_extendedValue nonzero (others.take 309) (by rw [count]; decide)
    rw [count] at bound
    rcases (isMagnitude_wholeValue (d :: others.take 309)).infinity_or_exactly with
      same | ⟨r, exactly, -⟩
    · exact same
    · rw [exactly.extendedValue_eq, WithTop.coe_le_coe] at bound
      have half := half_le_lowerBound (by decide : 309 ≤ 2 ^ 51)
      have greatest := two_mul_greatestDouble_lt
      have double : r ≤ greatestDouble := Representable.le_greatestDouble ⟨_, exactly.holds⟩
      generalize (10 : ℚ) ^ 309 = power at half greatest
      linarith
  have all := wholeValue_append_of_infinite begins (others.drop 309)
  rwa [List.cons_append, List.take_append_drop] at all

/-- Ten to the 308th does not exceed the greatest double, be it off by a half of itself. -/
theorem fits_ten_pow {n : ℕ} (few : n ≤ 2 ^ 51) : Fits (10 ^ 308 : ℕ) n 0 := by
  have powers : ((3 * 10 ^ 308 : ℕ) : ℚ) ≤ (2 * ((2 * leadingBit - 1) * 2 ^ 971) : ℕ) :=
    Nat.cast_le.mpr (by decide +kernel)
  rw [Nat.cast_mul 3, Nat.cast_mul 2, Nat.cast_mul, Nat.cast_pow 2, Nat.cast_ofNat,
    Nat.cast_ofNat] at powers
  change 3 * ((10 ^ 308 : ℕ) : ℚ) ≤ 2 * greatestDouble at powers
  have nonneg : (0 : ℚ) ≤ (10 ^ 308 : ℕ) := Nat.cast_nonneg _
  generalize ((10 ^ 308 : ℕ) : ℚ) = power at powers nonneg ⊢
  have units := mul_le_mul_of_nonneg_left (mul_lastPlace_le few) nonneg
  unfold Fits errorBound
  rw [Nat.cast_zero, zero_mul]
  linarith

/-- Up to 308 digits a literal is finite. -/
theorem isFinite_wholeValue {digits : List Digit} (short : digits.length ≤ 308) :
    (wholeValue digits).isFinite = true := by
  have length := congrArg List.length (List.take_append_drop countedDigits digits)
  rw [List.length_append] at length
  unfold wholeValue
  generalize digits.take countedDigits = counted at length ⊢
  generalize digits.drop countedDigits = shifted at length ⊢
  have places : shifted.length + counted.length ≤ 308 := by omega
  have number : 10 ^ shifted.length * wholeNumber counted ≤ 10 ^ 308 := by
    calc 10 ^ shifted.length * wholeNumber counted ≤ 10 ^ shifted.length * 10 ^ counted.length :=
          Nat.mul_le_mul_left _ (wholeNumber_lt counted).le
      _ = 10 ^ (shifted.length + counted.length) := (pow_add _ _ _).symm
      _ ≤ 10 ^ 308 := pow_le_pow_right₀ (by decide) places
  have counted_le : wholeNumber counted ≤ 10 ^ shifted.length * wholeNumber counted :=
    Nat.le_mul_of_pos_left _ (Nat.pow_pos (by decide))
  have fits : Fits (10 ^ 308 : ℕ) 616 0 := fits_ten_pow (by decide)
  have first := approximates_foldl_appendDigit counted (by omega)
    (fits.mono (Nat.cast_nonneg _) (Nat.cast_le.mpr (counted_le.trans number)) (by omega) le_rfl)
  have last := approximates_foldl_shift shifted first (by omega)
    (fits.mono (Nat.cast_nonneg _) (Nat.cast_le.mpr number) (by omega) le_rfl)
  obtain ⟨r, exactly, -⟩ := last.value
  exact exactly.finite

end Literal

/-- A literal without a point is finite with up to 308 digits, and infinite with 310 or more
of which the first is not zero. Where it is infinite, it stays so with any further digits
before a point and behind it. -/
theorem parse_integer_overflows {digits : Array Digit} (nonempty : digits.toList ≠ [])
    {text : String} (spelled : visible text.toList = (Literal.mk digits none).spelling) :
    ∃ x, parse text = .ok (.number x) ∧
      (digits.size ≤ 308 → x.isFinite = true) ∧
      (310 ≤ digits.size → digits.toList.head? ≠ some 0 → x = infinity) ∧
      (x = infinity → ∀ (more : Array Digit) (fraction : Option (Array Digit)) (longer : String),
        visible longer.toList = (Literal.mk (digits ++ more) fraction).spelling →
          parse longer = .ok (.number infinity)) := by
  refine ⟨_, parse_of_spelling nonempty spelled, ?_, ?_, ?_⟩
  · exact fun short => Literal.isFinite_wholeValue short
  · exact fun long first => Literal.wholeValue_eq_infinity long first
  · intro infinite more fraction longer spelled'
    have nonempty' : (digits ++ more).toList ≠ [] := by
      rw [Array.toList_append]
      exact List.append_ne_nil_of_left_ne_nil nonempty _
    rw [parse_of_spelling nonempty' spelled', Literal.value_of_infinite infinite]

/-- A one with 309 zeros behind it is infinite, and so it is with a further digit and a
fraction. -/
theorem parse_integer_overflows_of_power :
    let digits : Array Digit := #[1] ++ Array.replicate 309 0
    parse (.ofList (Literal.mk digits none).spelling) = .ok (.number infinity) ∧
      parse (.ofList (Literal.mk (digits ++ #[7]) (some #[5])).spelling) =
        .ok (.number infinity) := by
  intro digits
  have begins : digits.toList = 1 :: (Array.replicate 309 0).toList := Array.toList_append
  have nonempty : digits.toList ≠ [] := by
    rw [begins]
    exact List.cons_ne_nil _ _
  have first : digits.toList.head? ≠ some 0 := by
    rw [begins, List.head?_cons]
    decide
  have size : 310 ≤ digits.size := by
    rw [Array.size_append, Array.size_replicate]
    decide
  have shown (l : Literal) : visible (String.ofList l.spelling).toList = l.spelling := by
    rw [String.toList_ofList, l.visible_spelling]
  obtain ⟨x, parsed, -, overflows, stays⟩ := parse_integer_overflows nonempty (shown _)
  obtain rfl := overflows size first
  exact ⟨parsed, stays rfl #[7] (some #[5]) _ (shown _)⟩

end Calculator
