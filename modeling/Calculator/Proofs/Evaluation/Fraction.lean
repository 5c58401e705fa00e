import Calculator.Proofs.Binary64.Order
import Calculator.Proofs.Evaluation.Leaves

/-!
# Digits behind the point

Every digit behind the point adds a magnitude to what has been accumulated before it,
and a sum of magnitudes is below neither of them. So a literal never gets less by a
further digit behind its point, at any size: the weights of the digits may become zero
and the sum may be infinite. A zero adds nothing at all.
-/

namespace Calculator

namespace Literal

/-- A further digit behind the point does not lower the value. -/
theorem Accumulated.Sound.extendedValue_le_append {p : Accumulated} (h : p.Sound) (d : Digit) :
    extendedValue p.value ≤ extendedValue (p.append d).value :=
  h.value.extendedValue_le_add (h.weight.mul_tenth.isMagnitude_digit_mul d)

/-- No digits behind the point lower the value. -/
theorem Accumulated.Sound.extendedValue_le_foldl {p : Accumulated} (h : p.Sound)
    (digits : List Digit) :
    extendedValue p.value ≤ extendedValue (digits.foldl Accumulated.append p).value := by
  induction digits generalizing p with
  | nil => exact le_rfl
  | cons d digits ih => exact (h.extendedValue_le_append d).trans (ih (h.append d))

/-- A zero behind the point leaves the value alone. -/
theorem Accumulated.Sound.value_append_zero {p : Accumulated} (h : p.Sound) :
    (p.append 0).value = p.value := by
  obtain ⟨q, exactly, -⟩ := h.weight.mul_tenth.value
  have zero : Digit.toFloat 0 = 0 := by decide
  have term : Digit.toFloat 0 * (p.weight * 0.1) = 0 := by
    rw [zero, h.weight.mul_tenth.magnitude.zero_mul exactly.finite]
  show p.value + Digit.toFloat 0 * (p.weight * 0.1) = p.value
  rw [term, h.value.add_zero]

/-- Zeros behind the point leave the value alone. -/
theorem Accumulated.Sound.value_foldl_zeros {p : Accumulated} (h : p.Sound)
    {digits : List Digit} (zeros : ∀ d ∈ digits, d = 0) :
    (digits.foldl Accumulated.append p).value = p.value := by
  induction digits generalizing p with
  | nil => rfl
  | cons d digits ih =>
    obtain ⟨rfl, others⟩ := List.forall_mem_cons.mp zeros
    rw [List.foldl_cons, ih (h.append 0) others, h.value_append_zero]

/-- Digits behind the point do not lower the double of the digits before it. -/
theorem value_integer_le (whole fraction : Array Digit) :
    value ⟨whole, none⟩ ≤ value ⟨whole, some fraction⟩ := by
  have start := sound_wholeValue whole.toList
  exact start.value.le_of_extendedValue_le (start.foldl _).value (start.extendedValue_le_foldl _)

/-- Further digits behind the point do not lower the double of a literal. -/
theorem value_le_append (whole fraction more : Array Digit) :
    value ⟨whole, some fraction⟩ ≤ value ⟨whole, some (fraction ++ more)⟩ := by
  have before := (sound_wholeValue whole.toList).foldl fraction.toList
  have behind := before.extendedValue_le_foldl more.toList
  rw [← List.foldl_append, ← Array.toList_append] at behind
  exact before.value.le_of_extendedValue_le (isMagnitude_value ⟨whole, some (fraction ++ more)⟩)
    behind

/-- Zeros at the end of the digits behind the point leave the double of a literal
alone. -/
theorem value_append_zeros (whole fraction : Array Digit) {more : Array Digit}
    (zeros : ∀ d ∈ more, d = 0) :
    value ⟨whole, some (fraction ++ more)⟩ = value ⟨whole, some fraction⟩ := by
  have before := (sound_wholeValue whole.toList).foldl fraction.toList
  have zeros' : ∀ d ∈ more.toList, d = 0 := by simpa using zeros
  have behind := before.value_foldl_zeros zeros'
  rw [← List.foldl_append, ← Array.toList_append] at behind
  exact behind

end Literal

/-- Three texts spell the same digits before the point: one ends there, one has digits
behind the point, and one has more of them. Each is read as no less than the one before
it, and the last two as the same number if the further digits are zeros. -/
theorem parse_fraction_adds {whole fraction more : Array Digit} (nonempty : whole.toList ≠ [])
    {a b c : String} (integer : visible a.toList = (Literal.mk whole none).spelling)
    (decimal : visible b.toList = (Literal.mk whole (some fraction)).spelling)
    (longer : visible c.toList = (Literal.mk whole (some (fraction ++ more))).spelling) :
    ∃ x y z, parse a = .ok (.number x) ∧ parse b = .ok (.number y) ∧ parse c = .ok (.number z) ∧
      x ≤ y ∧ y ≤ z ∧ ((∀ d ∈ more, d = 0) → z = y) := by
  refine ⟨_, _, _, parse_of_spelling nonempty integer, parse_of_spelling nonempty decimal,
    parse_of_spelling nonempty longer, Literal.value_integer_le whole fraction,
    Literal.value_le_append whole fraction more, fun zeros => ?_⟩
  exact Literal.value_append_zeros whole fraction zeros

/-- A blank in `2.5` and two zeros behind it change nothing, and `2` is no more. -/
theorem parse_fraction_adds_of_zeros :
    (#[2] : Array Digit).toList ≠ [] ∧ ∃ x y, parse "2" = .ok (.number x) ∧
      parse "2. 5" = .ok (.number y) ∧ parse "2.500" = .ok (.number y) ∧ x ≤ y := by
  have nonempty : (#[2] : Array Digit).toList ≠ [] := by decide
  have integer : visible "2".toList = (Literal.mk #[2] none).spelling := by decide
  have decimal : visible "2. 5".toList = (Literal.mk #[2] (some #[5])).spelling := by decide
  have longer : visible "2.500".toList = (Literal.mk #[2] (some (#[5] ++ #[0, 0]))).spelling := by
    decide
  obtain ⟨x, y, z, first, second, third, less, -, same⟩ :=
    parse_fraction_adds nonempty integer decimal longer
  obtain rfl := same (by simp)
  exact ⟨nonempty, x, z, first, second, third, less⟩

end Calculator
