import Calculator.Proofs.Evaluation.Formula
import Calculator.Proofs.Rendering.Interval
import Calculator.Proofs.Rendering.Numeral

/-!
# The number that a layout writes

Without an exponent a decimal is laid out as the digits of a literal, filled up
with zeros behind them or in front of them. Zeros behind the digits carry out the
exponent, and zeros in front change nothing, so the literal writes the rational
that the decimal is.
-/

namespace Calculator

/-- Literals with the same spelling are the same. -/
theorem Literal.spelling_injective {l m : Literal} (same : l.spelling = m.spelling) : l = m := by
  rw [← ofSpelling_spelling l, same, ofSpelling_spelling]

/-- Digits around a point write the number of all of them, with the point moved to
its place. -/
theorem Literal.rational_eq (l : Literal) :
    l.rational = wholeNumber (l.whole.toList ++ l.decimals) / 10 ^ l.decimals.length := by
  have power : (10 : ℚ) ^ l.decimals.length ≠ 0 := pow_ne_zero _ (by norm_num)
  rw [rational, wholeNumber_append]
  push_cast
  field_simp

/-- Zeros in front of digits, as many as are missing, change nothing. -/
theorem ofDigitChars_leftpad (n : Nat) (cs : List Char) :
    Nat.ofDigitChars 10 (cs.leftpad n '0') 0 = Nat.ofDigitChars 10 cs 0 := by
  rw [List.leftpad, Nat.ofDigitChars_append, Nat.ofDigitChars_replicate_zero, Nat.mul_zero]

/-- A decimal with zeros behind its digits is spelled by a literal without decimals. -/
theorem Literal.integer_of_positional {l : Literal} {d : Decimal} (integer : 0 ≤ d.exponent)
    (spelled : l.spelling = d.positional false) :
    l.decimals = [] ∧ wholeNumber l.whole.toList = d.coefficient * 10 ^ d.exponent.toNat ∧
      l.whole.toList.length = d.digits.length + d.exponent.toNat := by
  have layout : d.positional false = d.digits ++ List.replicate d.exponent.toNat '0' := by
    rw [Decimal.positional, if_pos integer]
    exact List.append_nil _
  have digits : ∀ c ∈ d.digits ++ List.replicate d.exponent.toNat '0', c.isDigit = true := by
    intro c member
    rcases List.mem_append.mp member with first | last
    · exact Decimal.isDigit_of_mem_digits first
    · rw [List.eq_of_mem_replicate last]
      decide
  obtain ⟨ds, written⟩ := Digit.exists_map_toChar digits
  obtain rfl : l = ⟨ds.toArray, none⟩ := by
    apply spelling_injective
    rw [spelled, layout, ← written]
    exact (List.append_nil _).symm
  refine ⟨rfl, ?_, ?_⟩
  · rw [wholeNumber_eq_ofDigitChars, written, Nat.ofDigitChars_append,
      Nat.ofDigitChars_replicate_zero, Decimal.digits, Nat.ofDigitChars_ten_toDigits, Nat.mul_comm]
  · have length := congrArg List.length written
    rw [List.length_map, List.length_append, List.length_replicate] at length
    exact length

/-- A decimal with a point among its digits is spelled by a literal with as many
decimals, and with no more digits in front of the point than it has at all. -/
theorem Literal.fraction_of_positional {l : Literal} {d : Decimal} (fraction : d.exponent < 0)
    (spelled : l.spelling = d.positional false) :
    l.decimals.length = (-d.exponent).toNat ∧
      wholeNumber (l.whole.toList ++ l.decimals) = d.coefficient ∧
      l.whole.toList.length ≤ d.digits.length := by
  let places := (-d.exponent).toNat
  let padded := d.digits.leftpad (places + 1) '0'
  have layout : d.positional false =
      padded.take (padded.length - places) ++ '.' :: padded.drop (padded.length - places) := by
    rw [Decimal.positional, if_neg (by omega)]
  have digits : ∀ c ∈ padded, c.isDigit = true := by
    intro c member
    rcases List.mem_append.mp member with first | last
    · rw [List.eq_of_mem_replicate first]
      decide
    · exact Decimal.isDigit_of_mem_digits last
  obtain ⟨ds, before⟩ := Digit.exists_map_toChar fun c member =>
    digits c (List.mem_of_mem_take member)
  obtain ⟨ds', behind⟩ := Digit.exists_map_toChar fun c member =>
    digits c (List.mem_of_mem_drop member)
  obtain rfl : l = ⟨ds.toArray, some ds'.toArray⟩ := by
    apply spelling_injective
    rw [spelled, layout, ← before, ← behind]
    rfl
  have length : padded.length = max (places + 1) d.digits.length := List.length_leftpad
  have digits_pos := d.digits_length_pos
  refine ⟨?_, ?_, ?_⟩
  · have count := congrArg List.length behind
    rw [List.length_map, List.length_drop] at count
    show ds'.length = places
    omega
  · show wholeNumber (ds ++ ds') = _
    rw [wholeNumber_eq_ofDigitChars, List.map_append, before, behind, List.take_append_drop,
      ofDigitChars_leftpad, Decimal.digits, Nat.ofDigitChars_ten_toDigits]
  · have count := congrArg List.length before
    rw [List.length_map, List.length_take] at count
    show ds.length ≤ d.digits.length
    omega

/-- A literal that is spelled as a decimal without an exponent is laid out writes the
decimal. -/
theorem Literal.rational_of_positional {l : Literal} {d : Decimal}
    (spelled : l.spelling = d.positional false) : l.rational = d.rational := by
  rw [rational_eq, Decimal.rational]
  rcases Int.lt_or_le d.exponent 0 with fraction | integer
  · obtain ⟨length, number, -⟩ := fraction_of_positional fraction spelled
    have exponent : d.exponent = -((-d.exponent).toNat : Int) := by omega
    rw [length, number, div_eq_mul_inv, ← zpow_natCast, ← zpow_neg, ← exponent]
  · obtain ⟨none, number, -⟩ := integer_of_positional integer spelled
    have exponent : d.exponent = (d.exponent.toNat : Int) := by omega
    rw [none, List.append_nil, number, List.length_nil, pow_zero, div_one, Nat.cast_mul,
      Nat.cast_pow, ← zpow_natCast, ← exponent]
    rfl

/-- The literal that shows a finite double writes its decimal. -/
theorem Literal.rational_ofMagnitude {x : Float} (finite : x.isFinite = true) :
    (ofMagnitude x).spelling = (Decimal.ofFloat x).positional false ∧
      (ofMagnitude x).rational = (Decimal.ofFloat x).rational := by
  have shown := (ofMagnitude_spec finite).2.2
  rw [plainNumeral_of_isFinite finite] at shown
  have spelled := (List.append_cancel_left shown).symm
  exact ⟨spelled, rational_of_positional spelled⟩

end Calculator
