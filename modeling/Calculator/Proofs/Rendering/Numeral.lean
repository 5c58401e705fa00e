import Calculator.Grammar
import Calculator.Rendering
import Calculator.Proofs.Binary64.Format

/-!
# Plain numerals as literals

The plain numeral of a finite double is a minus sign, if the sign bit is set,
and the spelling of a literal with digits on both sides of its point. A literal
is settled by its spelling, so the literal that shows a magnitude can be named.
The numerals of infinities and of NaN have a letter behind the sign instead.
-/

namespace Calculator

/-- A digit is written by a decimal digit. -/
theorem Digit.isDigit_toChar (d : Digit) : d.toChar.isDigit = true := by
  revert d
  decide

/-- Every decimal digit is written by a digit. -/
theorem Digit.exists_toChar {c : Char} (digit : c.isDigit = true) : ∃ d : Digit, d.toChar = c := by
  have range : 48 ≤ c.toNat ∧ c.toNat ≤ 57 := Char.isDigit_iff_toNat.mp digit
  have small : c.toNat - 48 < 10 := by omega
  refine ⟨⟨c.toNat - 48, small⟩, toChar_of_ofChar? ?_⟩
  unfold ofChar?
  rw [dif_pos ⟨range.1, small⟩]

/-- Decimal digits are written by digits. -/
theorem Digit.exists_map_toChar {cs : List Char} (digits : ∀ c ∈ cs, c.isDigit = true) :
    ∃ ds : List Digit, ds.map toChar = cs := by
  induction cs with
  | nil => exact ⟨[], rfl⟩
  | cons c cs ih =>
    obtain ⟨d, rfl⟩ := exists_toChar (digits c List.mem_cons_self)
    obtain ⟨ds, rfl⟩ := ih fun c' member => digits c' (List.mem_cons_of_mem _ member)
    exact ⟨d :: ds, rfl⟩

/-- Written digits are read back. -/
@[simp] theorem Digit.filterMap_ofChar?_toChar (ds : List Digit) :
    ds.filterMap (ofChar? ∘ toChar) = ds := by
  have back : ofChar? ∘ toChar = some := funext ofChar?_toChar
  rw [back, List.filterMap_some]

/-- The literal that characters spell, if they spell one. -/
def Literal.ofSpelling (cs : List Char) : Literal where
  whole := ((cs.takeWhile (· != '.')).filterMap Digit.ofChar?).toArray
  fraction :=
    match cs.dropWhile (· != '.') with
    | [] => none
    | _ :: digits => some (digits.filterMap Digit.ofChar?).toArray

/-- A literal is settled by its spelling. -/
@[simp] theorem Literal.ofSpelling_spelling (l : Literal) : ofSpelling l.spelling = l := by
  obtain ⟨⟨whole⟩, fraction⟩ := l
  have digits : ∀ c ∈ whole.map Digit.toChar, (c != '.') = true := by
    intro c member
    obtain ⟨d, -, rfl⟩ := List.mem_map.mp member
    simp [Digit.toChar_ne]
  -- the point, or else the end, is where the digits in front stop
  have before (rest : List Char) : (whole.map Digit.toChar ++ rest).takeWhile (· != '.') =
      whole.map Digit.toChar ++ rest.takeWhile (· != '.') := List.takeWhile_append_of_pos digits
  have behind (rest : List Char) : (whole.map Digit.toChar ++ rest).dropWhile (· != '.') =
      rest.dropWhile (· != '.') := List.dropWhile_append_of_pos digits
  cases fraction with
  | none =>
    unfold ofSpelling spelling
    dsimp only
    rw [before, behind]
    simp
  | some fraction => simp [ofSpelling, spelling, before, behind]

/-- There are digits before the point of a literal, and behind it if it has one. -/
structure Literal.Filled (l : Literal) : Prop where
  /-- The digits before the point. -/
  whole : l.whole.toList ≠ []
  /-- The digits behind the point. -/
  fraction : ∀ digits, l.fraction = some digits → digits.toList ≠ []

/-- Decimal digits with a point among them spell a literal. -/
theorem Literal.exists_spelling {whole fraction : List Char}
    (digits : ∀ c ∈ whole ++ fraction, c.isDigit = true) (before : whole ≠ [])
    (behind : fraction ≠ []) :
    ∃ l : Literal, l.Filled ∧ l.spelling = whole ++ '.' :: fraction := by
  obtain ⟨ds, rfl⟩ := Digit.exists_map_toChar fun c member =>
    digits c (List.mem_append_left _ member)
  obtain ⟨ds', rfl⟩ := Digit.exists_map_toChar fun c member =>
    digits c (List.mem_append_right _ member)
  refine ⟨⟨ds.toArray, some ds'.toArray⟩, ⟨by simpa using before, ?_⟩, rfl⟩
  intro digits same
  obtain rfl := Option.some.inj same
  simpa using behind

/-- Decimal digits alone spell a literal. -/
theorem Literal.exists_spelling_whole {whole : List Char}
    (digits : ∀ c ∈ whole, c.isDigit = true) (before : whole ≠ []) :
    ∃ l : Literal, l.Filled ∧ l.spelling = whole := by
  obtain ⟨ds, rfl⟩ := Digit.exists_map_toChar digits
  refine ⟨⟨ds.toArray, none⟩, ⟨by simpa using before, ?_⟩, by simp [spelling]⟩
  intro digits same
  contradiction

/-- A decimal without an exponent is laid out as a literal. -/
theorem Decimal.exists_spelling (d : Decimal) :
    ∃ l : Literal, l.Filled ∧ l.spelling = d.positional false := by
  have digits : ∀ c ∈ d.digits, c.isDigit = true := fun c => isDigit_of_mem_digits
  have zero : '0'.isDigit = true := by decide
  unfold positional
  split
  · rename_i integer
    simp only [Bool.false_eq_true, if_false, List.append_nil]
    have length := d.digits_length_pos
    apply Literal.exists_spelling_whole
    · intro c member
      rcases List.mem_append.mp member with first | last
      · exact digits c first
      · rw [List.eq_of_mem_replicate last, zero]
    · intro none
      rw [List.append_eq_nil_iff.mp none |>.1] at length
      contradiction
  · rename_i negative
    have places : 0 < (-d.exponent).toNat := by omega
    -- at least one digit stands before the point, since so many are filled up to
    have length : (-d.exponent).toNat + 1 ≤
        (d.digits.leftpad ((-d.exponent).toNat + 1) '0').length := by
      rw [List.length_leftpad]
      omega
    apply Literal.exists_spelling
    · intro c member
      rw [List.take_append_drop, List.leftpad, List.mem_append] at member
      rcases member with first | last
      · rw [List.eq_of_mem_replicate first, zero]
      · exact digits c last
    · rw [← List.length_pos_iff, List.length_take]
      omega
    · rw [← List.length_pos_iff, List.length_drop]
      omega

/-- The shortest decimal depends on the exponent and the fraction only. -/
theorem Decimal.ofFloat_congr {x y : Float} (exponent : storedExponent x = storedExponent y)
    (fraction : storedFraction x = storedFraction y) : ofFloat x = ofFloat y := by
  unfold ofFloat RoundingInterval.ofFloat significand scale
  rw [exponent, fraction]

/-- The sign of a numeral. A NaN has none. -/
def numeralSign (x : Float) : List Char := if !x.isNaN && signBit x then ['-'] else []

/-- The plain numeral of a finite double is its shortest decimal behind its sign. -/
theorem plainNumeral_of_isFinite {x : Float} (finite : x.isFinite = true) :
    plainNumeral x = numeralSign x ++ (Decimal.ofFloat x).positional false := by
  obtain ⟨nan, infinite⟩ := isNaN_isInf_of_isFinite finite
  unfold plainNumeral NumeralStyle.numeral numeralSign
  rw [nan, infinite, NumeralStyle.layout_plain]
  cases signBit x <;> rfl

/-- The plain numeral of a number is that of its magnitude behind its sign. -/
theorem plainNumeral_eq_abs {x : Float} (number : x.isNaN = false) :
    plainNumeral x = numeralSign x ++ plainNumeral x.abs := by
  obtain ⟨sign, exponent, fraction⟩ := parts_abs number
  have number' := (isNaN_congr exponent fraction).trans number
  have infinite : x.abs.isInf = x.isInf := by
    rw [Bool.eq_iff_iff, isInf_iff, isInf_iff, exponent, fraction]
  have unsigned : signBit x.abs = false := by
    unfold signOf at sign
    cases bit : signBit x.abs with
    | false => rfl
    | true => simp [bit] at sign
  unfold plainNumeral NumeralStyle.numeral numeralSign
  rw [number, number', infinite, unsigned, Decimal.ofFloat_congr exponent fraction]
  cases signBit x <;> rfl

/-- The literal that shows the magnitude of a double. -/
def Literal.ofMagnitude (x : Float) : Literal := ofSpelling (plainNumeral x.abs)

/-- A finite double is shown as its sign and the literal of its magnitude. -/
theorem Literal.ofMagnitude_spec {x : Float} (finite : x.isFinite = true) :
    (ofMagnitude x).Filled ∧ (ofMagnitude x).spelling = plainNumeral x.abs ∧
      plainNumeral x = numeralSign x ++ (ofMagnitude x).spelling := by
  obtain ⟨l, filled, shown⟩ := (Decimal.ofFloat x).exists_spelling
  have number := (isNaN_isInf_of_isFinite finite).1
  have magnitude : plainNumeral x.abs = l.spelling := by
    have signed := (plainNumeral_eq_abs number).symm.trans (plainNumeral_of_isFinite finite)
    rw [List.append_cancel_left signed, shown]
  have same : ofMagnitude x = l := by rw [ofMagnitude, magnitude, ofSpelling_spelling]
  refine ⟨same ▸ filled, by rw [same, magnitude], ?_⟩
  rw [same, ← magnitude, plainNumeral_eq_abs number]

/-- The letter behind the sign of a numeral that is no decimal. -/
def numeralLetter (x : Float) : Char := if x.isNaN then 'N' else 'i'

/-- A double that is not finite is shown by a letter behind its sign. -/
theorem plainNumeral_of_not_isFinite {x : Float} (special : x.isFinite = false) :
    ∃ rest, plainNumeral x = numeralSign x ++ numeralLetter x :: rest := by
  unfold plainNumeral NumeralStyle.numeral numeralSign numeralLetter
  cases nan : x.isNaN with
  | true => exact ⟨['a', 'N'], rfl⟩
  | false =>
    have ones : storedExponent x = 2047 := by
      rwa [Bool.eq_false_iff, Ne, isFinite_iff, Decidable.not_not] at special
    have infinite := (isInf_iff x).mpr ⟨ones, storedFraction_eq_zero nan ones⟩
    rw [infinite]
    cases signBit x with
    | true => exact ⟨['n', 'f'], rfl⟩
    | false => exact ⟨['n', 'f'], rfl⟩

end Calculator
