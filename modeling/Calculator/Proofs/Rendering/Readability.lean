import Calculator.Proofs.Evaluation.Leaves
import Calculator.Proofs.Rendering.Layout

/-!
# Written forms are canonical

The written form of an expression settles it up to the signs of its leaves: a leaf
whose sign bit is set is written as the negation of its magnitude is. The numeral of
a magnitude settles the magnitude, since the number it shows rounds to no other one.
No numeral begins another one either, as none of its characters may follow it, so a
written form is taken apart from the left in one way only.
-/

namespace Calculator

open Float.Model Float.Model.UnpackedFloat

section Numerals

variable {x y : Float}

/-- The decimal of a double is zero for zero alone. -/
theorem Decimal.rational_ofFloat_eq_zero_iff (x : Float) :
    (ofFloat x).rational = 0 ↔ significand x = 0 := by
  constructor
  · intro zero
    by_contra nonzero
    have near := near_of_covers (zero ▸ covers_ofFloat nonzero)
    have least : (1 : ℚ) ≤ significand x := Nat.one_le_cast.mpr (Nat.pos_of_ne_zero nonzero)
    have unit : (0 : ℚ) < 2 ^ scale x := zpow_pos two_pos _
    have number := mul_le_mul_of_nonneg_right least unit.le
    rw [zero_sub, abs_neg, abs_of_nonneg (by positivity), zpow_sub₀ two_ne_zero] at near
    linarith
  · intro zero
    rw [ofFloat, if_pos zero, rational, Nat.cast_zero, zero_mul]

/-- Magnitudes with the same decimal are the same. -/
theorem IsMagnitude.eq_of_rational_eq (hx : IsMagnitude x) (hy : IsMagnitude y)
    (same : (Decimal.ofFloat x).rational = (Decimal.ofFloat y).rational) : x = y := by
  have zero_iff : significand x = 0 ↔ significand y = 0 := by
    rw [← Decimal.rational_ofFloat_eq_zero_iff, same, Decimal.rational_ofFloat_eq_zero_iff]
  by_cases zero : significand x = 0
  · rw [hx.eq_zero zero, hy.eq_zero (zero_iff.mp zero)]
  · have nonzero : significand y ≠ 0 := fun other => zero (zero_iff.mpr other)
    have covers := Decimal.covers_ofFloat zero
    rw [same] at covers
    exact hx.eq_of_covers hy covers (Decimal.covers_ofFloat nonzero)

/-- Infinity is the only magnitude that is not finite. -/
theorem IsMagnitude.eq_of_not_isFinite (hx : IsMagnitude x) (hy : IsMagnitude y)
    (infinite : x.isFinite = false) (infinite' : y.isFinite = false) : x = y := by
  obtain ⟨exponent, fraction⟩ := (isInf_iff x).mp (hx.isInf infinite)
  obtain ⟨exponent', fraction'⟩ := (isInf_iff y).mp (hy.isInf infinite')
  exact hx.eq_of_parts hy (exponent.trans exponent'.symm) (fraction.trans fraction'.symm)

/-- The numeral of a magnitude has no sign. -/
theorem IsMagnitude.numeralSign_eq_nil (hx : IsMagnitude x) : numeralSign x = [] := by
  rw [numeralSign, hx.unsigned, Bool.and_false]
  rfl

/-- The numeral of a finite magnitude spells a literal. -/
theorem IsMagnitude.plainNumeral_of_isFinite (hx : IsMagnitude x) (finite : x.isFinite = true) :
    plainNumeral x = (Literal.ofMagnitude x).spelling := by
  obtain ⟨-, -, shown⟩ := Literal.ofMagnitude_spec finite
  rw [shown, hx.numeralSign_eq_nil, List.nil_append]

/-- The numeral of infinity. -/
theorem IsMagnitude.plainNumeral_of_not_isFinite (hx : IsMagnitude x)
    (infinite : x.isFinite = false) : plainNumeral x = ['i', 'n', 'f'] := by
  unfold plainNumeral NumeralStyle.numeral
  rw [hx.number, hx.isInf infinite, hx.unsigned]
  rfl

/-- Whether numerals of magnitudes may contain a character: a digit, the point, or a
letter of infinity. -/
def isNumeralCharacter (c : Char) : Bool := c.isDigit || c ∈ ['.', 'i', 'n', 'f']

/-- Literals are spelled by digits and the point. -/
theorem Literal.isDigit_or_point {l : Literal} {c : Char} (member : c ∈ l.spelling) :
    c.isDigit = true ∨ c = '.' := by
  have digits {ds : List Digit} (written : c ∈ ds.map Digit.toChar) : c.isDigit = true := by
    obtain ⟨d, -, rfl⟩ := List.mem_map.mp written
    exact d.isDigit_toChar
  unfold spelling at member
  rcases List.mem_append.mp member with before | behind
  · exact .inl (digits before)
  · split at behind
    · contradiction
    · rcases List.mem_cons.mp behind with point | after
      · exact .inr point
      · exact .inl (digits after)

/-- The numeral of a magnitude is made of such characters, and of one at least. -/
theorem IsMagnitude.plainNumeral_characters (hx : IsMagnitude x) :
    plainNumeral x ≠ [] ∧ ∀ c ∈ plainNumeral x, isNumeralCharacter c = true := by
  cases finite : x.isFinite with
  | true =>
    rw [hx.plainNumeral_of_isFinite finite]
    constructor
    · intro none
      have whole := (Literal.ofMagnitude_spec finite).1.whole
      exact whole (List.map_eq_nil_iff.mp (List.append_eq_nil_iff.mp none).1)
    · intro c member
      rcases Literal.isDigit_or_point member with digit | rfl
      · rw [isNumeralCharacter, digit, Bool.true_or]
      · decide
  | false =>
    rw [hx.plainNumeral_of_not_isFinite finite]
    exact ⟨List.cons_ne_nil _ _, List.all_eq_true.mp (by decide)⟩

/-- Infinity is shown by no literal. -/
theorem Literal.spelling_ne_infinity (l : Literal) : l.spelling ≠ ['i', 'n', 'f'] := by
  intro shown
  have letter : 'i' ∈ l.spelling := by
    rw [shown]
    exact List.mem_cons_self
  rcases isDigit_or_point letter with digit | point
  · exact absurd digit (by decide)
  · exact absurd point (by decide)

/-- The numeral of a magnitude settles it. -/
theorem IsMagnitude.plainNumeral_injective (hx : IsMagnitude x) (hy : IsMagnitude y)
    (same : plainNumeral x = plainNumeral y) : x = y := by
  cases finite : x.isFinite with
  | true =>
    rw [hx.plainNumeral_of_isFinite finite] at same
    cases finite' : y.isFinite with
    | true =>
      rw [hy.plainNumeral_of_isFinite finite'] at same
      have decimal := (Literal.rational_ofMagnitude finite).2
      have decimal' := (Literal.rational_ofMagnitude finite').2
      rw [Literal.spelling_injective same] at decimal
      exact hx.eq_of_rational_eq hy (decimal.symm.trans decimal')
    | false =>
      rw [hy.plainNumeral_of_not_isFinite finite'] at same
      exact absurd same (Literal.spelling_ne_infinity _)
  | false =>
    rw [hx.plainNumeral_of_not_isFinite finite] at same
    cases finite' : y.isFinite with
    | true =>
      rw [hy.plainNumeral_of_isFinite finite'] at same
      exact absurd same.symm (Literal.spelling_ne_infinity _)
    | false => exact hx.eq_of_not_isFinite hy finite finite'

/-- Behind a numeral there is none of its characters. -/
def EndsNumeral (rest : List Char) : Prop := ∀ c ∈ rest.head?, isNumeralCharacter c = false

/-- The numeral of a magnitude is all that is taken as one. -/
theorem IsMagnitude.takeWhile_plainNumeral (hx : IsMagnitude x) {rest : List Char}
    (ends : EndsNumeral rest) :
    (plainNumeral x ++ rest).takeWhile isNumeralCharacter = plainNumeral x := by
  rw [List.takeWhile_append_of_pos hx.plainNumeral_characters.2]
  cases rest with
  | nil => exact List.append_nil _
  | cons c cs =>
    rw [List.takeWhile_cons_of_neg (by rw [ends c rfl]; exact Bool.false_ne_true), List.append_nil]

/-- Numerals of magnitudes at the start of a text are told apart. -/
theorem IsMagnitude.plainNumeral_append_injective (hx : IsMagnitude x) (hy : IsMagnitude y)
    {r s : List Char} (hr : EndsNumeral r) (hs : EndsNumeral s)
    (same : plainNumeral x ++ r = plainNumeral y ++ s) : x = y ∧ r = s := by
  have numerals : plainNumeral x = plainNumeral y := by
    rw [← hx.takeWhile_plainNumeral hr, same, hy.takeWhile_plainNumeral hs]
  rw [numerals] at same
  exact ⟨hx.plainNumeral_injective hy numerals, List.append_cancel_left same⟩

/-- A text that starts with another character does not start with a numeral. -/
theorem IsMagnitude.plainNumeral_append_ne (hx : IsMagnitude x) {c : Char}
    (other : isNumeralCharacter c = false) (r s : List Char) : plainNumeral x ++ r ≠ c :: s := by
  obtain ⟨some, characters⟩ := hx.plainNumeral_characters
  obtain ⟨first, rest, shown⟩ := List.exists_cons_of_ne_nil some
  rw [shown] at characters ⊢
  intro same
  obtain rfl : first = c := (List.cons.inj same).1
  rw [characters first List.mem_cons_self] at other
  contradiction

end Numerals

/-- The written form of an operation and what follows it, from left to right. -/
theorem Expr.characters_binary_append (op : Operator) (left right : Expr) (rest : List Char) :
    (binary op left right).characters ++ rest =
      '(' :: (left.characters ++ ' ' :: op.symbol :: ' ' :: (right.characters ++ ')' :: rest)) := by
  simp [characters]

/-- Expressions of magnitudes at the start of a text are told apart. -/
theorem Expr.characters_append_injective {a b : Expr} {r s : List Char}
    (ha : ∀ x ∈ a.leaves, IsMagnitude x) (hb : ∀ x ∈ b.leaves, IsMagnitude x)
    (hr : EndsNumeral r) (hs : EndsNumeral s) (same : a.characters ++ r = b.characters ++ s) :
    a = b ∧ r = s := by
  have sign : isNumeralCharacter '-' = false := by decide
  have opening : isNumeralCharacter '(' = false := by decide
  have blank (cs : List Char) : EndsNumeral (' ' :: cs) := by
    rintro _ ⟨⟩
    decide
  have closing (cs : List Char) : EndsNumeral (')' :: cs) := by
    rintro _ ⟨⟩
    decide
  induction a generalizing b r s with
  | number x =>
    have hx := ha x (List.mem_singleton_self x)
    cases b with
    | number y =>
      have hy := hb y (List.mem_singleton_self y)
      obtain ⟨rfl, rest⟩ := hx.plainNumeral_append_injective hy hr hs same
      exact ⟨rfl, rest⟩
    | negate => exact absurd same (hx.plainNumeral_append_ne sign _ _)
    | binary =>
      rw [characters_binary_append] at same
      exact absurd same (hx.plainNumeral_append_ne opening _ _)
  | negate operand ih =>
    cases b with
    | number y =>
      have hy := hb y (List.mem_singleton_self y)
      exact absurd same.symm (hy.plainNumeral_append_ne sign _ _)
    | negate operand' =>
      obtain ⟨rfl, rest⟩ := ih (b := operand') ha hb hr hs (List.cons.inj same).2
      exact ⟨rfl, rest⟩
    | binary =>
      rw [characters_binary_append] at same
      have first : '-' = '(' := (List.cons.inj same).1
      contradiction
  | binary op left right ihl ihr =>
    rw [characters_binary_append] at same
    cases b with
    | number y =>
      have hy := hb y (List.mem_singleton_self y)
      exact absurd same.symm (hy.plainNumeral_append_ne opening _ _)
    | negate =>
      have first : '(' = '-' := (List.cons.inj same).1
      contradiction
    | binary op' left' right' =>
      rw [characters_binary_append] at same
      obtain ⟨ha_left, ha_right⟩ := List.forall_mem_append.mp ha
      obtain ⟨hb_left, hb_right⟩ := List.forall_mem_append.mp hb
      obtain ⟨rfl, behind⟩ := ihl ha_left hb_left (blank _) (blank _) (List.cons.inj same).2
      obtain ⟨-, symbol, -, last⟩ : ' ' = ' ' ∧ op.symbol = op'.symbol ∧ ' ' = ' ' ∧
          right.characters ++ ')' :: r = right'.characters ++ ')' :: s := by
        simpa only [List.cons.injEq] using behind
      obtain rfl := Operator.symbol_injective symbol
      obtain ⟨rfl, rest⟩ := ihr ha_right hb_right (closing _) (closing _) last
      exact ⟨rfl, (List.cons.inj rest).2⟩

/-- The written form of an expression of magnitudes settles it. -/
theorem Expr.characters_injective {a b : Expr} (ha : ∀ x ∈ a.leaves, IsMagnitude x)
    (hb : ∀ x ∈ b.leaves, IsMagnitude x) (same : a.characters = b.characters) : a = b := by
  have ends : EndsNumeral [] := by
    rintro _ ⟨⟩
  exact (characters_append_injective ha hb ends ends (congrArg (· ++ []) same)).1

/-- An expression with every leaf whose sign bit is set as the negation of its
magnitude. -/
def Expr.signsOut : Expr → Expr
  | .number value => if signBit value then .negate (.number value.abs) else .number value
  | .negate operand => .negate operand.signsOut
  | .binary operator left right => .binary operator left.signsOut right.signsOut

/-- The absolute value of a number is a magnitude. -/
theorem isMagnitude_abs {x : Float} (number : x.isNaN = false) : IsMagnitude x.abs := by
  obtain ⟨sign, exponent, fraction⟩ := parts_abs number
  exact ⟨(signOf_eq_positive_iff _).mp sign, (isNaN_congr exponent fraction).trans number⟩

/-- A number whose sign bit is set is the negation of its absolute value. -/
theorem neg_abs {x : Float} (number : x.isNaN = false) (signed : signBit x = true) :
    -x.abs = x := by
  obtain ⟨sign, exponent, fraction⟩ := parts_abs number
  obtain ⟨sign', exponent', fraction'⟩ := parts_neg (isMagnitude_abs number).number
  refine eq_of_parts ?_ (exponent'.trans exponent) (fraction'.trans fraction)
  rw [sign', sign, (signOf_eq_negative_iff x).mpr signed]
  rfl

/-- An expression has the same written form and the same value with its signs out, and
then its leaves are magnitudes. -/
theorem Expr.signsOut_spec (e : Expr) (numbers : ∀ x ∈ e.leaves, x.isNaN = false) :
    (∀ x ∈ e.signsOut.leaves, IsMagnitude x) ∧ e.signsOut.characters = e.characters ∧
      e.signsOut.evaluate = e.evaluate := by
  induction e with
  | number x =>
    have number := numbers x (List.mem_singleton_self x)
    rw [signsOut]
    cases signed : signBit x with
    | true =>
      have shown : plainNumeral x = '-' :: plainNumeral x.abs := by
        rw [plainNumeral_eq_abs number, numeralSign, number, signed]
        rfl
      exact ⟨List.forall_mem_singleton.mpr (isMagnitude_abs number), shown.symm,
        neg_abs number signed⟩
    | false => exact ⟨List.forall_mem_singleton.mpr ⟨signed, number⟩, rfl, rfl⟩
  | negate operand ih =>
    obtain ⟨magnitudes, shown, value⟩ := ih numbers
    refine ⟨magnitudes, ?_, ?_⟩
    · rw [signsOut, characters, characters, shown]
    · rw [signsOut, evaluate, evaluate, value]
  | binary op left right ihl ihr =>
    obtain ⟨first, last⟩ := List.forall_mem_append.mp numbers
    obtain ⟨magnitudes, shown, value⟩ := ihl first
    obtain ⟨magnitudes', shown', value'⟩ := ihr last
    refine ⟨List.forall_mem_append.mpr ⟨magnitudes, magnitudes'⟩, ?_, ?_⟩
    · rw [signsOut, characters, characters, shown, shown']
    · rw [signsOut, evaluate, evaluate, value, value']

/-- Two expressions without a NaN are written alike exactly if they are the same with
their signs out, and then they have the same value. Expressions that were read are
written alike only if they are the same. -/
theorem Expr.render_eq_iff_signsOut_eq {a b : Expr} (ha : ∀ x ∈ a.leaves, x.isNaN = false)
    (hb : ∀ x ∈ b.leaves, x.isNaN = false) :
    (a.render = b.render ↔ a.signsOut = b.signsOut) ∧
      (a.render = b.render → a.evaluate = b.evaluate) ∧
      ∀ text text' tree tree', parse text = .ok tree → parse text' = .ok tree' →
        tree.render = tree'.render → tree = tree' := by
  obtain ⟨magnitudes, shown, value⟩ := a.signsOut_spec ha
  obtain ⟨magnitudes', shown', value'⟩ := b.signsOut_spec hb
  have canonical : a.render = b.render ↔ a.signsOut = b.signsOut := by
    constructor
    · intro same
      apply characters_injective magnitudes magnitudes'
      rw [shown, shown', ← toList_render, same, toList_render]
    · intro same
      rw [← String.toList_inj, toList_render, toList_render, ← shown, ← shown', same]
  refine ⟨canonical, fun same => ?_, ?_⟩
  · rw [← value, canonical.mp same, value']
  · intro text text' tree tree' parsed parsed' same
    have leaves : ∀ x ∈ tree.leaves, IsMagnitude x :=
      fun x leaf => (derives_of_parse parsed).isMagnitude_of_mem_leaves leaf
    have leaves' : ∀ x ∈ tree'.leaves, IsMagnitude x :=
      fun x leaf => (derives_of_parse parsed').isMagnitude_of_mem_leaves leaf
    apply characters_injective leaves leaves'
    rw [← toList_render, same, toList_render]

/-- A negative leaf and the negation of its magnitude are written alike, before an
infinite one. -/
theorem Expr.render_eq_iff_signsOut_eq_of_difference :
    let a : Expr := .binary .subtract (.number (-2.5)) (.number (1 / 0))
    let b : Expr := .binary .subtract (.negate (.number 2.5)) (.number (1 / 0))
    (∀ x ∈ a.leaves, x.isNaN = false) ∧ (∀ x ∈ b.leaves, x.isNaN = false) ∧
      a.render = b.render ∧ a.signsOut = b.signsOut ∧ a.evaluate = b.evaluate := by
  intro a b
  have ha : ∀ x ∈ a.leaves, x.isNaN = false := by decide
  have hb : ∀ x ∈ b.leaves, x.isNaN = false := by decide
  obtain ⟨canonical, value, -⟩ := render_eq_iff_signsOut_eq ha hb
  have out : a.signsOut = b.signsOut := by decide +kernel
  have same := canonical.mpr out
  exact ⟨ha, hb, same, out, value same⟩

end Calculator
