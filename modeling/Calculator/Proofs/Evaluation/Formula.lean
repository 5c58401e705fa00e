import Calculator.Proofs.Reading.Derivation
import Mathlib.Algebra.Field.Rat
import Mathlib.Data.List.Induction

/-!
# Formulas and their exact values

A formula is an expression over literals, so it shows how an expression is written.
What a literal is made into may be left open until a text has been read: the grammar
derives an expression exactly if it derives a formula that is mapped to it. A formula
has an exact rational value unless it divides by zero somewhere.
-/

namespace Calculator

section Leaves

variable {α : Type}

/-- An expression and all expressions in it. -/
def Expr.parts : Expr α → List (Expr α)
  | .number value => [.number value]
  | .negate operand => .negate operand :: operand.parts
  | .binary operator left right => .binary operator left right :: (left.parts ++ right.parts)

/-- An expression is a part of itself. -/
theorem Expr.self_mem_parts (e : Expr α) : e ∈ e.parts := by
  cases e with
  | number value => exact List.mem_singleton_self _
  | negate operand => exact List.mem_cons_self
  | binary op left right => exact List.mem_cons_self

/-- Where the grammar derives a formula it derives what the formula is mapped to. -/
theorem Derives.map {rule : Rule} {cs : List Char} {f : Expr Literal} (h : Derives id rule cs f)
    (leaf : Literal → α) : Derives leaf rule cs (f.map leaf) := by
  induction h with
  | number l nonempty => exact .number l nonempty
  | group _ content => exact .group content
  | negate _ operand => exact .negate operand
  | factor _ single => exact .factor single
  | product tight _ _ first last => exact .product tight first last
  | term _ single => exact .term single
  | sum loose _ _ first last => exact .sum loose first last

/-- Whatever the grammar derives is what some formula is mapped to. -/
theorem Derives.exists_formula {leaf : Literal → α} {rule : Rule} {cs : List Char} {e : Expr α}
    (h : Derives leaf rule cs e) : ∃ f : Expr Literal, Derives id rule cs f ∧ f.map leaf = e := by
  induction h with
  | number l nonempty => exact ⟨.number l, .number l nonempty, rfl⟩
  | group _ content =>
    obtain ⟨f, derived, rfl⟩ := content
    exact ⟨f, .group derived, rfl⟩
  | negate _ operand =>
    obtain ⟨f, derived, rfl⟩ := operand
    exact ⟨.negate f, .negate derived, rfl⟩
  | factor _ single =>
    obtain ⟨f, derived, rfl⟩ := single
    exact ⟨f, .factor derived, rfl⟩
  | product tight _ _ first last =>
    obtain ⟨left, derived, rfl⟩ := first
    obtain ⟨right, derived', rfl⟩ := last
    exact ⟨.binary _ left right, .product tight derived derived', rfl⟩
  | term _ single =>
    obtain ⟨f, derived, rfl⟩ := single
    exact ⟨f, .term derived, rfl⟩
  | sum loose _ _ first last =>
    obtain ⟨left, derived, rfl⟩ := first
    obtain ⟨right, derived', rfl⟩ := last
    exact ⟨.binary _ left right, .sum loose derived derived', rfl⟩

end Leaves

/-- The number that digits write, the most significant first. -/
def wholeNumber (digits : List Digit) : Nat := digits.foldl (fun n d => 10 * n + d.val) 0

/-- One more digit is the last one. -/
@[simp] theorem wholeNumber_concat (digits : List Digit) (d : Digit) :
    wholeNumber (digits ++ [d]) = 10 * wholeNumber digits + d.val := by
  rw [wholeNumber, List.foldl_append]
  rfl

/-- Appending digits to a number is appending their characters. -/
theorem foldl_digits_eq_ofDigitChars (digits : List Digit) (n : Nat) :
    digits.foldl (fun n d => 10 * n + d.val) n =
      Nat.ofDigitChars 10 (digits.map Digit.toChar) n := by
  induction digits generalizing n with
  | nil => rfl
  | cons d digits ih =>
    rw [List.foldl_cons, List.map_cons, Digit.toChar,
      Nat.ofDigitChars_cons_digitChar_of_lt_ten d.isLt, ih]

/-- The number that digits write is read off their characters. -/
theorem wholeNumber_eq_ofDigitChars (digits : List Digit) :
    wholeNumber digits = Nat.ofDigitChars 10 (digits.map Digit.toChar) 0 :=
  foldl_digits_eq_ofDigitChars digits 0

/-- Digits in a row write the first number, shifted, and the second. -/
theorem wholeNumber_append (a b : List Digit) :
    wholeNumber (a ++ b) = 10 ^ b.length * wholeNumber a + wholeNumber b := by
  rw [wholeNumber_eq_ofDigitChars, List.map_append, Nat.ofDigitChars_append,
    ← wholeNumber_eq_ofDigitChars, Nat.ofDigitChars_eq_ofDigitChars_zero, List.length_map,
    ← wholeNumber_eq_ofDigitChars]

/-- Digits write less than the weight of one more in front of them. -/
theorem wholeNumber_lt (digits : List Digit) : wholeNumber digits < 10 ^ digits.length := by
  induction digits using List.reverseRecOn with
  | nil => exact Nat.one_pos
  | append_singleton digits d ih =>
    rw [wholeNumber_concat, List.length_append, List.length_singleton, Nat.pow_succ]
    omega

/-- The digits behind the point of a literal, none if it has no point. -/
def Literal.decimals (l : Literal) : List Digit := (l.fraction.getD #[]).toList

/-- The rational that a literal writes. -/
def Literal.rational (l : Literal) : ℚ :=
  wholeNumber l.whole.toList + wholeNumber l.decimals / 10 ^ l.decimals.length

/-- The result of an operation on rationals. There is none for a divisor of zero. -/
def Operator.rational? : Operator → ℚ → ℚ → Option ℚ
  | .add, p, q => some (p + q)
  | .subtract, p, q => some (p - q)
  | .multiply, p, q => some (p * q)
  | .divide, p, q => if q = 0 then none else some (p / q)

/-- The value of a formula in rational arithmetic, if it has one. -/
def Expr.rational? : Expr Literal → Option ℚ
  | .number l => some l.rational
  | .negate operand => operand.rational?.map fun p => -p
  | .binary operator left right =>
    left.rational?.bind fun p => right.rational?.bind fun q => operator.rational? p q

end Calculator
