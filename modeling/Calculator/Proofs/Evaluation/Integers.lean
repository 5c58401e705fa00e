import Calculator.Proofs.Binary64.Arithmetic
import Calculator.Proofs.Evaluation.Formula
import Mathlib.Data.List.Induction

/-!
# Formulas over the integers

A literal without decimals accumulates its digits in doubles, and an expression
is evaluated in doubles. Neither rounds anything as long as all numbers on the
way are integers of up to 53 bits, so the value of an expression is then the
exact value of the formula that is written.
-/

namespace Calculator

open Float.Model Float.Model.UnpackedFloat

/-- A rational that is an integer of up to 53 bits is held by a double. -/
theorem representable_of_eq_intCast {q : ℚ} {z : Int} (value : q = z) (bounded : |z| ≤ 2 ^ 53) :
    Representable q := by
  rw [value]
  exact representable_intCast bounded

/-- Naturals of up to 53 bits are held by doubles. -/
theorem representable_natCast {n : Nat} (bounded : n ≤ 2 ^ 53) : Representable n := by
  have bounded' : |(n : Int)| ≤ 2 ^ 53 := by
    rw [Nat.abs_cast]
    exact_mod_cast bounded
  exact representable_of_eq_intCast (Int.cast_natCast n).symm bounded'

/-- Small naturals are read as themselves. -/
theorem exactly_normalize {n : Nat} (bounded : n ≤ 2 ^ 53) :
    Exactly (packed (UnpackedFloat.normalize .binary64 n 0 .positive)) n := by
  have value : ((n : Int) : ℚ) * 2 ^ (0 : Int) = n := by
    rw [zpow_zero, mul_one, Int.cast_natCast]
  have held := holds_normalize (value ▸ representable_natCast bounded) .positive
  rw [value] at held
  exact held.packed

/-- The double of a digit is the digit. -/
theorem Digit.exactly_toFloat (d : Digit) : Exactly d.toFloat d.val := by
  have small : d.val.toUInt8.toNat = d.val := Nat.mod_eq_of_lt (by omega)
  have made : d.toFloat =
      packed (UnpackedFloat.normalize .binary64 d.val.toUInt8.toNat 0 .positive) := rfl
  rw [made, small]
  exact exactly_normalize (by omega)

/-- The base of the literals is ten. -/
theorem exactly_ten : Exactly 10 10 :=
  exactly_normalize (n := 10) (by decide)

/-- A literal starts at zero. -/
theorem exactly_zero : Exactly 0 0 := (Holds.zero .positive).packed

/-- One more digit is appended exactly if doubles hold the shifted number and the
sum. -/
theorem exactly_appendDigit {value : Float} {n : Nat} {d : Digit} (before : Exactly value n)
    (held : Representable (10 * n : Nat)) (held' : Representable (10 * n + d.val : Nat)) :
    Exactly (Literal.appendDigit value d) (10 * n + d.val : Nat) := by
  have shifted : (n : ℚ) * 10 = (10 * n : Nat) := by
    push_cast
    ring
  have product := before.mul exactly_ten (shifted ▸ held)
  rw [shifted] at product
  have last : ((10 * n : Nat) : ℚ) + (d.val : ℚ) = (10 * n + d.val : Nat) := by
    push_cast
    ring
  have sum := product.add d.exactly_toFloat (last ▸ held')
  rw [last] at sum
  exact sum

/-- Digits that all count accumulate exactly. -/
theorem exactly_foldl_appendDigit (digits : List Digit) (bounded : wholeNumber digits ≤ 2 ^ 53) :
    Exactly (digits.foldl Literal.appendDigit 0) (wholeNumber digits) := by
  induction digits using List.reverseRecOn with
  | nil => exact_mod_cast exactly_zero
  | append_singleton digits d ih =>
    rw [wholeNumber_concat] at bounded ⊢
    rw [List.foldl_append]
    -- the number so far is no greater than with one more digit
    have shifted := representable_natCast (n := 10 * wholeNumber digits) (by omega)
    exact exactly_appendDigit (ih (by omega)) shifted (representable_natCast bounded)

/-- They do so up to two to the 54th if a double holds the number, since one digit
less makes a number of 53 bits. -/
theorem exactly_foldl_appendDigit_of_representable {digits : List Digit}
    (bounded : wholeNumber digits ≤ 2 ^ 54) (held : Representable (wholeNumber digits)) :
    Exactly (digits.foldl Literal.appendDigit 0) (wholeNumber digits) := by
  rcases List.eq_nil_or_concat digits with rfl | ⟨before, d, rfl⟩
  · exact exactly_foldl_appendDigit [] (by decide)
  · rw [List.concat_eq_append, wholeNumber_concat] at bounded held ⊢
    rw [List.foldl_append]
    have shifted : Representable (10 * wholeNumber before : Nat) := by
      have halves : ((10 * wholeNumber before : Nat) : ℚ) =
          (5 * wholeNumber before : Nat) * 2 ^ (1 : Int) := by
        push_cast
        ring
      rw [halves]
      exact representable_natCast_mul_zpow (by unfold leadingBit; omega) (by decide) (by decide)
    exact exactly_appendDigit (exactly_foldl_appendDigit before (by omega)) shifted held

/-- A literal without decimals whose digits all count. -/
structure Literal.IsInteger (l : Literal) : Prop where
  /-- No digits stand behind the point. -/
  whole : l.decimals = []
  /-- All digits before the point count. -/
  counted : l.whole.toList.length ≤ countedDigits

/-- Such a literal writes a natural. -/
theorem Literal.IsInteger.rational_eq {l : Literal} (h : l.IsInteger) :
    l.rational = wholeNumber l.whole.toList := by
  rw [rational, h.whole]
  simp [wholeNumber]

/-- Such a literal is read by appending its digits. -/
theorem Literal.IsInteger.value_eq {l : Literal} (h : l.IsInteger) :
    l.value = l.whole.toList.foldl appendDigit 0 := by
  have counted : wholeValue l.whole.toList = l.whole.toList.foldl appendDigit 0 := by
    rw [wholeValue, List.take_of_length_le h.counted, List.drop_of_length_le h.counted]
    rfl
  have value : l.value = wholeValue l.whole.toList := by
    have none := h.whole
    obtain ⟨whole, fraction⟩ := l
    cases fraction with
    | none => rfl
    | some digits =>
      have empty : digits.toList = [] := none
      show withFraction (wholeValue whole.toList) digits.toList = _
      rw [empty]
      rfl
  rw [value, counted]

/-- Such a literal is read exactly, up to 53 bits. -/
theorem Literal.IsInteger.exactly_value {l : Literal} (h : l.IsInteger)
    (bounded : wholeNumber l.whole.toList ≤ 2 ^ 53) : Exactly l.value l.rational := by
  rw [h.value_eq, h.rational_eq]
  exact exactly_foldl_appendDigit _ bounded

/-- An operation on integers whose result is one of up to 53 bits is exact. -/
theorem Operator.exactly_apply {op : Operator} {x y : Float} {p q : ℚ} {z : Int}
    (hx : Exactly x p) (hy : Exactly y q) (result : op.rational? p q = some (z : ℚ))
    (bounded : |z| ≤ 2 ^ 53) : Exactly (op.apply x y) z := by
  cases op with
  | add =>
    have value : p + q = z := Option.some.inj result
    exact value ▸ hx.add hy (representable_of_eq_intCast value bounded)
  | subtract =>
    have value : p - q = z := Option.some.inj result
    exact value ▸ hx.sub hy (representable_of_eq_intCast value bounded)
  | multiply =>
    have value : p * q = z := Option.some.inj result
    exact value ▸ hx.mul hy (representable_of_eq_intCast value bounded)
  | divide =>
    change (if q = 0 then none else some (p / q)) = _ at result
    split at result
    · contradiction
    · rename_i divisible
      have value : p / q = z := Option.some.inj result
      exact value ▸ hx.div hy divisible (representable_of_eq_intCast value bounded)

/-- All literals of a formula are integers, and so is the exact value of each of
its parts, of up to 53 bits. -/
structure Expr.IsIntegral (f : Expr Literal) : Prop where
  /-- The literals are integers. -/
  literals : ∀ l ∈ f.leaves, l.IsInteger
  /-- The values of the parts are small integers. -/
  parts : ∀ g ∈ f.parts, ∃ z : Int, g.rational? = some (z : ℚ) ∧ |z| ≤ 2 ^ 53

/-- A literal is integral if it is an integer of up to 53 bits. -/
theorem Expr.isIntegral_number {l : Literal} :
    IsIntegral (.number l) ↔ l.IsInteger ∧ wholeNumber l.whole.toList ≤ 2 ^ 53 := by
  constructor
  · intro h
    have integer := h.literals l (List.mem_singleton_self l)
    obtain ⟨z, value, bounded⟩ := h.parts _ (List.mem_singleton_self _)
    have natural : (wholeNumber l.whole.toList : ℚ) = z :=
      integer.rational_eq.symm.trans (Option.some.inj value)
    have natural' : (wholeNumber l.whole.toList : Int) = z := by exact_mod_cast natural
    have bounds := abs_le.mp bounded
    exact ⟨integer, by omega⟩
  · rintro ⟨integer, bounded⟩
    constructor
    · intro m member
      rw [List.mem_singleton.mp member]
      exact integer
    · intro g member
      rw [List.mem_singleton.mp member]
      have value : rational? (.number l) = some ((wholeNumber l.whole.toList : Int) : ℚ) := by
        rw [Int.cast_natCast]
        exact congrArg some integer.rational_eq
      refine ⟨_, value, ?_⟩
      rw [Nat.abs_cast]
      exact_mod_cast bounded

/-- A negation is integral if its operand is. -/
theorem Expr.isIntegral_negate {f : Expr Literal} :
    IsIntegral (.negate f) ↔ f.IsIntegral := by
  constructor
  · intro h
    exact ⟨h.literals, fun g member => h.parts g (List.mem_cons_of_mem _ member)⟩
  · intro h
    refine ⟨h.literals, ?_⟩
    intro g member
    rcases List.mem_cons.mp member with rfl | inside
    · obtain ⟨z, value, bounded⟩ := h.parts f f.self_mem_parts
      refine ⟨-z, ?_, by rwa [abs_neg]⟩
      rw [rational?, value, Int.cast_neg]
      rfl
    · exact h.parts g inside

/-- An operation is integral if both operands are and its result is an integer of
up to 53 bits. -/
theorem Expr.isIntegral_binary {op : Operator} {f g : Expr Literal} :
    IsIntegral (.binary op f g) ↔ f.IsIntegral ∧ g.IsIntegral ∧
      ∃ z : Int, rational? (.binary op f g) = some (z : ℚ) ∧ |z| ≤ 2 ^ 53 := by
  constructor
  · intro h
    have inside (part : Expr Literal) (member : part ∈ f.parts ++ g.parts) :=
      h.parts part (List.mem_cons_of_mem _ member)
    refine ⟨⟨?_, ?_⟩, ⟨?_, ?_⟩, h.parts _ (self_mem_parts _)⟩
    · exact fun l member => h.literals l (List.mem_append_left _ member)
    · exact fun part member => inside part (List.mem_append_left _ member)
    · exact fun l member => h.literals l (List.mem_append_right _ member)
    · exact fun part member => inside part (List.mem_append_right _ member)
  · rintro ⟨left, right, result⟩
    constructor
    · intro l member
      rcases List.mem_append.mp member with first | last
      · exact left.literals l first
      · exact right.literals l last
    · intro part member
      rcases List.mem_cons.mp member with rfl | inside
      · exact result
      · rcases List.mem_append.mp inside with first | last
        · exact left.parts part first
        · exact right.parts part last

/-- An integral formula is evaluated exactly. -/
theorem Expr.IsIntegral.exactly_evaluate {f : Expr Literal} (h : f.IsIntegral) :
    ∃ q, f.rational? = some q ∧ Exactly (f.map Literal.value).evaluate q := by
  induction f with
  | number l =>
    obtain ⟨integer, bounded⟩ := isIntegral_number.mp h
    exact ⟨l.rational, rfl, integer.exactly_value bounded⟩
  | negate operand ih =>
    obtain ⟨q, value, exactly⟩ := ih (isIntegral_negate.mp h)
    refine ⟨-q, ?_, exactly.neg⟩
    rw [rational?, value]
    rfl
  | binary op left right ihl ihr =>
    obtain ⟨integral_left, integral_right, z, value, bounded⟩ := isIntegral_binary.mp h
    obtain ⟨p, value_left, first⟩ := ihl integral_left
    obtain ⟨q, value_right, last⟩ := ihr integral_right
    have result : op.rational? p q = some (z : ℚ) := by
      rw [rational?, value_left, value_right] at value
      exact value
    exact ⟨z, value, Operator.exactly_apply first last result bounded⟩

/-- Every text that is an expression writes a formula, and where that is integral
the value of the expression is the exact value of the formula. -/
theorem evaluate_eq_exact {text : String} {tree : Expr} (parsed : parse text = .ok tree) :
    (∃ f, Derives id .expression (visible text.toList) f ∧ f.map Literal.value = tree) ∧
      ∀ f, Derives id .expression (visible text.toList) f → f.IsIntegral →
        ∃ q, f.rational? = some q ∧ Exactly tree.evaluate q := by
  refine ⟨(derives_of_parse parsed).exists_formula, ?_⟩
  intro f derived integral
  have read := parse_of_derives (derived.map Literal.value)
  obtain rfl : tree = f.map Literal.value := Except.ok.inj (parsed.symm.trans read)
  exact integral.exactly_evaluate

/-- Six divided by minus three is exact. -/
theorem evaluate_eq_exact_quotient :
    ∃ tree, parse "6 / -3" = .ok tree ∧ Exactly tree.evaluate (-2) := by
  let six : Literal := ⟨#[6], none⟩
  let three : Literal := ⟨#[3], none⟩
  let formula : Expr Literal := .binary .divide (.number six) (.negate (.number three))
  have derived : Derives id .expression (visible "6 / -3".toList) formula := by
    have first : Derives id .term six.spelling (.number six) := .factor (.number six (by decide))
    have last : Derives id .factor ('-' :: three.spelling) (.negate (.number three)) :=
      .negate (.number three (by decide))
    have quotient : Derives id .term
        (six.spelling ++ Operator.divide.symbol :: '-' :: three.spelling) formula :=
      .product rfl first last
    exact .term quotient
  have integral_six : Expr.IsIntegral (.number six) :=
    Expr.isIntegral_number.mpr ⟨⟨rfl, by decide⟩, by decide⟩
  have integral_three : Expr.IsIntegral (.number three) :=
    Expr.isIntegral_number.mpr ⟨⟨rfl, by decide⟩, by decide⟩
  have six_eq : six.rational = 6 := by
    have number : wholeNumber six.whole.toList = 6 := rfl
    rw [Literal.IsInteger.rational_eq ⟨rfl, by decide⟩, number]
    norm_num
  have three_eq : three.rational = 3 := by
    have number : wholeNumber three.whole.toList = 3 := rfl
    rw [Literal.IsInteger.rational_eq ⟨rfl, by decide⟩, number]
    norm_num
  have value : formula.rational? = some ((-2 : Int) : ℚ) := by
    norm_num [formula, Expr.rational?, Operator.rational?, six_eq, three_eq]
  have integral : formula.IsIntegral := Expr.isIntegral_binary.mpr
    ⟨integral_six, Expr.isIntegral_negate.mpr integral_three, -2, value, by norm_num⟩
  have parsed := parse_of_derives (derived.map Literal.value)
  obtain ⟨q, exact_eq, exactly⟩ := (evaluate_eq_exact parsed).2 formula derived integral
  have same : q = -2 := by
    rw [← Option.some.inj (value.symm.trans exact_eq)]
    norm_num
  exact ⟨formula.map Literal.value, parsed, same ▸ exactly⟩

end Calculator
