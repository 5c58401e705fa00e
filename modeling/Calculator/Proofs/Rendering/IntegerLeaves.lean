import Calculator.Proofs.Evaluation.Leaves
import Calculator.Proofs.Rendering.Layout
import Calculator.Proofs.Rendering.Reparse

/-!
# Integer leaves come back

Up to two to the 54th the steps between doubles are so small that no multiple of ten
other than an integer itself rounds to it. So an integer is shown by its own digits,
and reading them rounds nothing. An expression with such leaves is therefore read
back from its written form.
-/

namespace Calculator

section Integers

variable {x : Float} {n : Nat}

/-- The significand of an integer double at its scale is the integer. -/
theorem IsMagnitude.significand_mul_eq (hx : IsMagnitude x) (exactly : Exactly x n) :
    significand x * (2 : ℚ) ^ scale x = n :=
  (rationalValue_of_unsigned hx.unsigned).symm.trans exactly.value

/-- The scale of an integer double up to two to the 54th is at most two, and two for
the last one alone. -/
theorem scale_cases (hx : IsMagnitude x) (exactly : Exactly x n) (positive : 0 < n)
    (bounded : n ≤ 2 ^ 54) :
    scale x ≤ 0 ∨ (scale x = 1 ∧ n = 2 * significand x) ∨ (scale x = 2 ∧ n = 2 ^ 54) := by
  have value := hx.significand_mul_eq exactly
  rcases Int.lt_or_le 0 (scale x) with coarse | fine
  · right
    obtain ⟨shift, scale_eq⟩ := Int.eq_ofNat_of_zero_le coarse.le
    have normal : leadingBit ≤ significand x := by
      unfold scale at coarse
      rw [significand, if_neg (by omega)]
      exact Nat.le_add_right _ _
    have number : significand x * 2 ^ shift = n := by
      rw [scale_eq, zpow_natCast] at value
      exact_mod_cast value
    unfold leadingBit at normal
    have small : shift ≤ 2 := by
      by_contra large
      have power : 2 ^ 3 ≤ 2 ^ shift := Nat.pow_le_pow_right two_pos (by omega)
      have product := Nat.mul_le_mul normal power
      omega
    obtain rfl | rfl : shift = 1 ∨ shift = 2 := by omega
    · exact .inl ⟨scale_eq, by omega⟩
    · exact .inr ⟨scale_eq, by omega⟩
  · exact .inl fine

/-- No multiple of ten other than an integer rounds to it. -/
theorem eq_of_covers_of_dvd (hx : IsMagnitude x) (exactly : Exactly x n) (positive : 0 < n)
    (bounded : n ≤ 2 ^ 54) {z : Nat} (tens : 10 ∣ z)
    (covers : (RoundingInterval.ofFloat x).Covers z) : z = n := by
  have near := near_of_covers covers
  rw [hx.significand_mul_eq exactly] at near
  have near_int (d : Int) (bound : (2 : ℚ) ^ (scale x - 1) < d + 1) : |(z : Int) - n| ≤ d := by
    have cast : ((|(z : Int) - n| : Int) : ℚ) < ((d + 1 : Int) : ℚ) := by
      push_cast
      exact near.trans_lt bound
    exact Int.lt_add_one_iff.mp (Int.cast_lt.mp cast)
  rcases scale_cases hx exactly positive bounded with fine | ⟨one, even⟩ | ⟨two, power⟩
  · have step : (2 : ℚ) ^ (scale x - 1) < (0 : Int) + 1 := by
      calc (2 : ℚ) ^ (scale x - 1) ≤ 2 ^ (-1 : Int) := zpow_le_zpow_right₀ one_le_two (by omega)
        _ < (0 : Int) + 1 := by norm_num
    have apart := abs_le.mp (near_int 0 step)
    omega
  · have apart := abs_le.mp (near_int 1 (by rw [one]; norm_num))
    omega
  · have apart := abs_le.mp (near_int 2 (by rw [two]; norm_num))
    omega

/-- The number of the rounding interval of an integer double is the integer. -/
theorem units_value_eq (hx : IsMagnitude x) (exactly : Exactly x n) :
    (RoundingInterval.ofFloat x).units (RoundingInterval.ofFloat x).value = n :=
  (units_value_ofFloat x).trans (hx.significand_mul_eq exactly)

/-- On the shared scale the number is as many ones as the integer says. -/
theorem mul_gridFactor_eq (hx : IsMagnitude x) (exactly : Exactly x n) :
    n * (RoundingInterval.ofFloat x).gridFactor 0 =
      (RoundingInterval.ofFloat x).value * (RoundingInterval.ofFloat x).unitFactor 0 := by
  have grid := (RoundingInterval.ofFloat x).cast_mul_gridFactor n 0
  rw [zpow_zero, mul_one, ← units_value_eq hx exactly,
    ← RoundingInterval.cast_mul_unitFactor] at grid
  exact Nat.cast_injective grid

/-- The grid of the integers gives an integer itself. -/
theorem onGrid?_zero (hx : IsMagnitude x) (exactly : Exactly x n) (nonzero : significand x ≠ 0) :
    (RoundingInterval.ofFloat x).onGrid? 0 = some n := by
  have covers := (proper_ofFloat nonzero).covers_value
  rw [units_value_eq hx exactly] at covers
  have grid := mul_gridFactor_eq hx exactly
  have contains : (RoundingInterval.ofFloat x).contains n 0 = true := by
    rw [RoundingInterval.contains_iff, zpow_zero, mul_one]
    exact covers
  generalize RoundingInterval.ofFloat x = i at grid contains ⊢
  have positive := i.gridFactor_pos 0
  have below : i.below 0 = n := by
    rw [RoundingInterval.below, ← grid]
    exact Nat.mul_div_cancel n positive
  have nearest : i.nearest 0 = n := by
    rw [RoundingInterval.nearest, below, ← grid, if_pos]
    rw [add_mul, mul_assoc]
    omega
  rw [RoundingInterval.onGrid?, below, contains]
  cases i.contains (n + 1) 0 with
  | true => rw [nearest]
  | false => rfl

/-- A search that comes to the grid of the integers finds the integer, there or on a
coarser grid. -/
theorem search_eq (hx : IsMagnitude x) (exactly : Exactly x n) (positive : 0 < n)
    (bounded : n ≤ 2 ^ 54) (nonzero : significand x ≠ 0) {count : Nat} {k : Int} (first : 0 ≤ k)
    (last : k < count) :
    0 ≤ ((RoundingInterval.ofFloat x).search count k).exponent ∧
      ((RoundingInterval.ofFloat x).search count k).coefficient *
        10 ^ ((RoundingInterval.ofFloat x).search count k).exponent.toNat = n := by
  induction count generalizing k with
  | zero => omega
  | succ count ih =>
    unfold RoundingInterval.search
    cases found : (RoundingInterval.ofFloat x).onGrid? k with
    | none =>
      have coarser : k ≠ 0 := by
        rintro rfl
        rw [onGrid?_zero hx exactly nonzero] at found
        contradiction
      exact ih (by omega) (by omega)
    | some c =>
      refine ⟨first, ?_⟩
      show c * 10 ^ k.toNat = n
      rcases first.eq_or_lt with rfl | coarser
      · rw [onGrid?_zero hx exactly nonzero] at found
        rw [← Option.some.inj found]
        exact Nat.mul_one n
      · have covers := (RoundingInterval.contains_iff _ c k).mp
          (RoundingInterval.contains_of_onGrid? found)
        obtain ⟨exponent, rfl⟩ := Int.eq_ofNat_of_zero_le first
        have covers' : (RoundingInterval.ofFloat x).Covers ((c * 10 ^ exponent : Nat) : ℚ) := by
          push_cast
          exact covers
        have tens : 10 ∣ c * 10 ^ exponent :=
          (dvd_pow_self 10 (by omega)).mul_left c
        exact eq_of_covers_of_dvd hx exactly positive bounded tens covers'

/-- The order of magnitude of an integer is that of its first digit. -/
theorem order_eq (hx : IsMagnitude x) (exactly : Exactly x n) (positive : 0 < n) :
    (RoundingInterval.ofFloat x).order = (Nat.toDigits 10 n).length - 1 := by
  have grid := mul_gridFactor_eq hx exactly
  have scale_pos := (RoundingInterval.ofFloat x).gridFactor_pos 0
  have whole : n * (RoundingInterval.ofFloat x).gridFactor 0 /
      (RoundingInterval.ofFloat x).gridFactor 0 = n := Nat.mul_div_cancel n scale_pos
  unfold RoundingInterval.order
  dsimp only
  rw [← grid, if_pos (Nat.le_mul_of_pos_left _ positive), whole]

/-- The digits of a product with a power of ten. -/
theorem length_toDigits_add_le {c k d : Nat} (positive : 0 < c) (bounded : c * 10 ^ k < 10 ^ d) :
    (Nat.toDigits 10 c).length + k ≤ d := by
  have first := Nat.mul_le_mul_right (10 ^ k) (RoundingInterval.pow_length_toDigits_le positive)
  rw [← pow_add] at first
  have less := (Nat.pow_lt_pow_iff_right (by decide)).mp (first.trans_lt bounded)
  omega

/-- The decimal of an integer up to two to the 54th is the integer, perhaps with zeros
split off. -/
theorem Decimal.ofFloat_eq (hx : IsMagnitude x) (exactly : Exactly x n) (bounded : n ≤ 2 ^ 54) :
    0 ≤ (ofFloat x).exponent ∧ (ofFloat x).coefficient * 10 ^ (ofFloat x).exponent.toNat = n ∧
      (ofFloat x).digits.length + (ofFloat x).exponent.toNat ≤ 17 := by
  have value := hx.significand_mul_eq exactly
  unfold ofFloat
  split
  · rename_i zero
    rw [zero, Nat.cast_zero, zero_mul] at value
    obtain rfl : n = 0 := Nat.cast_injective value.symm
    decide
  · rename_i nonzero
    have positive : 0 < n := by
      rw [← Nat.cast_pos (α := ℚ), ← value]
      exact mul_pos (Nat.cast_pos.mpr (Nat.pos_of_ne_zero nonzero)) (zpow_pos two_pos _)
    have order := order_eq hx exactly positive
    have length : (Nat.toDigits 10 n).length ≤ 17 :=
      (Nat.length_toDigits_le_iff (by decide) (by decide)).mpr (by omega)
    have found : 0 ≤ (RoundingInterval.ofFloat x).shortest.exponent ∧
        (RoundingInterval.ofFloat x).shortest.coefficient *
          10 ^ (RoundingInterval.ofFloat x).shortest.exponent.toNat = n :=
      search_eq hx exactly positive bounded nonzero (by omega) (by omega)
    generalize (RoundingInterval.ofFloat x).shortest = d at found ⊢
    obtain ⟨integer, number⟩ := found
    refine ⟨integer, number, length_toDigits_add_le ?_ (by omega)⟩
    rw [← number] at positive
    exact Nat.pos_of_mul_pos_right positive

/-- The literal that shows an integer up to two to the 54th is read as the integer. -/
theorem Literal.value_ofMagnitude (hx : IsMagnitude x) (exactly : Exactly x n)
    (bounded : n ≤ 2 ^ 54) : (ofMagnitude x).value = x := by
  obtain ⟨integer, number, length⟩ := Decimal.ofFloat_eq hx exactly bounded
  obtain ⟨spelled, -⟩ := rational_ofMagnitude exactly.finite
  obtain ⟨none, written, count⟩ := integer_of_positional integer spelled
  rw [number] at written
  have counted : (ofMagnitude x).IsInteger := ⟨none, by rw [count]; exact length.trans (by decide)⟩
  have value : Exactly (ofMagnitude x).value n := by
    have held : Representable (n : ℚ) := ⟨_, exactly.holds⟩
    rw [← written] at held bounded
    rw [counted.value_eq, ← written]
    exact exactly_foldl_appendDigit_of_representable bounded held
  exact (isMagnitude_value _).eq_of_exactly hx value exactly

/-- An integer up to two to the 54th is read anew as itself. -/
theorem rereadLeaf_eq (hx : IsMagnitude x) (exactly : Exactly x n) (bounded : n ≤ 2 ^ 54) :
    rereadLeaf x = .number x := by
  rw [rereadLeaf, hx.unsigned, Literal.value_ofMagnitude hx exactly bounded]
  rfl

end Integers

/-- A double is an integer up to a bound, without a sign. -/
def IsNatural (bound : Nat) (x : Float) : Prop :=
  signBit x = false ∧ ∃ n : Nat, n ≤ bound ∧ Exactly x n

/-- Integers without a sign are magnitudes. -/
theorem IsNatural.isMagnitude {bound : Nat} {x : Float} (h : IsNatural bound x) :
    IsMagnitude x := by
  obtain ⟨unsigned, n, -, exactly⟩ := h
  exact ⟨unsigned, (isNaN_isInf_of_isFinite exactly.finite).1⟩

/-- An expression of integers up to two to the 54th is read anew as itself. -/
theorem Expr.reread_eq (e : Expr) (integers : ∀ x ∈ e.leaves, IsNatural (2 ^ 54) x) :
    e.reread = e := by
  induction e with
  | number x =>
    have magnitude := (integers x (List.mem_singleton_self x)).isMagnitude
    obtain ⟨-, n, bounded, exactly⟩ := integers x (List.mem_singleton_self x)
    exact rereadLeaf_eq magnitude exactly bounded
  | negate operand ih => rw [reread, ih integers]
  | binary op left right ihl ihr =>
    obtain ⟨first, last⟩ := List.forall_mem_append.mp integers
    rw [reread, ihl first, ihr last]

/-- An expression of integers up to two to the 54th is read back from its written
form. -/
theorem Expr.parse_render_of_isNatural {e : Expr}
    (integers : ∀ x ∈ e.leaves, IsNatural (2 ^ 54) x) : parse e.render = .ok e := by
  have finite : ∀ x ∈ e.leaves, x.isFinite = true := fun x member => by
    obtain ⟨-, n, -, exactly⟩ := integers x member
    exact exactly.finite
  rw [parse_render_of_isFinite finite, e.reread_eq integers]

/-- An expression whose leaves are integers up to two to the 53rd comes back from its
written form: what is read equals it, has the same value and is written the same
again. -/
theorem Expr.integers_come_back {e : Expr} (integers : ∀ x ∈ e.leaves, IsNatural (2 ^ 53) x) :
    parse e.render = .ok e ∧ (e == e) = true ∧
      ∀ read, parse e.render = .ok read →
        (read == e) = true ∧ read.evaluate = e.evaluate ∧ read.render = e.render := by
  have wider : ∀ x ∈ e.leaves, IsNatural (2 ^ 54) x := by
    intro x member
    obtain ⟨unsigned, n, bounded, exactly⟩ := integers x member
    exact ⟨unsigned, n, bounded.trans (by decide), exactly⟩
  have parsed := parse_render_of_isNatural wider
  have magnitudes : ∀ x ∈ e.leaves, IsMagnitude x := fun x member => (wider x member).isMagnitude
  have same : (e == e) = true := (beq_iff_same magnitudes magnitudes).mpr rfl
  refine ⟨parsed, same, ?_⟩
  intro read again
  obtain rfl : read = e := Except.ok.inj (again.symm.trans parsed)
  exact ⟨same, rfl, rfl⟩

/-- The negation of two to the 53rd over zero comes back. -/
theorem Expr.integers_come_back_of_quotient :
    let e : Expr := .binary .divide (.negate (.number 9007199254740992)) (.number 0)
    (∀ x ∈ e.leaves, IsNatural (2 ^ 53) x) ∧ parse e.render = .ok e ∧ (e == e) = true := by
  intro e
  have integers : ∀ x ∈ e.leaves, IsNatural (2 ^ 53) x := by
    intro x member
    rcases List.mem_pair.mp member with rfl | rfl
    · exact ⟨by decide, 9007199254740992, by decide,
        exactly_normalize (n := 9007199254740992) (by decide)⟩
    · exact ⟨by decide, 0, by decide, by exact_mod_cast exactly_zero⟩
  obtain ⟨parsed, same, -⟩ := integers_come_back integers
  exact ⟨integers, parsed, same⟩

/-- An integer leaf up to two to the 54th comes back. -/
theorem Expr.integer_leaf_comes_back {x : Float} {n : Nat} (unsigned : signBit x = false)
    (exactly : Exactly x n) (bounded : n ≤ 2 ^ 54) :
    parse (Expr.number x).render = .ok (.number x) :=
  parse_render_of_isNatural (List.forall_mem_singleton.mpr ⟨unsigned, n, bounded, exactly⟩)

/-- Two to the 54th comes back. -/
theorem Expr.integer_leaf_comes_back_at_bound :
    signBit 18014398509481984 = false ∧ Exactly 18014398509481984 (18014398509481984 : Nat) ∧
      parse (Expr.number 18014398509481984).render = .ok (.number 18014398509481984) := by
  have parts : (18014398509481984 : Float).isFinite = true ∧ signBit 18014398509481984 = false ∧
      significand 18014398509481984 = 4503599627370496 ∧ scale 18014398509481984 = 2 := by decide
  obtain ⟨finite, unsigned, digits, exponent⟩ := parts
  have exactly : Exactly 18014398509481984 (18014398509481984 : Nat) := by
    have value := exactly_of_parts finite unsigned digits exponent
    norm_num at value ⊢
    exact value
  exact ⟨unsigned, exactly, integer_leaf_comes_back unsigned exactly (by decide)⟩

/-- Twelve more than two to the 54th does not come back, though it is written with all
of its digits: appending the last two of them rounds. -/
theorem Expr.integer_leaf_drifts :
    Exactly 18014398509481996 (18014398509481996 : Nat) ∧
      (Expr.number 18014398509481996).render = "18014398509481996" ∧
      parse "18014398509481996" = .ok (.number 18014398509482000) ∧
      (Expr.number 18014398509482000 == .number 18014398509481996) = false := by
  have parts : (18014398509481996 : Float).isFinite = true ∧ signBit 18014398509481996 = false ∧
      significand 18014398509481996 = 4503599627370499 ∧ scale 18014398509481996 = 2 := by decide
  obtain ⟨finite, unsigned, digits, exponent⟩ := parts
  have exactly : Exactly 18014398509481996 (18014398509481996 : Nat) := by
    have value := exactly_of_parts finite unsigned digits exponent
    norm_num at value ⊢
    exact value
  have written : (Expr.number 18014398509481996).render = "18014398509481996" := by decide +kernel
  have read : parse "18014398509481996" = .ok (.number 18014398509482000) := by decide +kernel
  have different : ((18014398509482000 : Float) == 18014398509481996) = false := by decide
  exact ⟨exactly, written, read, different⟩

end Calculator
