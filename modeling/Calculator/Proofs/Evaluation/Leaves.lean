import Calculator.Proofs.Binary64.Magnitude
import Calculator.Proofs.Evaluation.Integers

/-!
# The leaves of expressions that are read

The double of a literal is a magnitude, however many digits it has: the digits
before the point are appended to a magnitude, which may have become infinite, and
each digit behind it adds a finite one, since its weight never exceeds one. All
leaves of an expression that is read are literals. On such expressions equality
is identity, so expressions that are equal have the same value.
-/

namespace Calculator

/-- The double of a digit is a finite magnitude. -/
theorem Digit.isMagnitude_toFloat (d : Digit) : IsMagnitude d.toFloat := by
  have parts : ∀ d : Digit, signBit d.toFloat = false ∧ d.toFloat.isNaN = false := by decide
  exact ⟨(parts d).1, (parts d).2⟩

/-- Ten times a magnitude is a magnitude. -/
theorem IsMagnitude.mul_ten {x : Float} (hx : IsMagnitude x) : IsMagnitude (x * 10) :=
  hx.mul ⟨by decide, by decide⟩ exactly_ten.finite (.inr (by decide))

/-- One more digit before the point is appended while digits count, and then shifts the
value. -/
theorem Literal.wholeValue_concat (digits : List Digit) (d : Digit) :
    wholeValue (digits ++ [d]) =
      if digits.length < countedDigits then appendDigit (wholeValue digits) d
      else shift (wholeValue digits) d := by
  unfold wholeValue
  split
  · rename_i counts
    have fits : (digits ++ [d]).length ≤ countedDigits := by
      rw [List.length_append, List.length_singleton]
      exact counts
    rw [List.take_of_length_le fits, List.drop_of_length_le fits,
      List.take_of_length_le counts.le, List.drop_of_length_le counts.le, List.foldl_append]
    rfl
  · rename_i full
    have full := not_lt.mp full
    rw [List.take_append_of_le_length full, List.drop_append_of_le_length full,
      List.foldl_append]
    rfl

/-- The double of the digits before the point is a magnitude. -/
theorem Literal.isMagnitude_wholeValue (digits : List Digit) :
    IsMagnitude (wholeValue digits) := by
  induction digits using List.reverseRecOn with
  | nil => exact ⟨by decide, by decide⟩
  | append_singleton digits d ih =>
    rw [wholeValue_concat]
    split
    · exact ih.mul_ten.add d.isMagnitude_toFloat
    · exact ih.mul_ten

/-- The rational that the double nearest to a tenth is. -/
def tenth : ℚ := 7205759403792794 * 2 ^ (-56 : Int)

/-- The factor between the weights of two digits is nearly a tenth. -/
theorem exactly_tenth : Exactly 0.1 tenth := by
  have parts : (0.1 : Float).isFinite = true ∧ signBit 0.1 = false ∧
      significand 0.1 = 7205759403792794 ∧ scale 0.1 = -56 := by decide
  obtain ⟨finite, sign, digits, exponent⟩ := parts
  exact_mod_cast exactly_of_parts finite sign digits exponent

/-- No double that is finite exceeds the greatest. -/
theorem le_greatestDouble_of_le_one {q : ℚ} (bounded : q ≤ 1) : q ≤ greatestDouble := by
  have leading : (1 : ℚ) ≤ (2 * leadingBit - 1 : ℕ) := by exact_mod_cast (by decide)
  have unit : (1 : ℚ) ≤ 2 ^ (971 : Int) := one_le_zpow₀ one_le_two (by decide)
  calc q ≤ 1 := bounded
    _ ≤ greatestDouble := one_le_mul_of_one_le_of_one_le leading unit

/-- The weight of a digit behind the point: a finite double from zero to one. -/
structure IsWeight (x : Float) : Prop where
  /-- It has no sign. -/
  magnitude : IsMagnitude x
  /-- It is a rational in the unit interval. -/
  value : ∃ q, Exactly x q ∧ 0 ≤ q ∧ q ≤ 1

/-- The weights start at one. -/
theorem isWeight_one : IsWeight 1 := by
  refine ⟨⟨by decide, by decide⟩, 1, ?_, zero_le_one, le_rfl⟩
  exact_mod_cast exactly_normalize (n := 1) (by decide)

/-- A tenth of a weight is a weight. -/
theorem IsWeight.mul_tenth {x : Float} (h : IsWeight x) : IsWeight (x * 0.1) := by
  obtain ⟨magnitude, q, exactly, nonneg, bounded⟩ := h
  have tenth_pos : 0 ≤ tenth := by norm_num [tenth]
  have tenth_le : tenth ≤ 1 := by norm_num [tenth]
  have product : q * tenth ≤ 1 := mul_le_one₀ bounded tenth_pos tenth_le
  obtain ⟨r, rounds, exactly'⟩ := exactly.roundsTo_mul exactly_tenth nonneg tenth_pos
    (le_greatestDouble_of_le_one product)
  have tenth_magnitude : IsMagnitude 0.1 := ⟨by decide, by decide⟩
  refine ⟨magnitude.mul tenth_magnitude exactly_tenth.finite (.inl exactly.finite), r, exactly',
    ?_, ?_⟩
  · exact rounds.nonneg (mul_nonneg nonneg tenth_pos)
  · have one : Representable (1 : ℚ) := by exact_mod_cast representable_natCast (n := 1) (by decide)
    exact rounds.above 1 one product

/-- A digit at a weight is a magnitude. -/
theorem IsWeight.isMagnitude_digit_mul {x : Float} (h : IsWeight x) (d : Digit) :
    IsMagnitude (d.toFloat * x) := by
  obtain ⟨q, exactly, -⟩ := h.value
  exact d.isMagnitude_toFloat.mul h.magnitude exactly.finite (.inl d.exactly_toFloat.finite)

namespace Literal

/-- What is accumulated behind the point: a magnitude, and the weight of a digit. -/
structure Accumulated.Sound (p : Accumulated) : Prop where
  /-- The value is a magnitude. -/
  value : IsMagnitude p.value
  /-- The weight is one of a digit. -/
  weight : IsWeight p.weight

/-- One more digit behind the point is accumulated soundly. -/
theorem Accumulated.Sound.append {p : Accumulated} (h : p.Sound) (d : Digit) :
    (p.append d).Sound :=
  ⟨h.value.add (h.weight.mul_tenth.isMagnitude_digit_mul d), h.weight.mul_tenth⟩

/-- All digits behind the point are accumulated soundly. -/
theorem Accumulated.Sound.foldl {p : Accumulated} (h : p.Sound) (digits : List Digit) :
    (digits.foldl Accumulated.append p).Sound := by
  induction digits generalizing p with
  | nil => exact h
  | cons d digits ih => exact ih (h.append d)

/-- The digits before the point are a sound start for those behind it. -/
theorem sound_wholeValue (digits : List Digit) : Accumulated.Sound ⟨wholeValue digits, 1⟩ :=
  ⟨isMagnitude_wholeValue digits, isWeight_one⟩

/-- The double of a literal is a magnitude. -/
theorem isMagnitude_value (l : Literal) : IsMagnitude l.value := by
  unfold value
  split
  · exact isMagnitude_wholeValue _
  · exact ((sound_wholeValue _).foldl _).value

end Literal

/-- All leaves of an expression that the grammar derives are magnitudes. -/
theorem Derives.isMagnitude_of_mem_leaves {rule : Rule} {cs : List Char} {e : Expr}
    (h : Derives Literal.value rule cs e) {x : Float} (leaf : x ∈ e.leaves) : IsMagnitude x := by
  induction h with
  | number l =>
    obtain rfl := List.mem_singleton.mp leaf
    exact l.isMagnitude_value
  | group _ ih | negate _ ih | factor _ ih | term _ ih => exact ih leaf
  | product _ _ _ first last | sum _ _ _ first last =>
    rcases List.mem_append.mp leaf with left | right
    · exact first left
    · exact last right

/-- A text whose visible characters spell a literal is read as its double. -/
theorem parse_of_spelling {text : String} {l : Literal} (nonempty : l.whole.toList ≠ [])
    (spelled : visible text.toList = l.spelling) : parse text = .ok (.number l.value) := by
  apply parse_of_derives
  rw [spelled]
  exact .term (.factor (.number l nonempty))

/-- Expressions whose leaves are magnitudes are equal as expressions of numbers
exactly if they are the same. -/
theorem Expr.beq_iff_same {a b : Expr} (ha : ∀ x ∈ a.leaves, IsMagnitude x)
    (hb : ∀ x ∈ b.leaves, IsMagnitude x) : (a == b) = true ↔ a = b := by
  show a.beq b = true ↔ a = b
  induction a generalizing b with
  | number x =>
    cases b with
    | number y =>
      have magnitude := ha x (List.mem_singleton_self x)
      have leaves := magnitude.beq_iff_eq (hb y (List.mem_singleton_self y))
      rw [beq, leaves, number.injEq]
    | negate | binary => simp [beq]
  | negate operand ih =>
    cases b with
    | negate other =>
      have operands := ih (b := other) ha hb
      rw [beq, operands, negate.injEq]
    | number | binary => simp [beq]
  | binary op left right ihl ihr =>
    cases b with
    | binary op' left' right' =>
      obtain ⟨ha_left, ha_right⟩ := List.forall_mem_append.mp ha
      obtain ⟨hb_left, hb_right⟩ := List.forall_mem_append.mp hb
      rw [beq, Bool.and_eq_true, Bool.and_eq_true, ihl ha_left hb_left, ihr ha_right hb_right,
        binary.injEq, and_assoc]
      exact and_congr_left fun _ => beq_iff_eq
    | number | negate => simp [beq]

/-- The leaves of an expression that is read are zero, positive or infinite. Such
an expression equals another one exactly if the two are the same, and then they
have the same value. -/
theorem parsed_leaves {text : String} {tree : Expr} (parsed : parse text = .ok tree) :
    (∀ x ∈ tree.leaves, signBit x = false ∧ x.isNaN = false ∧
      (x = 0 ∨ (x.isFinite = true ∧ 0 < rationalValue x) ∨ x.isInf = true)) ∧
    (tree == tree) = true ∧
    ∀ text' other, parse text' = .ok other →
      ((tree == other) = true ↔ tree = other) ∧
        ((tree == other) = true → tree.evaluate = other.evaluate) := by
  have magnitudes : ∀ x ∈ tree.leaves, IsMagnitude x :=
    fun x leaf => (derives_of_parse parsed).isMagnitude_of_mem_leaves leaf
  refine ⟨fun x leaf => ?_, (Expr.beq_iff_same magnitudes magnitudes).mpr rfl, ?_⟩
  · have magnitude := magnitudes x leaf
    exact ⟨magnitude.unsigned, magnitude.number, magnitude.trichotomy⟩
  · intro text' other parsed'
    have agree := Expr.beq_iff_same magnitudes
      fun x leaf => (derives_of_parse parsed').isMagnitude_of_mem_leaves leaf
    exact ⟨agree, fun same => congrArg Expr.evaluate (agree.mp same)⟩

/-- The leaves of a quotient with a negated zero are magnitudes, the zero among
them. -/
theorem parsed_leaves_of_quotient :
    ∃ tree, parse "1.5 / -0" = .ok tree ∧
      (∀ x ∈ tree.leaves, signBit x = false ∧ x.isNaN = false) ∧ (tree == tree) = true := by
  let half : Literal := ⟨#[1], some #[5]⟩
  let zero : Expr := .number (Literal.ofDigit 0).value
  let tree : Expr := .binary .divide (.number half.value) (.negate zero)
  have parsed : parse "1.5 / -0" = .ok tree :=
    (parse_eq_ok_iff_walk _ _).mpr ⟨_, .literal (.ofDigit 0), _, rfl, rfl, rfl⟩
  obtain ⟨leaves, reflexive, -⟩ := parsed_leaves parsed
  exact ⟨tree, parsed, fun x leaf => ⟨(leaves x leaf).1, (leaves x leaf).2.1⟩, reflexive⟩

end Calculator
