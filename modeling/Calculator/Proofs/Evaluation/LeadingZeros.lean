import Calculator.Proofs.Evaluation.Leaves
import Calculator.Proofs.Rendering.Reparse

/-!
# Zeros in front of a literal

Zeros in front of a literal count like any other digits, so each of them takes
the place of one digit that would have counted. The literal keeps its double as
long as all of its digits still count; behind 38 zeros none does, and what stands
before the point is zero.
-/

namespace Calculator

namespace Literal

/-- The double of the digits before the point if only so many of them count. -/
def wholeValueWithin (counted : Nat) (digits : List Digit) : Float :=
  (digits.drop counted).foldl shift ((digits.take counted).foldl appendDigit 0)

/-- The double of a literal if only so many of its digits before the point
count. -/
def valueWithin (counted : Nat) (l : Literal) : Float :=
  let whole := wholeValueWithin counted l.whole.toList
  match l.fraction with
  | none => whole
  | some digits => withFraction whole digits.toList

/-- A literal with zeros in front of it. -/
def withZeros (count : Nat) (l : Literal) : Literal :=
  { l with whole := (List.replicate count 0 ++ l.whole.toList).toArray }

/-- Zeros are spelled in front. -/
theorem spelling_withZeros (count : Nat) (l : Literal) :
    (l.withZeros count).spelling = List.replicate count '0' ++ l.spelling := by
  simp only [spelling, withZeros, List.map_append, List.map_replicate, List.append_assoc]
  rfl

/-- Zeros that count leave the value at zero. -/
theorem foldl_appendDigit_zeros (count : Nat) :
    (List.replicate count (0 : Digit)).foldl appendDigit 0 = 0 := by
  have step : appendDigit 0 0 = 0 := by decide
  induction count with
  | zero => rfl
  | succ count ih => rw [List.replicate_succ, List.foldl_cons, step, ih]

/-- A value of zero stays so under digits that do not count. -/
theorem foldl_shift_zero (digits : List Digit) : digits.foldl shift 0 = 0 := by
  have step : ∀ d, shift 0 d = 0 := by decide
  induction digits with
  | nil => rfl
  | cons d digits ih => rw [List.foldl_cons, step, ih]

/-- Every zero in front takes the place of a digit that would have counted. -/
theorem wholeValueWithin_zeros (counted count : Nat) (digits : List Digit) :
    wholeValueWithin counted (List.replicate count 0 ++ digits) =
      wholeValueWithin (counted - count) digits := by
  unfold wholeValueWithin
  rw [List.take_append, List.drop_append, List.take_replicate, List.drop_replicate,
    List.length_replicate, List.foldl_append, List.foldl_append, foldl_appendDigit_zeros]
  rcases Nat.le_total counted count with all | some
  · -- only zeros count, so nothing is there to be shifted
    rw [Nat.sub_eq_zero_of_le all, List.take_zero, List.foldl_nil, foldl_shift_zero]
  · rw [Nat.sub_eq_zero_of_le some, List.replicate_zero, List.foldl_nil]

/-- The double of a literal with zeros in front of it. -/
theorem value_withZeros (count : Nat) (l : Literal) :
    (l.withZeros count).value = l.valueWithin (countedDigits - count) := by
  have whole : wholeValue (l.withZeros count).whole.toList =
      wholeValueWithin (countedDigits - count) l.whole.toList :=
    wholeValueWithin_zeros countedDigits count l.whole.toList
  obtain ⟨digits, fraction⟩ := l
  cases fraction with
  | none => exact whole
  | some fraction => exact congrArg (withFraction · fraction.toList) whole

/-- It makes no difference how many digits count beyond those that there are. -/
theorem valueWithin_of_le {counted counted' : Nat} {l : Literal}
    (all : l.whole.toList.length ≤ counted) (all' : l.whole.toList.length ≤ counted') :
    l.valueWithin counted = l.valueWithin counted' := by
  have whole : wholeValueWithin counted l.whole.toList =
      wholeValueWithin counted' l.whole.toList := by
    rw [wholeValueWithin, wholeValueWithin, List.take_of_length_le all,
      List.drop_of_length_le all, List.take_of_length_le all', List.drop_of_length_le all']
  rw [valueWithin, valueWithin, whole]

end Literal

/-- A literal is read as its double. -/
theorem parse_literal {l : Literal} (nonempty : l.whole.toList ≠ []) :
    parse (.ofList l.spelling) = .ok (.number l.value) := by
  apply parse_of_spelling nonempty
  rw [String.toList_ofList, l.visible_spelling]

/-- A literal behind zeros is the number of which as many digits less count as
there are zeros. It is the same number as without them as long as all digits
count, zeros included. -/
theorem parse_leadingZeros (count : Nat) {l : Literal} (nonempty : l.whole.toList ≠ []) :
    parse (.ofList (List.replicate count '0' ++ l.spelling)) =
        .ok (.number (l.valueWithin (Literal.countedDigits - count))) ∧
      parse (.ofList l.spelling) = .ok (.number (l.valueWithin Literal.countedDigits)) ∧
      (count + l.whole.toList.length ≤ Literal.countedDigits →
        parse (.ofList (List.replicate count '0' ++ l.spelling)) = parse (.ofList l.spelling)) := by
  have alone : parse (.ofList l.spelling) =
      .ok (.number (l.valueWithin Literal.countedDigits)) := parse_literal nonempty
  have behind : parse (.ofList (List.replicate count '0' ++ l.spelling)) =
      .ok (.number (l.valueWithin (Literal.countedDigits - count))) := by
    have nonempty' : (l.withZeros count).whole.toList ≠ [] :=
      List.append_ne_nil_of_right_ne_nil _ nonempty
    rw [← Literal.spelling_withZeros, parse_literal nonempty', Literal.value_withZeros]
  refine ⟨behind, alone, fun fits => ?_⟩
  have same : l.valueWithin (Literal.countedDigits - count) =
      l.valueWithin Literal.countedDigits := Literal.valueWithin_of_le (by omega) (by omega)
  rw [behind, alone, same]

/-- Behind three zeros `2.5` is still the same number. -/
theorem parse_leadingZeros_of_decimal :
    (#[2] : Array Digit).toList ≠ [] ∧
      3 + (#[2] : Array Digit).toList.length ≤ Literal.countedDigits ∧
      parse "0002.5" = parse "2.5" := by
  have nonempty : (⟨#[2], some #[5]⟩ : Literal).whole.toList ≠ [] := by decide
  exact ⟨nonempty, by decide, (parse_leadingZeros 3 nonempty).2.2 (by decide)⟩

/-- Behind 38 zeros a one does not count, so it is read as zero. -/
theorem parse_one_behind_zeros :
    parse (.ofList (List.replicate 38 '0' ++ ['1'])) = .ok (.number 0) ∧
      parse "1" = .ok (.number 1) ∧
      parse (.ofList (List.replicate 38 '0' ++ ['1'])) ≠ parse "1" := by
  let one : Literal := .ofDigit 1
  have behind : parse (.ofList (one.withZeros 38).spelling) =
      .ok (.number (one.withZeros 38).value) := parse_literal (by decide)
  have alone : parse (.ofList one.spelling) = .ok (.number one.value) := parse_literal (by decide)
  have lost : (one.withZeros 38).value = 0 := by decide +kernel
  have kept : one.value = 1 := by decide +kernel
  rw [lost] at behind
  rw [kept] at alone
  refine ⟨behind, alone, fun same => ?_⟩
  have equal := behind.symm.trans (same.trans alone)
  have different : (0 : Float) ≠ 1 := by decide
  exact different (Expr.number.inj (Except.ok.inj equal))

end Calculator
