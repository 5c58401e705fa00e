import Calculator.Expression

/-!
# Literals and the grammar of expressions

A literal is a nonempty run of digits, optionally followed by a point and
further digits. Its double is accumulated digit by digit in binary64
arithmetic. Before the point only the first 38 digits count, leading zeros among
them, and the others merely shift the value. Behind the point every digit
counts, weighted by a running product of tenths. Blanks aside, an expression is
written by four rules:

    expression := term { ('+' | '-') term }
    term       := factor { ('*' | '/') factor }
    factor     := '(' expression ')' | '-' factor | number
    number     := digit+ [ '.' digit* ]

Operators of one rule group to the left, a group is its content, and a minus sign
in front of a factor negates that factor only. The relation `Derives` says which
characters write which expression; it knows nothing of how they are read, nor of
what a literal is made into.
-/

namespace Calculator

/-- A decimal digit. -/
abbrev Digit := Fin 10

/-- The digit that a character writes, if it writes one. Only `0` to `9` do. -/
def Digit.ofChar? (c : Char) : Option Digit :=
  if h : 48 ≤ c.toNat ∧ c.toNat - 48 < 10 then some ⟨c.toNat - 48, h.2⟩ else none

/-- The character that writes a digit. -/
def Digit.toChar (d : Digit) : Char := Nat.digitChar d.val

/-- Reading a written digit gives it back. -/
@[simp] theorem Digit.ofChar?_toChar (d : Digit) : ofChar? d.toChar = some d := by
  revert d
  decide

/-- The code points of the digits follow that of `0`. -/
theorem Digit.toNat_toChar (d : Digit) : d.toChar.toNat = 48 + d.val := by
  revert d
  decide

/-- A character that writes a digit is the one that is written for it. -/
theorem Digit.toChar_of_ofChar? {c : Char} {d : Digit} (h : ofChar? c = some d) :
    d.toChar = c := by
  unfold ofChar? at h
  split at h
  · rename_i range
    have value : c.toNat - 48 = d.val := congrArg Fin.val (Option.some.inj h)
    have code : d.toChar.toNat = c.toNat := by
      rw [toNat_toChar, ← value]
      omega
    exact Char.toNat_inj.mp code
  · contradiction

/-- No parenthesis, sign or point is a digit. -/
theorem Digit.toChar_ne (d : Digit) :
    d.toChar ≠ '(' ∧ d.toChar ≠ ')' ∧ d.toChar ≠ '-' ∧ d.toChar ≠ '.' ∧ d.toChar ≠ ' ' := by
  revert d
  decide

/-- The double of a digit. -/
def Digit.toFloat (d : Digit) : Float := d.val.toUInt8.toFloat

/-- A literal as its digits. -/
structure Literal where
  /-- The digits before the point. -/
  whole : Array Digit
  /-- The digits behind the point, where there is one. -/
  fraction : Option (Array Digit)
  deriving DecidableEq

namespace Literal

/-- The literal of one digit. -/
def ofDigit (d : Digit) : Literal := ⟨#[d], none⟩

/-- A literal with one more digit at its end. -/
def push (l : Literal) (d : Digit) : Literal :=
  match l.fraction with
  | none => { l with whole := l.whole.push d }
  | some digits => { l with fraction := some (digits.push d) }

/-- A literal with a point at its end. -/
def withPoint (l : Literal) : Literal := { l with fraction := some #[] }

/-- Whether the literal has a point already. -/
def hasPoint (l : Literal) : Bool := l.fraction.isSome

/-- The characters that write a literal. -/
def spelling (l : Literal) : List Char :=
  l.whole.toList.map Digit.toChar ++
    match l.fraction with
    | none => []
    | some digits => '.' :: digits.toList.map Digit.toChar

/-- One more digit is spelled at the end. -/
@[simp] theorem spelling_push (l : Literal) (d : Digit) :
    (l.push d).spelling = l.spelling ++ [d.toChar] := by
  obtain ⟨whole, fraction⟩ := l
  cases fraction <;> simp [push, spelling]

/-- A first point is spelled at the end. -/
theorem spelling_withPoint {l : Literal} (h : l.hasPoint = false) :
    l.withPoint.spelling = l.spelling ++ ['.'] := by
  obtain ⟨whole, fraction⟩ := l
  cases fraction with
  | none => simp [withPoint, spelling]
  | some => simp [hasPoint] at h

/-- How many digits before the point count. -/
def countedDigits : Nat := 38

/-- The value with one more counted digit before the point. -/
def appendDigit (value : Float) (d : Digit) : Float := value * 10 + d.toFloat

/-- The value shifted by a digit that does not count. -/
def shift (value : Float) (_ : Digit) : Float := value * 10

/-- The double of the digits before the point. -/
def wholeValue (digits : List Digit) : Float :=
  (digits.drop countedDigits).foldl shift ((digits.take countedDigits).foldl appendDigit 0)

/-- The value so far and the weight of the last digit behind the point. -/
structure Accumulated where
  /-- The value so far. -/
  value : Float
  /-- The weight of the last digit. -/
  weight : Float
  deriving DecidableEq

/-- The value with one more digit behind the point, a tenth of the last weight. -/
def Accumulated.append (p : Accumulated) (d : Digit) : Accumulated :=
  let weight := p.weight * 0.1
  ⟨p.value + d.toFloat * weight, weight⟩

/-- The double of a number with the given digits behind its point. -/
def withFraction (whole : Float) (digits : List Digit) : Float :=
  (digits.foldl Accumulated.append ⟨whole, 1⟩).value

/-- The double that a literal denotes. -/
def value (l : Literal) : Float :=
  let whole := wholeValue l.whole.toList
  match l.fraction with
  | none => whole
  | some digits => withFraction whole digits.toList

/-- Only the number of the digits that do not count matters. -/
theorem foldl_shift_eq_of_length_eq {a b : List Digit} (length : a.length = b.length)
    (value : Float) : a.foldl shift value = b.foldl shift value := by
  induction a generalizing b value with
  | nil => rw [List.eq_nil_of_length_eq_zero length.symm]
  | cons d a ih =>
    obtain ⟨d', b, rfl⟩ := List.exists_cons_of_length_eq_add_one length.symm
    exact ih (Nat.succ.inj length) (value * 10)

/-- Digits beyond the counted ones leave no trace but their number. -/
theorem wholeValue_eq_of_take {a b : List Digit}
    (same : a.take countedDigits = b.take countedDigits) (length : a.length = b.length) :
    wholeValue a = wholeValue b := by
  have rest : (a.drop countedDigits).length = (b.drop countedDigits).length := by
    rw [List.length_drop, List.length_drop, length]
  rw [wholeValue, wholeValue, same]
  exact foldl_shift_eq_of_length_eq rest _

end Literal

/-- The rules that derive an expression. -/
inductive Rule where
  /-- Terms joined by `+` and `-`. -/
  | expression
  /-- Factors joined by `*` and `/`. -/
  | term
  /-- A number, a group, or a factor behind a minus sign. -/
  | factor
  deriving DecidableEq, Repr

/-- The name of a rule. -/
def Rule.name : Rule → String
  | .expression => "expression"
  | .term => "term"
  | .factor => "factor"

/-- The characters of a text that are no blanks. -/
def visible (text : List Char) : List Char := text.filter (· != ' ')

/-- Blanks are left out wherever they stand. -/
@[simp] theorem visible_append (a b : List Char) : visible (a ++ b) = visible a ++ visible b :=
  List.filter_append ..

/-- The characters, none of them a blank, that write an expression by a rule. A literal
writes the leaf that is made of it: its double, or the literal itself. -/
inductive Derives {α : Type} (leaf : Literal → α) : Rule → List Char → Expr α → Prop where
  /-- A literal with a digit before its point is the leaf made of it. -/
  | number (l : Literal) (nonempty : l.whole.toList ≠ []) :
    Derives leaf .factor l.spelling (.number (leaf l))
  /-- A group is its content. -/
  | group {cs : List Char} {e : Expr α} (content : Derives leaf .expression cs e) :
    Derives leaf .factor ('(' :: cs ++ [')']) e
  /-- A minus sign negates the factor behind it. -/
  | negate {cs : List Char} {e : Expr α} (operand : Derives leaf .factor cs e) :
    Derives leaf .factor ('-' :: cs) (.negate e)
  /-- A factor is a term. -/
  | factor {cs : List Char} {e : Expr α} (single : Derives leaf .factor cs e) :
    Derives leaf .term cs e
  /-- A term times or over a factor is a term. -/
  | product {a b : List Char} {left right : Expr α} {op : Operator}
    (tight : op.bindsTight = true) (first : Derives leaf .term a left)
    (last : Derives leaf .factor b right) :
    Derives leaf .term (a ++ op.symbol :: b) (.binary op left right)
  /-- A term is an expression. -/
  | term {cs : List Char} {e : Expr α} (single : Derives leaf .term cs e) :
    Derives leaf .expression cs e
  /-- An expression plus or minus a term is an expression. -/
  | sum {a b : List Char} {left right : Expr α} {op : Operator}
    (loose : op.bindsTight = false) (first : Derives leaf .expression a left)
    (last : Derives leaf .term b right) :
    Derives leaf .expression (a ++ op.symbol :: b) (.binary op left right)

end Calculator
