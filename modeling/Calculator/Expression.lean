/-!
# Arithmetic expressions and their values

An expression is a tree of leaves, negations and the four binary operations. Its
leaves are binary64 numbers unless another type is named. Its value is then
computed in binary64 arithmetic, each operation rounding to the nearest double;
dividing by zero gives an infinity or a NaN. Two notions of equality meet here:
`=` compares leaves bit for bit (all NaN being one), while `==` compares them as
IEEE does.
-/

namespace Calculator

/-- The four operations that join two expressions. -/
inductive Operator where
  | add
  | subtract
  | multiply
  | divide
  deriving DecidableEq, Repr

/-- The character that writes an operation. -/
def Operator.symbol : Operator → Char
  | .add => '+'
  | .subtract => '-'
  | .multiply => '*'
  | .divide => '/'

/-- The operation that a character writes, if it writes one. -/
def Operator.ofSymbol? (c : Char) : Option Operator :=
  if c = '+' then some .add
  else if c = '-' then some .subtract
  else if c = '*' then some .multiply
  else if c = '/' then some .divide
  else none

/-- Reading a written operation gives it back. -/
@[simp] theorem Operator.ofSymbol?_symbol (op : Operator) : ofSymbol? op.symbol = some op := by
  cases op <;> decide

/-- Only its symbol writes an operation. -/
theorem Operator.ofSymbol?_eq_some {c : Char} {op : Operator} (h : ofSymbol? c = some op) :
    c = op.symbol := by
  unfold ofSymbol? at h
  grind [Operator.symbol]

/-- Multiplication and division bind tighter than addition and subtraction. -/
def Operator.bindsTight : Operator → Bool
  | .multiply | .divide => true
  | .add | .subtract => false

/-- The binary64 operation that an operator stands for. -/
def Operator.apply : Operator → Float → Float → Float
  | .add, x, y => x + y
  | .subtract, x, y => x - y
  | .multiply, x, y => x * y
  | .divide, x, y => x / y

/-- An arithmetic expression over leaves of some type, which are doubles if none is
named. Grouping is the shape of the tree. -/
inductive Expr (α : Type := Float) where
  /-- A number, in the form that the type gives it. -/
  | number (value : α)
  /-- The negation of one expression. -/
  | negate (operand : Expr α)
  /-- Two expressions joined by an operation. -/
  | binary (operator : Operator) (left right : Expr α)
  deriving DecidableEq

instance : Inhabited Expr := ⟨.number 0⟩

/-- The value of an expression; operands are never reassociated. -/
def Expr.evaluate : Expr → Float
  | .number value => value
  | .negate operand => -operand.evaluate
  | .binary operator left right => operator.apply left.evaluate right.evaluate

/-- Equality of expressions whose leaves are compared as IEEE numbers: a NaN
differs from itself and the two zeros are equal. -/
def Expr.beq : Expr → Expr → Bool
  | .number x, .number y => x == y
  | .negate a, .negate b => a.beq b
  | .binary op a b, .binary op' a' b' => op == op' && a.beq a' && b.beq b'
  | _, _ => false

instance : BEq Expr := ⟨Expr.beq⟩

section Leaves

variable {α β : Type}

/-- The leaves of an expression from left to right. -/
def Expr.leaves : Expr α → List α
  | .number value => [value]
  | .negate operand => operand.leaves
  | .binary _ left right => left.leaves ++ right.leaves

/-- The expression of the same shape with every leaf replaced. -/
def Expr.map (f : α → β) : Expr α → Expr β
  | .number value => .number (f value)
  | .negate operand => .negate (operand.map f)
  | .binary operator left right => .binary operator (left.map f) (right.map f)

end Leaves

/-- The expression under `count` negations. -/
def Expr.negated (e : Expr) : Nat → Expr
  | 0 => e
  | count + 1 => .negate (e.negated count)

end Calculator
