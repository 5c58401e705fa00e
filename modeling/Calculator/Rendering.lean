import Calculator.Expression

/-!
# The written form of doubles and expressions

A finite double is `significand * 2 ^ scale` up to its sign, and the reals that
round to it form an interval. The shortest decimal of a positive double is the
number of fewest digits in that interval, the nearest of those, and of two
equally near the greater. All arithmetic is exact: a decimal `c * 10 ^ k` and a
binary number `n * 2 ^ e` are compared after clearing both powers.

The text of a double is its shortest decimal laid out in a style. The plain style
is always positional and drops the point of an integer; the logged style keeps
one decimal place and moves to an exponent for very small and very large
magnitudes. A sign is written for every number whose sign bit is set, a NaN has
none. In the form of an expression every binary operation is put in parentheses
with its symbol between two blanks, a negation is a minus sign directly before
its operand, and numbers are plain numerals, so it shows the shape of the tree.
-/

namespace Calculator

/-- Two to the 52nd: the weight of the leading bit of a normal double, which is
not stored, and the number of fractions that are. -/
def leadingBit : Nat := 4503599627370496

/-- Two to the 63rd: the weight of the sign bit. -/
def signWeight : Nat := 9223372036854775808

/-- The lowest 52 bits of a double. -/
def storedFraction (x : Float) : Nat := x.toBits.toNat % leadingBit

/-- The eleven bits above the fraction of a double. -/
def storedExponent (x : Float) : Nat := x.toBits.toNat / leadingBit % 2048

/-- Whether the sign bit of a double is set. -/
def signBit (x : Float) : Bool := decide (signWeight ≤ x.toBits.toNat)

/-- The integer that, scaled by `2 ^ scale`, is the magnitude of a finite
double. A normal double has an implicit leading bit above its fraction. -/
def significand (x : Float) : Nat :=
  if storedExponent x = 0 then storedFraction x else leadingBit + storedFraction x

/-- The power of two that scales the significand. The subnormal doubles share
the power of the least normal ones. -/
def scale (x : Float) : Int := max (storedExponent x) 1 - 1075

/-- A fraction lies below the leading bit. -/
theorem storedFraction_lt (x : Float) : storedFraction x < leadingBit :=
  Nat.mod_lt _ (by decide)

/-- A significand has at most one bit more than a fraction. -/
theorem significand_lt (x : Float) : significand x < 2 * leadingBit := by
  have h := storedFraction_lt x
  unfold significand
  split <;> omega

/-- The number `coefficient * 10 ^ exponent`. -/
structure Decimal where
  /-- All digits of the number, as a natural. -/
  coefficient : Nat
  /-- The power of ten of the last digit. -/
  exponent : Int
  deriving DecidableEq, Repr

/-- The digits of the coefficient, most significant first. -/
def Decimal.digits (d : Decimal) : List Char := Nat.toDigits 10 d.coefficient

/-- A coefficient has at least one digit. -/
theorem Decimal.digits_length_pos (d : Decimal) : 0 < d.digits.length :=
  Nat.length_toDigits_pos

/-- Every character of the coefficient is a decimal digit. -/
theorem Decimal.isDigit_of_mem_digits {d : Decimal} {c : Char} (h : c ∈ d.digits) :
    c.isDigit = true :=
  Nat.isDigit_of_mem_toDigits (by decide) (by decide) h

/-- The power of ten of the first digit. -/
def Decimal.order (d : Decimal) : Int := d.exponent + d.digits.length - 1

/-- A positive number and the interval of reals that round to it, all in units
of `2 ^ exponent`. -/
structure RoundingInterval where
  /-- The lower end. -/
  low : Nat
  /-- The number itself. -/
  value : Nat
  /-- The upper end. -/
  high : Nat
  /-- The power of two of the unit. -/
  exponent : Int
  /-- Whether the ends round to the number as well. -/
  closed : Bool
  deriving DecidableEq, Repr

/-- The rounding interval of the magnitude of a finite double. It reaches half
way to each neighbour; below a power of two the neighbour is twice as near. The
ends round to the double with the even significand. -/
def RoundingInterval.ofFloat (x : Float) : RoundingInterval :=
  let m := significand x
  { low := if storedFraction x = 0 ∧ 1 < storedExponent x then 4 * m - 1 else 4 * m - 2
    value := 4 * m
    high := 4 * m + 2
    exponent := scale x - 2
    closed := m % 2 == 0 }

namespace RoundingInterval

/-- The factor that turns units of the interval into an integer scale shared
with multiples of `10 ^ k`. -/
def unitFactor (i : RoundingInterval) (k : Int) : Nat :=
  Nat.pow 2 i.exponent.toNat * Nat.pow 10 (-k).toNat

/-- The factor that turns multiples of `10 ^ k` into the scale shared with
units of the interval. -/
def gridFactor (i : RoundingInterval) (k : Int) : Nat :=
  Nat.pow 2 (-i.exponent).toNat * Nat.pow 10 k.toNat

/-- Units have a positive size on the shared scale. -/
theorem unitFactor_pos (i : RoundingInterval) (k : Int) : 0 < i.unitFactor k :=
  Nat.mul_pos (Nat.pow_pos (by decide)) (Nat.pow_pos (by decide))

/-- Powers of ten have a positive size on the shared scale. -/
theorem gridFactor_pos (i : RoundingInterval) (k : Int) : 0 < i.gridFactor k :=
  Nat.mul_pos (Nat.pow_pos (by decide)) (Nat.pow_pos (by decide))

/-- Whether `c * 10 ^ k` rounds to the number. -/
def contains (i : RoundingInterval) (c : Nat) (k : Int) : Bool :=
  let point := c * i.gridFactor k
  if i.closed then
    decide (i.low * i.unitFactor k ≤ point ∧ point ≤ i.high * i.unitFactor k)
  else
    decide (i.low * i.unitFactor k < point ∧ point < i.high * i.unitFactor k)

/-- The greatest multiple of `10 ^ k` that does not exceed the number. -/
def below (i : RoundingInterval) (k : Int) : Nat := i.value * i.unitFactor k / i.gridFactor k

/-- The multiple of `10 ^ k` nearest to the number, the greater of two equally
near ones. -/
def nearest (i : RoundingInterval) (k : Int) : Nat :=
  if 2 * (i.value * i.unitFactor k) < (2 * i.below k + 1) * i.gridFactor k then i.below k
  else i.below k + 1

/-- The multiple of `10 ^ k` that rounds to the number, the nearest if there
are several. -/
def onGrid? (i : RoundingInterval) (k : Int) : Option Nat :=
  match i.contains (i.below k) k, i.contains (i.below k + 1) k with
  | true, true => some (i.nearest k)
  | true, false => some (i.below k)
  | false, true => some (i.below k + 1)
  | false, false => none

/-- What a grid gives rounds to the number. -/
theorem contains_of_onGrid? {i : RoundingInterval} {k : Int} {c : Nat}
    (h : i.onGrid? k = some c) : i.contains c k = true := by
  unfold onGrid? nearest at h
  grind

/-- The power of ten of the number's first digit. -/
def order (i : RoundingInterval) : Int :=
  let above := i.value * i.unitFactor 0
  let under := i.gridFactor 0
  if under ≤ above then (Nat.toDigits 10 (above / under)).length - 1
  else -(Nat.toDigits 10 ((under - 1) / above)).length

/-- The first of `count` grids from `10 ^ k` downwards that holds a number of
the interval gives its shortest decimal; if none does, the nearest multiple on
the grid after them stands in. -/
def search (i : RoundingInterval) : Nat → Int → Decimal
  | 0, k => ⟨i.nearest k, k⟩
  | count + 1, k =>
    match i.onGrid? k with
    | some c => ⟨c, k⟩
    | none => i.search count (k - 1)

/-- The shortest decimal that rounds to the number. Seventeen digits always
suffice, and one grid is tried above the first digit since the interval may
reach the next power of ten. -/
def shortest (i : RoundingInterval) : Decimal := i.search 18 (i.order + 1)

end RoundingInterval

/-- The shortest decimal of the magnitude of a finite double; zero is `0`. -/
def Decimal.ofFloat (x : Float) : Decimal :=
  if significand x = 0 then ⟨0, 0⟩ else (RoundingInterval.ofFloat x).shortest

/-- How a decimal is laid out. -/
structure NumeralStyle where
  /-- The orders of magnitude written without an exponent, as the least one and
  the first one beyond them. All are if there is no such range. -/
  positionalRange : Option (Int × Int)
  /-- Whether an integer is followed by `.0`. -/
  marksIntegers : Bool
  deriving DecidableEq, Repr

/-- Positional at every magnitude, and integers without a point. -/
def NumeralStyle.plain : NumeralStyle := ⟨none, false⟩

/-- Integers end in `.0`, and an exponent is written below `1e-4` and from
`1e16` on. -/
def NumeralStyle.logged : NumeralStyle := ⟨some (-4, 16), true⟩

/-- Whether numbers of this order of magnitude are written without an exponent. -/
def NumeralStyle.isPositional (style : NumeralStyle) (order : Int) : Bool :=
  match style.positionalRange with
  | none => true
  | some (least, beyond) => decide (least ≤ order ∧ order < beyond)

/-- The digits of a decimal around its point. A negative exponent counts the
digits behind the point, and zeros fill the front up to one digit before it. -/
def Decimal.positional (d : Decimal) (marksIntegers : Bool) : List Char :=
  if 0 ≤ d.exponent then
    d.digits ++ List.replicate d.exponent.toNat '0' ++ (if marksIntegers then ['.', '0'] else [])
  else
    let places := (-d.exponent).toNat
    let padded := d.digits.leftpad (places + 1) '0'
    padded.take (padded.length - places) ++ '.' :: padded.drop (padded.length - places)

/-- The digits of a decimal with the point behind the first, and the order of
magnitude as an exponent. -/
def Decimal.scientific (d : Decimal) : List Char :=
  let exponent := Nat.toDigits 10 d.order.natAbs
  d.digits.take 1 ++ (if 1 < d.digits.length then '.' :: d.digits.drop 1 else []) ++
    'e' :: (if d.order < 0 then '-' :: exponent else exponent)

/-- The text of a decimal in a style. -/
def NumeralStyle.layout (style : NumeralStyle) (d : Decimal) : List Char :=
  if style.isPositional d.order then d.positional style.marksIntegers else d.scientific

/-- The text of a double in a style. -/
def NumeralStyle.numeral (style : NumeralStyle) (x : Float) : List Char :=
  if x.isNaN then ['N', 'a', 'N']
  else
    let magnitude := if x.isInf then ['i', 'n', 'f'] else style.layout (.ofFloat x)
    if signBit x then '-' :: magnitude else magnitude

/-- In the plain style no decimal has an exponent. -/
theorem NumeralStyle.layout_plain (d : Decimal) : plain.layout d = d.positional false := rfl

/-- The text of a double where no style is asked for. -/
def plainNumeral (x : Float) : List Char := NumeralStyle.plain.numeral x

/-- The characters of the fully parenthesized form. -/
def Expr.characters : Expr → List Char
  | .number value => plainNumeral value
  | .negate operand => '-' :: operand.characters
  | .binary operator left right =>
    '(' :: left.characters ++ ' ' :: operator.symbol :: ' ' :: right.characters ++ [')']

/-- The fully parenthesized form. -/
def Expr.render (e : Expr) : String := .ofList e.characters

/-- The form of a double's value, as printed on its own. -/
def renderValue (x : Float) : String := .ofList (plainNumeral x)

/-- The form consists of exactly its characters. -/
@[simp] theorem Expr.toList_render (e : Expr) : e.render.toList = e.characters := by
  simp [render]

end Calculator
