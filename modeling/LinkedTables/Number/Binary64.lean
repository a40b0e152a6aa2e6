set_option autoImplicit false

/-! # Numbers in double precision

The finite doubles of one sign are in order of their magnitude, from zero on, and a double
is given by its rank in this order. The ranks come in rows of `2 ^ 52`, and the doubles of a
row are multiples of one power of two, their unit. The first row and the second have the
unit `2 ^ (-1074)`; from each row to the next the unit doubles. A double is thus
`mantissa * 2 ^ unit`, where the mantissa is below `2 ^ 53`, and at least `2 ^ 52` beyond
the first row. All arithmetic on doubles is exact arithmetic on these two numbers.

`Binary64.nearest` rounds a decimal number to a double: to the nearest, of two equally
near ones to that with the even mantissa, and to infinity from halfway beyond the
greatest finite double.
-/

namespace LinkedTables

/-- A number of double precision, or one of its special values. -/
inductive Binary64 where
  /-- A finite number: its sign and its rank among the `2047 * 2 ^ 52` magnitudes. -/
  | finite (negative : Bool) (rank : Fin 9218868437227405312)
  /-- Positive or negative infinity. -/
  | infinite (negative : Bool)
  /-- Not a number. -/
  | nan
deriving DecidableEq, Repr

/-- The decimal number `digits * 10 ^ exponent`. -/
structure Decimal where
  /-- The digits, read as a whole number. -/
  digits : Nat
  /-- The power of ten by which they are multiplied. -/
  exponent : Int
deriving DecidableEq, Repr

/-- A fraction of natural numbers, whose denominator is meant to be positive. -/
structure Fraction where
  /-- The numerator. -/
  num : Nat
  /-- The denominator. -/
  den : Nat
deriving DecidableEq, Repr

namespace Fraction

/-- The fraction `n * base ^ e`. -/
def scaled (base n : Nat) : Int → Fraction
  | .ofNat e => ⟨n * Nat.pow base e, 1⟩
  | .negSucc e => ⟨n, Nat.pow base (e + 1)⟩

/-- The fraction divided by `base ^ e`. -/
def unscaled (q : Fraction) (base : Nat) : Int → Fraction
  | .ofNat e => ⟨q.num, q.den * Nat.pow base e⟩
  | .negSucc e => ⟨q.num * Nat.pow base (e + 1), q.den⟩

/-- The nearest whole number, of two equally near ones the even one. -/
def rounded (q : Fraction) : Nat :=
  let whole := q.num / q.den
  let rest := 2 * (q.num % q.den)
  if rest < q.den then whole
  else if q.den < rest then whole + 1
  else whole + whole % 2

/-- The greatest `e` with `2 ^ e` at most the fraction, for a positive one. -/
def floorLog2 (q : Fraction) : Int :=
  let guess : Int := (q.num.log2 : Int) - q.den.log2
  -- The true exponent is the guess or one less.
  let power := scaled 2 1 guess
  if power.num * q.den ≤ q.num * power.den then guess else guess - 1

end Fraction

namespace Binary64

/-- The length of a row of ranks, `2 ^ 52`. -/
def rowLength : Nat := 4503599627370496

/-- The exponent of the least unit. -/
def leastUnit : Int := -1074

/-- The mantissa of the finite double with a given rank. -/
def mantissa (rank : Nat) : Nat :=
  if rank < rowLength then rank else rowLength + rank % rowLength

/-- The exponent of the unit of the finite double with a given rank. -/
def unit (rank : Nat) : Int :=
  if rank < rowLength then leastUnit else leastUnit + (rank / rowLength - 1 : Nat)

/-- Zero, of the given sign. -/
def zero (negative : Bool) : Binary64 := .finite negative ⟨0, by decide⟩

/-- The double of a rank; beyond the last rank there is infinity. -/
def ofRank (negative : Bool) (rank : Nat) : Binary64 :=
  if h : rank < 9218868437227405312 then .finite negative ⟨rank, h⟩ else .infinite negative

/-- The double `mantissa * 2 ^ unit`. The mantissa is at most `2 ^ 53`, and less than
`2 ^ 52` only for the least unit. -/
def ofScaled (negative : Bool) (mantissa : Nat) (unit : Int) : Binary64 :=
  ofRank negative ((unit - leastUnit).toNat * rowLength + mantissa)

/-- The double nearest to a fraction. -/
def ofFraction (negative : Bool) (q : Fraction) : Binary64 :=
  if q.num = 0 then zero negative
  else
    let unit := max (q.floorLog2 - 52) leastUnit
    ofScaled negative (q.unscaled 2 unit).rounded unit

/-- The double nearest to a decimal number. Numbers beyond the range of doubles by their
count of digits alone are decided without being computed. -/
def nearest (negative : Bool) (d : Decimal) : Binary64 :=
  if d.digits = 0 then zero negative
  else
    let magnitude : Int := (Nat.toDigits 10 d.digits).length + d.exponent
    if 310 < magnitude then .infinite negative
    else if magnitude < -330 then zero negative
    else ofFraction negative (.scaled 10 d.digits d.exponent)

/-- The whole number that a double is equal to, if there is one. -/
def toInt? : Binary64 → Option Int
  | .finite negative rank =>
    let q := Fraction.scaled 2 (mantissa rank) (unit rank)
    let n : Int := (q.num / q.den : Nat)
    if q.num % q.den = 0 then some (if negative then -n else n) else none
  | .infinite _ => none
  | .nan => none

/-- One. -/
def one : Binary64 := nearest false ⟨1, 0⟩

example : mantissa 1 = 1 ∧ unit 1 = -1074 := by decide

example : mantissa (1023 * rowLength) = rowLength ∧ unit (1023 * rowLength) = -52 := by decide

example : one = ofRank false (1023 * rowLength) := by decide +kernel

example : toInt? (nearest true ⟨3, 2⟩) = some (-300) := by decide +kernel

example : toInt? (nearest false ⟨25, -1⟩) = none := by decide +kernel

example : nearest false ⟨1, 400⟩ = .infinite false := by decide +kernel

example : nearest true ⟨5, -324⟩ = ofRank true 1 := by decide +kernel

example : nearest false ⟨17976931348623157, 292⟩ = ofRank false 9218868437227405311 := by
  decide +kernel

end Binary64

end LinkedTables
