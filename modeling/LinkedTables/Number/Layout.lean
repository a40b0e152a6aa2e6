import LinkedTables.Number.Shortest
import LinkedTables.Text.Digit

set_option autoImplicit false

/-! # Number texts

A double is written by its shortest decimal. The number is written positionally, with a
point and at least one digit on either side of it, when the place of its first digit lies
in a window around the units; otherwise with one digit before the point and a power of ten
after an `e`, whose sign is always written. A `NumberLayout` says where the window is and
how many digits the power has at least.

There are two layouts: one for messages and statements, and one for JSON, where infinities
and not-a-number have no text of their own.

Reading accepts an optional sign, digits with or without a point, and an optional power of
ten.
-/

namespace LinkedTables

/-- The conventions by which a double is written. -/
structure NumberLayout where
  /-- The least place of the first digit that is still written positionally. -/
  leastPlace : Int
  /-- The greatest place of the first digit that is still written positionally. -/
  greatestPlace : Int
  /-- The least number of digits of the power of ten. -/
  powerDigits : Nat
deriving DecidableEq, Repr

namespace NumberLayout

/-- Numbers in messages and statements: positional from `0.0001` to below `10 ^ 16`, and
powers of two digits at least. -/
def plain : NumberLayout := ⟨-4, 15, 2⟩

/-- Numbers in JSON: positional from `0.00001` to below `10 ^ 16`, and powers without
leading zeros. -/
def json : NumberLayout := ⟨-5, 15, 1⟩

/-- A decimal number with the point after `place + 1` of its digits. -/
def positional (digits : List Char) (place : Int) : List Char :=
  match place with
  | .negSucc n => '0' :: '.' :: (List.replicate n '0' ++ digits)
  | .ofNat n =>
    let whole := digits.take (n + 1) ++ List.replicate (n + 1 - digits.length) '0'
    match digits.drop (n + 1) with
    | [] => whole ++ ['.', '0']
    | part => whole ++ '.' :: part

/-- A decimal number with the point after its first digit, and a power of ten. -/
def scientific (layout : NumberLayout) (digits : List Char) (place : Int) : List Char :=
  let mantissa := match digits with
    | [] => []
    | [c] => [c]
    | c :: cs => c :: '.' :: cs
  mantissa ++ 'e' :: (if place < 0 then '-' else '+') ::
    Text.paddedDigits layout.powerDigits place.natAbs

/-- The text of a decimal number, without sign. -/
def write (layout : NumberLayout) (d : Decimal) : List Char :=
  let digits := Text.natDigits d.digits
  -- The place of the first digit: 0 for units, 1 for tens, -1 for tenths.
  let place : Int := if d.digits = 0 then 0 else digits.length + d.exponent - 1
  if layout.leastPlace ≤ place ∧ place ≤ layout.greatestPlace then positional digits place
  else layout.scientific digits place

example : plain.write ⟨1, 0⟩ = ['1', '.', '0'] := by decide

end NumberLayout

namespace Binary64

/-- The text of a double in a layout; only finite doubles have one. -/
def write? (layout : NumberLayout) : Binary64 → Option (List Char)
  | .finite negative rank =>
    let digits := layout.write (shortest rank)
    some (if negative then '-' :: digits else digits)
  | .infinite _ => none
  | .nan => none

/-- The text of a double in messages and statements. -/
def plainText (x : Binary64) : List Char :=
  match x, x.write? .plain with
  | _, some cs => cs
  | .infinite true, none => ['-', 'i', 'n', 'f']
  | .infinite false, none => ['i', 'n', 'f']
  | _, none => ['n', 'a', 'n']

example : plainText (nearest true ⟨1, 308⟩) = ['-', '1', 'e', '+', '3', '0', '8'] := by
  decide +kernel

/-! ## Reading -/

/-- The value of ASCII digits, most significant first. -/
def digitsOf (cs : List Char) : Nat := Nat.ofDigitChars 10 cs 0

/-- The double spelled by whole digits, digits after the point and a power of ten. -/
def ofParts (negative : Bool) (whole part : List Char) (power : Int) : Binary64 :=
  nearest negative ⟨digitsOf (whole ++ part), power - part.length⟩

/-- Reads a power of ten: an optional sign and one digit at least. -/
def power? (cs : List Char) : Option (Int × List Char) :=
  let (negative, digits) := match cs with
    | '-' :: rest => (true, rest)
    | '+' :: rest => (false, rest)
    | rest => (false, rest)
  match digits.takeWhile Char.isDigit with
  | [] => none
  | ds =>
    let n : Int := digitsOf ds
    some (if negative then -n else n, digits.dropWhile Char.isDigit)

/-- Reads the digits of a number without its sign, up to the end. -/
def ofUnsigned? (negative : Bool) (cs : List Char) : Option Binary64 :=
  let whole := cs.takeWhile Char.isDigit
  let rest := cs.dropWhile Char.isDigit
  let (part, rest) := match rest with
    | '.' :: rest => (rest.takeWhile Char.isDigit, rest.dropWhile Char.isDigit)
    | rest => ([], rest)
  if whole.isEmpty ∧ part.isEmpty then none
  else match rest with
    | [] => some (ofParts negative whole part 0)
    | e :: rest =>
      if e = 'e' ∨ e = 'E' then
        match power? rest with
        | some (power, []) => some (ofParts negative whole part power)
        | _ => none
      else none

/-- Reads the text of a double, the special values included. -/
def ofText? (s : String) : Option Binary64 :=
  let (negative, cs) := match s.toList with
    | '-' :: cs => (true, cs)
    | '+' :: cs => (false, cs)
    | cs => (false, cs)
  if cs = ['i', 'n', 'f'] then some (.infinite negative)
  else if cs = ['n', 'a', 'n'] then some .nan
  else ofUnsigned? negative cs

end Binary64

end LinkedTables
