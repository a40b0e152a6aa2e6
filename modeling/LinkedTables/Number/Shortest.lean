import LinkedTables.Number.Binary64

set_option autoImplicit false

/-! # The shortest decimal of a double

Among the decimal numbers that read back as a given double there is one with the fewest
digits, and of several such ones a nearest to the double; that is the number to print.

It is found by trying the powers of ten downwards as units. For each unit the two
multiples beside the double are the only candidates that need to be looked at: if some
multiple reads back, so does one of these. The first unit with a candidate that reads back
gives the fewest digits. The exact decimal expansion, which every double has, stands at the
end of the search.
-/

namespace LinkedTables.Binary64

/-- The exact value of a finite double without its sign, as a fraction. -/
def magnitude (rank : Nat) : Fraction := .scaled 2 (mantissa rank) (unit rank)

/-- The two multiples of `10 ^ unit` beside a fraction, the nearer first; of two equally
near ones the even one first. -/
def neighbours (q : Fraction) (unit : Int) : List Decimal :=
  let inUnits := q.unscaled 10 unit
  let below := inUnits.num / inUnits.den
  if inUnits.rounded = below then [⟨below, unit⟩, ⟨below + 1, unit⟩]
  else [⟨below + 1, unit⟩, ⟨below, unit⟩]

/-- The greatest power of ten that is tried as a unit. -/
def greatestUnit : Int := 308

/-- The number of units tried, down to the digits of the smallest double. -/
def unitCount : Nat := 633

/-- The decimal number with all the digits of `n * 2 ^ e`. -/
def exactDecimal (n : Nat) : Int → Decimal
  | .ofNat e => ⟨n * Nat.pow 2 e, 0⟩
  | .negSucc e => ⟨n * Nat.pow 5 (e + 1), .negSucc e⟩

/-- Whether a decimal number reads back as the finite double with a given rank. -/
def readsBack (rank : Fin 9218868437227405312) (d : Decimal) : Bool :=
  nearest false d == .finite false rank

/-- The shortest decimal number that reads back as the finite double with a given rank. -/
def shortest (rank : Fin 9218868437227405312) : Decimal :=
  if rank.val = 0 then ⟨0, 0⟩
  else
    ((List.range unitCount).findSome? fun (i : Nat) =>
      (neighbours (magnitude rank) (greatestUnit - i)).find? (readsBack rank)).getD
        (exactDecimal (mantissa rank) (unit rank))

example : shortest ⟨9218868437227405311, by decide⟩ = ⟨17976931348623157, 292⟩ := by
  decide +kernel

end LinkedTables.Binary64
