import LinkedTables.Proofs.Number.Rounding

set_option autoImplicit false

/-! # Shortest decimals read back

The shortest decimal of a finite double rounds to that double, whatever the sign. What the
search finds reads back because that was tried, and the exact decimal at the end of the
search has the value of the double.
-/

namespace LinkedTables.Binary64

/-! ## Signs -/

/-- A double with another sign. -/
def withSign (negative : Bool) : Binary64 → Binary64
  | .finite _ rank => .finite negative rank
  | .infinite _ => .infinite negative
  | .nan => .nan

theorem ofRank_withSign (negative : Bool) (rank : Nat) :
    ofRank negative rank = (ofRank false rank).withSign negative := by
  rw [ofRank, ofRank]
  split <;> rfl

/-- The sign has no part in rounding. -/
theorem nearest_withSign (negative : Bool) (d : Decimal) :
    nearest negative d = (nearest false d).withSign negative := by
  have hf (q : Fraction) : ofFraction negative q = (ofFraction false q).withSign negative := by
    rw [ofFraction, ofFraction]
    split
    · rfl
    · exact ofRank_withSign negative _
  simp only [nearest]
  split
  · rfl
  · split
    · rfl
    · split
      · rfl
      · exact hf _

/-! ## The search -/

theorem value_exactDecimal (n : Nat) (e : Int) :
    (exactDecimal n e).value = n * (2 : ℚ) ^ e := by
  cases e with
  | ofNat e => simp [exactDecimal, Decimal.value]
  | negSucc e =>
      simp only [exactDecimal, Decimal.value, Nat.pow_eq, Nat.cast_mul, Nat.cast_pow,
        Nat.cast_ofNat, zpow_negSucc]
      rw [mul_assoc, ← inv_pow, ← inv_pow, ← mul_pow]
      norm_num

theorem nearest_exactDecimal {rank : Nat} (h : 0 < rank) (hlt : rank < 9218868437227405312) :
    nearest false (exactDecimal (mantissa rank) (unit rank)) = .finite false ⟨rank, hlt⟩ := by
  rw [nearest_of_value false h hlt (by rw [value_exactDecimal, value_magnitude]), ofRank,
    dif_pos hlt]

/-- **The shortest decimal reads back** as the double that it was found for. -/
theorem nearest_shortest (negative : Bool) (rank : Fin 9218868437227405312) :
    nearest negative (shortest rank) = .finite negative rank := by
  have hback : nearest false (shortest rank) = .finite false rank := by
    rw [shortest]
    split
    · rename_i h0
      obtain rfl : rank = ⟨0, by decide⟩ := Fin.ext h0
      rfl
    · rename_i h0
      -- What was found was tried; where nothing was found, the decimal is exact.
      cases hs : (List.range unitCount).findSome? _ with
      | none => exact nearest_exactDecimal (Nat.pos_of_ne_zero h0) rank.isLt
      | some d =>
          obtain ⟨i, _, hi⟩ := List.exists_of_findSome?_eq_some hs
          have hd := List.find?_some hi
          exact beq_iff_eq.mp hd
  rw [nearest_withSign, hback]
  rfl

end LinkedTables.Binary64
