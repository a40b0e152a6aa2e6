import LinkedTables.Number.Shortest
import Mathlib.Data.Int.Log
import Mathlib.Data.Rat.Floor
import Mathlib.Tactic

set_option autoImplicit false

/-! # Rounding to doubles

Rounding depends on the number alone, not on how it is given: two fractions of the same
value round to the same double, and so do two decimal numbers. A number that is the exact
value of a finite double rounds to that double.
-/

namespace LinkedTables

/-! ## Values of fractions -/

namespace Fraction

/-- The number that a fraction stands for. -/
def value (q : Fraction) : ℚ := q.num / q.den

theorem value_eq_iff {q r : Fraction} (hq : 0 < q.den) (hr : 0 < r.den) :
    q.value = r.value ↔ q.num * r.den = r.num * q.den := by
  rw [value, value, div_eq_div_iff (by positivity) (by positivity)]
  exact_mod_cast Iff.rfl

theorem value_pos {q : Fraction} (hn : 0 < q.num) (hd : 0 < q.den) : 0 < q.value := by
  rw [value]
  positivity

theorem den_scaled_pos {base : Nat} (hb : 0 < base) (n : Nat) (e : Int) :
    0 < (scaled base n e).den := by
  cases e with
  | ofNat e => exact Nat.one_pos
  | negSucc e => exact Nat.pow_pos hb

theorem value_scaled {base : Nat} (n : Nat) (e : Int) :
    (scaled base n e).value = n * (base : ℚ) ^ e := by
  cases e with
  | ofNat e => simp [value, scaled]
  | negSucc e => simp [value, scaled, zpow_negSucc, div_eq_mul_inv]

theorem den_unscaled_pos {base : Nat} (hb : 0 < base) {q : Fraction} (hq : 0 < q.den) (e : Int) :
    0 < (q.unscaled base e).den := by
  cases e with
  | ofNat e => exact Nat.mul_pos hq (Nat.pow_pos hb)
  | negSucc e => exact hq

theorem value_unscaled {base : Nat} (q : Fraction) (e : Int) :
    (q.unscaled base e).value = q.value / (base : ℚ) ^ e := by
  cases e with
  | ofNat e => simp [value, unscaled, div_div]
  | negSucc e =>
      simp [value, unscaled, zpow_negSucc, div_eq_mul_inv]
      ring

/-! ## Whole numbers -/

theorem rounded_mul (n d : Nat) {c : Nat} (hc : 0 < c) :
    rounded ⟨n * c, d * c⟩ = rounded ⟨n, d⟩ := by
  have hlt (a b : Nat) : 2 * (a * c) < b * c ↔ 2 * a < b := by
    rw [← Nat.mul_assoc, Nat.mul_lt_mul_right hc]
  have hgt (a b : Nat) : b * c < 2 * (a * c) ↔ b < 2 * a := by
    rw [← Nat.mul_assoc, Nat.mul_lt_mul_right hc]
  simp only [rounded, Nat.mul_div_mul_right _ _ hc, Nat.mul_mod_mul_right, hlt, hgt]

theorem rounded_congr {q r : Fraction} (hq : 0 < q.den) (hr : 0 < r.den)
    (h : q.value = r.value) : q.rounded = r.rounded := by
  rw [value_eq_iff hq hr] at h
  calc q.rounded = rounded ⟨q.num * r.den, q.den * r.den⟩ := (rounded_mul _ _ hr).symm
    _ = rounded ⟨r.num * q.den, r.den * q.den⟩ := by rw [h, Nat.mul_comm q.den]
    _ = r.rounded := rounded_mul _ _ hq

theorem rounded_of_value {q : Fraction} (hq : 0 < q.den) {n : Nat} (h : q.value = n) :
    q.rounded = n := by
  have hone : q.value = (⟨n, 1⟩ : Fraction).value := by
    rw [h, value, Nat.cast_one, div_one]
  rw [rounded_congr hq Nat.one_pos hone]
  simp [rounded, Nat.mod_one]

/-! ## Binary exponents -/

/-- The difference of the binary logarithms of the numerator and the denominator is the
binary logarithm of the fraction, or one more. -/
theorem log_value_bounds {q : Fraction} (hn : 0 < q.num) (hd : 0 < q.den) :
    Int.log 2 q.value ≤ (q.num.log2 : Int) - q.den.log2 ∧
      (q.num.log2 : Int) - q.den.log2 ≤ Int.log 2 q.value + 1 := by
  have hv := value_pos hn hd
  have hd0 : (0 : ℚ) < q.den := by exact_mod_cast hd
  have hn1 : (2 : ℚ) ^ q.num.log2 ≤ q.num := by exact_mod_cast Nat.log2_self_le hn.ne'
  have hn2 : (q.num : ℚ) < 2 ^ (q.num.log2 + 1) := by exact_mod_cast Nat.lt_log2_self
  have hd1 : (2 : ℚ) ^ q.den.log2 ≤ q.den := by exact_mod_cast Nat.log2_self_le hd.ne'
  have hd2 : (q.den : ℚ) < 2 ^ (q.den.log2 + 1) := by exact_mod_cast Nat.lt_log2_self
  have hbelow : q.value < (2 : ℚ) ^ ((q.num.log2 : Int) - q.den.log2 + 1) := by
    rw [value, div_lt_iff₀ hd0]
    calc (q.num : ℚ) < 2 ^ (q.num.log2 + 1) := hn2
      _ = (2 : ℚ) ^ ((q.num.log2 : Int) - q.den.log2 + 1) * 2 ^ q.den.log2 := by
          rw [← zpow_natCast, ← zpow_natCast, ← zpow_add₀ two_ne_zero]
          congr 1
          push_cast
          ring
      _ ≤ (2 : ℚ) ^ ((q.num.log2 : Int) - q.den.log2 + 1) * q.den := by gcongr
  have habove : (2 : ℚ) ^ ((q.num.log2 : Int) - q.den.log2 - 1) ≤ q.value := by
    rw [value, le_div_iff₀ hd0]
    calc (2 : ℚ) ^ ((q.num.log2 : Int) - q.den.log2 - 1) * q.den
        ≤ (2 : ℚ) ^ ((q.num.log2 : Int) - q.den.log2 - 1) * 2 ^ (q.den.log2 + 1) := by gcongr
      _ = 2 ^ q.num.log2 := by
          rw [← zpow_natCast, ← zpow_natCast, ← zpow_add₀ two_ne_zero]
          congr 1
          push_cast
          ring
      _ ≤ q.num := hn1
  have hlt := (Int.lt_zpow_iff_log_lt one_lt_two hv).mp hbelow
  have hle := (Int.zpow_le_iff_le_log one_lt_two hv).mp habove
  omega

theorem floorLog2_eq_log {q : Fraction} (hn : 0 < q.num) (hd : 0 < q.den) :
    q.floorLog2 = Int.log 2 q.value := by
  obtain ⟨hle, hge⟩ := log_value_bounds hn hd
  -- What is tested is whether the fraction reaches `2 ^ g`.
  have hp (g : Int) : (scaled 2 1 g).num * q.den ≤ q.num * (scaled 2 1 g).den ↔
      g ≤ Int.log 2 q.value := by
    have hs : 0 < (scaled 2 1 g).den := den_scaled_pos two_pos 1 g
    have hv : (2 : ℚ) ^ g = (scaled 2 1 g).num / (scaled 2 1 g).den := by
      rw [← value, value_scaled, Nat.cast_one, one_mul, Nat.cast_ofNat]
    rw [← Int.zpow_le_iff_le_log one_lt_two (value_pos hn hd)]
    push_cast
    rw [hv, value, div_le_div_iff₀ (by positivity) (by positivity)]
    exact_mod_cast Iff.rfl
  simp only [floorLog2, hp]
  split <;> omega

end Fraction

namespace Binary64

/-! ## Rounding fractions -/

/-- Fractions of the same value round to the same double. -/
theorem ofFraction_congr (negative : Bool) {q r : Fraction} (hq : 0 < q.den) (hr : 0 < r.den)
    (h : q.value = r.value) : ofFraction negative q = ofFraction negative r := by
  have hzero : q.num = 0 ↔ r.num = 0 := by
    rw [Fraction.value_eq_iff hq hr] at h
    constructor <;> intro h0
    · simpa [h0, hq.ne'] using h.symm
    · simpa [h0, hr.ne'] using h
  by_cases hn : q.num = 0
  · rw [ofFraction, ofFraction, if_pos hn, if_pos (hzero.mp hn)]
  · have hm := mt hzero.mpr hn
    have hu (e : Int) : (q.unscaled 2 e).rounded = (r.unscaled 2 e).rounded :=
      Fraction.rounded_congr (Fraction.den_unscaled_pos two_pos hq e)
        (Fraction.den_unscaled_pos two_pos hr e) (by
          rw [Fraction.value_unscaled, Fraction.value_unscaled, h])
    simp only [ofFraction, if_neg hn, if_neg hm, hu,
      Fraction.floorLog2_eq_log (Nat.pos_of_ne_zero hn) hq,
      Fraction.floorLog2_eq_log (Nat.pos_of_ne_zero hm) hr, h]

/-- The mantissa and the unit of a double other than zero: the mantissa is less than
`2 ^ 53`, and at least `2 ^ 52` unless the unit is the least one. -/
theorem mantissa_unit_bounds {rank : Nat} (h : 0 < rank) :
    0 < mantissa rank ∧ mantissa rank < 2 ^ 53 ∧ leastUnit ≤ unit rank ∧
      (unit rank = leastUnit ∨ 2 ^ 52 ≤ mantissa rank) ∧
      (unit rank - leastUnit).toNat * rowLength + mantissa rank = rank := by
  have hr : rank % rowLength < rowLength := Nat.mod_lt _ (by decide)
  have hm := Nat.div_add_mod rank rowLength
  simp only [mantissa, unit]
  by_cases hrow : rank < rowLength
  · simp only [if_pos hrow]
    refine ⟨h, ?_, le_refl _, Or.inl trivial, by simp⟩
    simp only [rowLength] at hrow
    omega
  · have hd : 1 ≤ rank / rowLength := by
      rw [Nat.le_div_iff_mul_le (by decide)]
      omega
    simp only [if_neg hrow]
    simp only [rowLength, leastUnit] at *
    omega

theorem value_magnitude (rank : Nat) :
    (magnitude rank).value = mantissa rank * (2 : ℚ) ^ unit rank := by
  rw [magnitude, Fraction.value_scaled]
  push_cast
  rfl

theorem den_magnitude_pos (rank : Nat) : 0 < (magnitude rank).den :=
  Fraction.den_scaled_pos two_pos _ _

theorem value_magnitude_pos {rank : Nat} (h : 0 < rank) : 0 < (magnitude rank).value := by
  obtain ⟨hpos, _⟩ := mantissa_unit_bounds h
  rw [value_magnitude]
  positivity

/-- The exact value of a finite double rounds to that double. -/
theorem ofFraction_magnitude (negative : Bool) {rank : Nat} (h : 0 < rank) :
    ofFraction negative (magnitude rank) = ofRank negative rank := by
  obtain ⟨hpos, hlt, hunit, hfull, hrank⟩ := mantissa_unit_bounds h
  have hd := den_magnitude_pos rank
  have hv := value_magnitude rank
  have hvpos := value_magnitude_pos h
  have hn : (magnitude rank).num ≠ 0 := by
    intro h0
    rw [Fraction.value, h0, Nat.cast_zero, zero_div] at hvpos
    exact lt_irrefl _ hvpos
  -- The exponent of the first digit lies 52 above the unit, or below that for the least unit.
  have hlog : max (Int.log 2 (magnitude rank).value - 52) leastUnit = unit rank := by
    have hupper : Int.log 2 (magnitude rank).value < unit rank + 53 := by
      rw [← Int.lt_zpow_iff_log_lt one_lt_two hvpos, hv, add_comm]
      push_cast
      rw [zpow_add₀ two_ne_zero]
      gcongr
      exact_mod_cast hlt
    rcases hfull with heq | hge
    · omega
    · have hlower : unit rank + 52 ≤ Int.log 2 (magnitude rank).value := by
        rw [← Int.zpow_le_iff_le_log one_lt_two hvpos, hv, add_comm]
        push_cast
        rw [zpow_add₀ two_ne_zero]
        gcongr
        exact_mod_cast hge
      omega
  rw [ofFraction, if_neg hn, Fraction.floorLog2_eq_log (Nat.pos_of_ne_zero hn) hd, hlog]
  have hround : ((magnitude rank).unscaled 2 (unit rank)).rounded = mantissa rank := by
    refine Fraction.rounded_of_value (Fraction.den_unscaled_pos two_pos hd _) ?_
    rw [Fraction.value_unscaled, hv]
    push_cast
    exact mul_div_cancel_right₀ _ (zpow_ne_zero _ two_ne_zero)
  simp only [hround, ofScaled, hrank]

/-! ## Rounding decimal numbers -/

end Binary64

/-- The number that a decimal number stands for. -/
def Decimal.value (d : Decimal) : ℚ := d.digits * (10 : ℚ) ^ d.exponent

/-- A number lies between the powers of ten that its count of digits tells. -/
theorem pow_length_toDigits {n : Nat} (h : 0 < n) :
    ∃ k, (Nat.toDigits 10 n).length = k + 1 ∧ 10 ^ k ≤ n ∧ n < 10 ^ (k + 1) := by
  obtain ⟨k, hk⟩ : ∃ k, (Nat.toDigits 10 n).length = k + 1 :=
    Nat.exists_eq_succ_of_ne_zero (by simp)
  refine ⟨k, hk, ?_, (Nat.length_toDigits_le_iff (by decide) k.succ_pos).mp hk.le⟩
  by_contra hlt
  rcases Nat.eq_zero_or_pos k with rfl | hpos
  · omega
  · have := (Nat.length_toDigits_le_iff (by decide) hpos).mpr (not_le.mp hlt)
    omega

/-- The count of digits and the exponent together tell the decimal logarithm. -/
theorem Decimal.length_add_exponent {d : Decimal} (h : d.digits ≠ 0) :
    ((Nat.toDigits 10 d.digits).length : Int) + d.exponent = Int.log 10 d.value + 1 := by
  have hpos : 0 < d.value := by
    rw [value]
    positivity
  obtain ⟨k, hk, hge, hlt⟩ := pow_length_toDigits (Nat.pos_of_ne_zero h)
  have hupper : Int.log 10 d.value < d.exponent + (k + 1 : Nat) := by
    rw [← Int.lt_zpow_iff_log_lt (by norm_num) hpos, value, add_comm]
    push_cast
    rw [zpow_add₀ (by norm_num)]
    gcongr
    exact_mod_cast hlt
  have hlower : d.exponent + (k : Nat) ≤ Int.log 10 d.value := by
    rw [← Int.zpow_le_iff_le_log (by norm_num) hpos, value, add_comm]
    push_cast
    rw [zpow_add₀ (by norm_num)]
    gcongr
    exact_mod_cast hge
  omega

namespace Binary64

/-- Decimal numbers of the same value round to the same double. -/
theorem nearest_congr (negative : Bool) {d d' : Decimal} (h : d.value = d'.value) :
    nearest negative d = nearest negative d' := by
  have hzero (d : Decimal) : d.digits = 0 ↔ d.value = 0 := by
    simp [Decimal.value, zpow_ne_zero]
  by_cases h0 : d.digits = 0
  · rw [nearest, nearest, if_pos h0, if_pos ((hzero d').mpr (h ▸ (hzero d).mp h0))]
  · have h0' : d'.digits ≠ 0 := fun h' => h0 ((hzero d).mpr (h.trans ((hzero d').mp h')))
    have hd (d : Decimal) : 0 < (Fraction.scaled 10 d.digits d.exponent).den :=
      Fraction.den_scaled_pos (by decide) _ _
    have hf := ofFraction_congr negative (hd d) (hd d') (by
      rw [Fraction.value_scaled, Fraction.value_scaled]
      exact h)
    simp only [nearest, if_neg h0, if_neg h0', Decimal.length_add_exponent h0,
      Decimal.length_add_exponent h0', h, hf]

theorem two_pow_le_ten_pow : (2 : ℚ) ^ 1074 ≤ 10 ^ 330 ∧ (2 : ℚ) ^ 1024 < 10 ^ 310 := by
  have hle : (2 : Nat) ^ 1074 ≤ 10 ^ 330 := by decide +kernel
  have hlt : (2 : Nat) ^ 1024 < 10 ^ 310 := by decide +kernel
  rw [← Nat.cast_le (α := ℚ), Nat.cast_pow, Nat.cast_pow] at hle
  rw [← Nat.cast_lt (α := ℚ), Nat.cast_pow, Nat.cast_pow] at hlt
  exact ⟨hle, hlt⟩

/-- The finite doubles lie well within the range outside of which decimal numbers are
decided by their count of digits. -/
theorem log_magnitude_bounds {rank : Nat} (h : 0 < rank) (hlt : rank < 9218868437227405312) :
    -330 ≤ Int.log 10 (magnitude rank).value ∧ Int.log 10 (magnitude rank).value < 310 := by
  obtain ⟨hpos, hm, hunit, hfull, hrank⟩ := mantissa_unit_bounds h
  have hv := value_magnitude_pos h
  have htop : unit rank ≤ 971 := by
    simp only [rowLength, leastUnit] at *
    omega
  rw [← Int.zpow_le_iff_le_log (by norm_num) hv, ← Int.lt_zpow_iff_log_lt (by norm_num) hv,
    value_magnitude]
  constructor
  · calc ((10 : Nat) : ℚ) ^ (-330 : Int) = ((10 : ℚ) ^ 330)⁻¹ := by
          rw [zpow_neg, zpow_ofNat, Nat.cast_ofNat]
      _ ≤ ((2 : ℚ) ^ 1074)⁻¹ := by
          gcongr
          exact two_pow_le_ten_pow.1
      _ = 1 * (2 : ℚ) ^ leastUnit := by
          rw [leastUnit, zpow_neg, zpow_ofNat, one_mul]
      _ ≤ mantissa rank * (2 : ℚ) ^ unit rank := by
          gcongr
          · exact_mod_cast hpos
          · exact one_le_two
  · calc (mantissa rank : ℚ) * (2 : ℚ) ^ unit rank ≤ 2 ^ 53 * (2 : ℚ) ^ (971 : Int) := by
          gcongr
          · exact_mod_cast hm.le
          · exact one_le_two
      _ = 2 ^ 1024 := by rw [zpow_ofNat, ← pow_add]
      _ < 10 ^ 310 := two_pow_le_ten_pow.2
      _ = ((10 : Nat) : ℚ) ^ (310 : Int) := by rw [zpow_ofNat, Nat.cast_ofNat]

/-- A decimal number with the exact value of a finite double rounds to that double. -/
theorem nearest_of_value (negative : Bool) {d : Decimal} {rank : Nat} (hr : 0 < rank)
    (hlt : rank < 9218868437227405312) (h : d.value = (magnitude rank).value) :
    nearest negative d = ofRank negative rank := by
  obtain ⟨hlower, hupper⟩ := log_magnitude_bounds hr hlt
  rw [← h] at hlower hupper
  have h0 : d.digits ≠ 0 := by
    intro h0
    rw [Decimal.value, h0, Nat.cast_zero, zero_mul] at h
    exact (value_magnitude_pos hr).ne h
  -- The number is neither too small nor too great for its digits to be looked at.
  rw [nearest, if_neg h0]
  simp only [Decimal.length_add_exponent h0]
  rw [if_neg (by omega), if_neg (by omega), ← ofFraction_magnitude negative hr]
  refine ofFraction_congr negative (Fraction.den_scaled_pos (by decide) _ _)
    (den_magnitude_pos rank) ?_
  rw [Fraction.value_scaled, ← h, Decimal.value]
  rfl

end Binary64

end LinkedTables
