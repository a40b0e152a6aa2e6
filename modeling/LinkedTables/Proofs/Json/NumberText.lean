import LinkedTables.Json.Printer
import LinkedTables.Proofs.Json.Grammar
import LinkedTables.Proofs.Number.Shortest
import LinkedTables.Proofs.Text.Digits

set_option autoImplicit false

/-! # Written numbers

The text of a decimal number in JSON spells the double nearest to it, in each of the forms
in which it may be written; hence the text of a finite double spells that double.
-/

namespace LinkedTables.Json

open Binary64 (digitsOf nearest ofParts)
open Text (natDigits)

theorem digits_natDigits (n : Nat) : Digits (natDigits n) :=
  ⟨Text.natDigits_ne_nil n, fun _ hd => Text.isDigit_of_mem_natDigits hd⟩

theorem whole_natDigits {n : Nat} (h : (natDigits n).length ≤ mostDigits) :
    Whole (natDigits n) := by
  rcases Nat.eq_zero_or_pos n with rfl | hpos
  · exact Or.inl rfl
  · exact Or.inr ⟨digits_natDigits n, Text.head?_natDigits_ne hpos, h⟩

theorem digitsOf_zero : digitsOf ['0'] = 0 := rfl

/-! ## Numbers from their parts -/

theorem number_part (negative : Bool) {whole part : List Char} (hw : Whole whole)
    (hp : Digits part) :
    Number negative (whole ++ '.' :: part)
      (.float (nearest negative ⟨digitsOf (whole ++ part), -part.length⟩)) := by
  have h : Number negative _ _ := .double hw (.present hp) .absent (Or.inl (by simp))
  simpa [ofParts] using h

theorem number_power (negative : Bool) {whole sign ds : List Char} {minus : Bool}
    (hw : Whole whole) (hs : Sign sign minus) (hd : Digits ds) :
    Number negative (whole ++ 'e' :: (sign ++ ds))
      (.float (nearest negative ⟨digitsOf whole, signed minus (digitsOf ds)⟩)) := by
  have h : Number negative _ _ :=
    .double hw .absent (.present (Or.inl rfl) hs hd) (Or.inr (by simp))
  simpa [ofParts] using h

theorem number_part_power (negative : Bool) {whole part sign ds : List Char} {minus : Bool}
    (hw : Whole whole) (hp : Digits part) (hs : Sign sign minus) (hd : Digits ds) :
    Number negative (whole ++ '.' :: (part ++ 'e' :: (sign ++ ds)))
      (.float (nearest negative
        ⟨digitsOf (whole ++ part), signed minus (digitsOf ds) - part.length⟩)) := by
  have h : Number negative _ _ :=
    .double hw (.present hp) (.present (Or.inl rfl) hs hd) (Or.inr (by simp))
  simpa [ofParts] using h

/-! ## Positional texts -/

/-- Digits after zeros, behind the point. -/
theorem number_below_one (negative : Bool) (m n : Nat) :
    Number negative (NumberLayout.positional (natDigits m) (.negSucc n))
      (.float (nearest negative ⟨m, -(n + (natDigits m).length : Nat)⟩)) := by
  have hp : Digits (List.replicate n '0' ++ natDigits m) := by
    refine ⟨by simp [Text.natDigits_ne_nil], fun d hm => ?_⟩
    rcases List.mem_append.mp hm with hz | hd
    · rw [List.eq_of_mem_replicate hz]; rfl
    · exact Text.isDigit_of_mem_natDigits hd
  have h := number_part negative (Or.inl rfl) hp
  have hv : digitsOf (['0'] ++ (List.replicate n '0' ++ natDigits m)) = m := by
    rw [Text.digitsOf_append, Text.digitsOf_append, Text.digitsOf_replicate_zero,
      Text.digitsOf_natDigits, digitsOf_zero]
    omega
  rw [hv] at h
  simpa [NumberLayout.positional] using h

/-- All digits before the point, and zeros after them. -/
theorem number_whole (negative : Bool) {m : Nat} (h0 : 0 < m) (k : Nat)
    (hk : (natDigits m).length + k ≤ mostDigits) :
    Number negative (natDigits m ++ List.replicate k '0' ++ ['.', '0'])
      (.float (nearest negative ⟨m, k⟩)) := by
  have hw : Whole (natDigits m ++ List.replicate k '0') := by
    refine Or.inr ⟨⟨by simp [Text.natDigits_ne_nil], fun d hm => ?_⟩, ?_, by simpa using hk⟩
    · rcases List.mem_append.mp hm with hd | hz
      · exact Text.isDigit_of_mem_natDigits hd
      · rw [List.eq_of_mem_replicate hz]; rfl
    · rw [List.head?_append_of_ne_nil _ (Text.natDigits_ne_nil m)]
      exact Text.head?_natDigits_ne h0
  have h := number_part negative hw (show Digits ['0'] from ⟨by simp, by simp⟩)
  have hv : (⟨digitsOf (natDigits m ++ List.replicate k '0' ++ ['0']), -1⟩ : Decimal).value =
      (⟨m, k⟩ : Decimal).value := by
    rw [Decimal.value, Decimal.value, Text.digitsOf_append, Text.digitsOf_append,
      Text.digitsOf_replicate_zero, Text.digitsOf_natDigits, digitsOf_zero]
    simp only [List.length_singleton, List.length_replicate, pow_one, Nat.add_zero,
      zpow_natCast, zpow_neg_one]
    push_cast
    ring
  rw [List.length_singleton, Nat.cast_one, Binary64.nearest_congr negative hv] at h
  exact h

/-- A point among the digits. -/
theorem number_split (negative : Bool) {m : Nat} (h0 : 0 < m) {n : Nat} (hn : n + 1 ≤ mostDigits)
    (hlt : n + 1 < (natDigits m).length) :
    Number negative ((natDigits m).take (n + 1) ++ '.' :: (natDigits m).drop (n + 1))
      (.float (nearest negative ⟨m, (n : Int) + 1 - (natDigits m).length⟩)) := by
  have hw : Whole ((natDigits m).take (n + 1)) := by
    refine Or.inr ⟨⟨by simp [Text.natDigits_ne_nil], fun d hm => ?_⟩, ?_, ?_⟩
    · exact Text.isDigit_of_mem_natDigits (List.mem_of_mem_take hm)
    · rw [List.head?_take, if_neg (by omega)]
      exact Text.head?_natDigits_ne h0
    · rw [List.length_take]
      omega
  have hp : Digits ((natDigits m).drop (n + 1)) :=
    ⟨by simp; omega, fun d hm => Text.isDigit_of_mem_natDigits (List.mem_of_mem_drop hm)⟩
  have h := number_part negative hw hp
  rw [List.take_append_drop, Text.digitsOf_natDigits, List.length_drop] at h
  have he : -(((natDigits m).length - (n + 1) : Nat) : Int) =
      (n : Int) + 1 - (natDigits m).length := by omega
  rw [he] at h
  exact h

theorem number_positional (negative : Bool) {m : Nat} (h0 : 0 < m) {e place : Int}
    (hplace : place = (natDigits m).length + e - 1) (hle : place < mostDigits) :
    Number negative (NumberLayout.positional (natDigits m) place)
      (.float (nearest negative ⟨m, e⟩)) := by
  -- The place of the first digit is behind the point, or before it with the last digit
  -- before the point or behind it.
  cases place with
  | negSucc n =>
      have he : e = -(n + (natDigits m).length : Nat) := by omega
      rw [he]
      exact number_below_one negative m n
  | ofNat n =>
      rw [Int.ofNat_eq_natCast] at hplace hle
      have hn : n + 1 ≤ mostDigits := by omega
      rw [NumberLayout.positional]
      split
      · rename_i hd
        rw [List.drop_eq_nil_iff] at hd
        have he : e = ((n + 1 - (natDigits m).length : Nat) : Int) := by omega
        rw [List.take_of_length_le hd, he]
        exact number_whole negative h0 _ (by omega)
      · rename_i hd
        have hlt : n + 1 < (natDigits m).length := by
          rw [← not_le, ← List.drop_eq_nil_iff]
          exact hd
        have he : e = (n : Int) + 1 - (natDigits m).length := by omega
        have hz : n + 1 - (natDigits m).length = 0 := by omega
        rw [hz, List.replicate_zero, List.append_nil, he]
        exact number_split negative h0 hn hlt

/-! ## Texts with a power -/

theorem paddedDigits_one (n : Nat) : Text.paddedDigits 1 n = natDigits n := by
  have hlen : 0 < (natDigits n).length := List.length_pos_iff.mpr (Text.natDigits_ne_nil n)
  rw [Text.paddedDigits, Nat.sub_eq_zero_of_le hlen, List.replicate_zero, List.nil_append]

/-- The power of ten in a written number. -/
theorem exists_sign_power (place : Int) :
    ∃ sign minus, Sign sign minus ∧ signed minus (digitsOf (natDigits place.natAbs)) = place ∧
      (if place < 0 then '-' else '+') :: natDigits place.natAbs =
        sign ++ natDigits place.natAbs := by
  rw [Text.digitsOf_natDigits]
  by_cases h : place < 0
  · refine ⟨['-'], true, .minus, ?_, by rw [if_pos h]; rfl⟩
    simp only [signed, if_true]
    omega
  · refine ⟨['+'], false, .plus, ?_, by rw [if_neg h]; rfl⟩
    simp only [signed, Bool.false_eq_true, if_false]
    omega

theorem number_scientific (negative : Bool) {m : Nat} (h0 : 0 < m) {e place : Int}
    (hplace : place = (natDigits m).length + e - 1) :
    Number negative (NumberLayout.json.scientific (natDigits m) place)
      (.float (nearest negative ⟨m, e⟩)) := by
  obtain ⟨sign, minus, hs, hsigned, htext⟩ := exists_sign_power place
  have hp := digits_natDigits place.natAbs
  have hm := Text.digitsOf_natDigits m
  have hdig := (digits_natDigits m).2
  have hhead := Text.head?_natDigits_ne h0
  rw [NumberLayout.scientific.eq_def, show NumberLayout.json.powerDigits = 1 from rfl,
    paddedDigits_one, htext]
  cases hds : natDigits m with
  | nil => exact absurd hds (Text.natDigits_ne_nil m)
  | cons c cs =>
      rw [hds] at hplace hm hdig hhead
      have hw : Whole [c] :=
        Or.inr ⟨⟨by simp, by simp [hdig c]⟩, by simpa using hhead, by simp [mostDigits]⟩
      cases cs with
      | nil =>
          have h := number_power negative hw hs hp
          obtain rfl : place = e := by simpa using hplace
          rw [hsigned, hm] at h
          exact h
      | cons c' cs =>
          have hpart : Digits (c' :: cs) := ⟨by simp, fun d hd => hdig d (by simp [hd])⟩
          have h := number_part_power negative hw hpart hs hp
          have he : place - ((c' :: cs).length : Int) = e := by
            rw [List.length_cons] at hplace
            omega
          have hm' : digitsOf ([c] ++ c' :: cs) = m := hm
          rw [hsigned, hm', he] at h
          simpa using h

/-! ## Doubles -/

/-- **The text of a decimal number** spells the double nearest to it. -/
theorem number_write (negative : Bool) (d : Decimal) :
    Number negative (NumberLayout.json.write d) (.float (nearest negative d)) := by
  obtain ⟨m, e⟩ := d
  rcases Nat.eq_zero_or_pos m with rfl | hpos
  · have h := number_part negative (Or.inl rfl) (digits_natDigits 0)
    have hz : digitsOf (['0'] ++ natDigits 0) = 0 := rfl
    rw [hz, nearest, if_pos rfl] at h
    have ht : NumberLayout.json.write ⟨0, e⟩ = ['0'] ++ '.' :: natDigits 0 := by
      simp [NumberLayout.write, NumberLayout.json, NumberLayout.positional, natDigits]
    rw [nearest, if_pos rfl, ht]
    exact h
  · rw [NumberLayout.write.eq_def]
    simp only [if_neg hpos.ne']
    split
    · rename_i hp
      refine number_positional negative hpos rfl ?_
      have : NumberLayout.json.greatestPlace = 15 := rfl
      simp only [mostDigits]
      omega
    · exact number_scientific negative hpos rfl

/-- The text of a finite double spells it. -/
theorem atom_finite (negative : Bool) (rank : Fin 9218868437227405312) :
    Atom (floatChars (.finite negative rank)) (.float (.finite negative rank)) := by
  have h := number_write negative (Binary64.shortest rank)
  rw [Binary64.nearest_shortest] at h
  cases negative with
  | false => exact .number h
  | true => exact .negative h

end LinkedTables.Json
