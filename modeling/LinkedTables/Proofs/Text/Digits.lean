import LinkedTables.Number.Layout
import Mathlib.Data.List.Basic
import Mathlib.Data.List.TakeWhile
import Mathlib.Tactic

set_option autoImplicit false

/-! # Digits and the numbers they spell

Two readings of digits are in use: `digitsValue`, which takes digits of every script, and
`Binary64.digitsOf`, which takes ASCII digits. What is written for a number in base ten is
read back by the second, and digits in which no zero leads are written again for the number
that the first reads (`natDigits_digitsValue`).
-/

namespace LinkedTables.Text

/-! ## One digit -/

theorem toNat_of_isDigit {c : Char} (h : c.isDigit = true) : 48 ≤ c.toNat ∧ c.toNat ≤ 57 :=
  Char.isDigit_iff_toNat.mp h

theorem decimalDigit?_of_isDigit {c : Char} (h : c.isDigit = true) :
    decimalDigit? c = some (c.toNat - 48) := by
  obtain ⟨hlo, hhi⟩ := toNat_of_isDigit h
  have hfind : digitRuns.find? (fun r => r.1 ≤ c.toNat && c.toNat ≤ r.2) = some (0x30, 0x39) := by
    rw [digitRuns, List.find?_cons_of_pos]
    simp [hlo, hhi]
  rw [decimalDigit?, hfind, Option.map_some]
  congr 1
  omega

theorem isDecimalDigit_of_isDigit {c : Char} (h : c.isDigit = true) :
    isDecimalDigit c = true := by
  rw [isDecimalDigit, decimalDigit?_of_isDigit h, Option.isSome_some]

theorem decimalDigit?_getD_lt (c : Char) : (decimalDigit? c).getD 0 < 10 := by
  rw [decimalDigit?]
  cases digitRuns.find? fun r => r.1 ≤ c.toNat && c.toNat ≤ r.2 with
  | none => exact Nat.zero_lt_succ 9
  | some run => exact Nat.mod_lt _ (Nat.zero_lt_succ 9)

/-- A digit is written for its own value. -/
theorem digitChar_of_isDigit {c : Char} (h : c.isDigit = true) :
    Nat.digitChar (c.toNat - 48) = c := by
  have hc := toNat_of_isDigit h
  have hv : (Nat.digitChar (c.toNat - 48)).toNat = c.toNat := by
    rw [Nat.toNat_digitChar_of_lt_ten (by omega)]
    omega
  exact Char.toNat_inj.mp hv

/-! ## Reading -/

/-- So many digits spell no larger number than nines would. -/
theorem digitsValue_lt (cs : List Char) : digitsValue cs < 10 ^ cs.length := by
  induction cs using List.reverseRecOn with
  | nil => decide
  | append_singleton cs c ih =>
      have hc := decimalDigit?_getD_lt c
      have hv : digitsValue (cs ++ [c]) = 10 * digitsValue cs + (decimalDigit? c).getD 0 := by
        simp [digitsValue]
      rw [hv, List.length_append, List.length_singleton, pow_succ]
      omega

/-- One more digit on the right. -/
theorem digitsValue_concat {cs : List Char} {c : Char} (h : c.isDigit = true) :
    digitsValue (cs ++ [c]) = 10 * digitsValue cs + (c.toNat - 48) := by
  simp [digitsValue, decimalDigit?_of_isDigit h]

/-- As many ASCII digits spell another number if they are others. -/
theorem eq_of_digitsValue_eq {cs ds : List Char} (hc : ∀ c ∈ cs, c.isDigit = true)
    (hd : ∀ d ∈ ds, d.isDigit = true) (hlen : cs.length = ds.length)
    (h : digitsValue cs = digitsValue ds) : cs = ds := by
  -- From the right, since the last digit is the remainder by ten.
  induction cs using List.reverseRecOn generalizing ds with
  | nil => exact (List.length_eq_zero_iff.mp hlen.symm).symm
  | append_singleton cs c ih =>
      obtain rfl | ⟨front, d, rfl⟩ := List.eq_nil_or_concat' ds
      · simp at hlen
      rw [List.forall_mem_append, List.forall_mem_singleton] at hc hd
      obtain ⟨hclo, hchi⟩ := toNat_of_isDigit hc.2
      obtain ⟨hdlo, hdhi⟩ := toNat_of_isDigit hd.2
      rw [digitsValue_concat hc.2, digitsValue_concat hd.2] at h
      have hlast : c = d := Char.toNat_inj.mp (by omega)
      rw [ih hc.1 hd.1 (by simpa using hlen) (by omega), hlast]

theorem digitsValue_pos {c : Char} {cs : List Char} (h : ∀ d ∈ c :: cs, d.isDigit = true)
    (h0 : c ≠ '0') : 0 < digitsValue (c :: cs) := by
  induction cs using List.reverseRecOn with
  | nil =>
      obtain ⟨hlo, _⟩ := toNat_of_isDigit (h c (by simp))
      have hne : c.toNat ≠ 48 := fun he => h0 (Char.toNat_inj.mp he)
      have hv : digitsValue [c] = c.toNat - 48 := by
        simp [digitsValue, decimalDigit?_of_isDigit (h c (by simp))]
      omega
  | append_singleton cs d ih =>
      have hpos := ih fun x hx => h x (by simp at hx ⊢; tauto)
      rw [← List.cons_append, digitsValue_concat (h d (by simp))]
      omega

/-! ## Writing what was read -/

/-- **Writing is inverse to reading** for digits that do not start with a zero. -/
theorem natDigits_digitsValue {c : Char} {cs : List Char} (h : ∀ d ∈ c :: cs, d.isDigit = true)
    (h0 : c ≠ '0') : natDigits (digitsValue (c :: cs)) = c :: cs := by
  -- From the right, since the last digit is the remainder by ten.
  induction cs using List.reverseRecOn with
  | nil =>
      have hc := h c (by simp)
      obtain ⟨_, hhi⟩ := toNat_of_isDigit hc
      have hv : digitsValue [c] = c.toNat - 48 := by
        simp [digitsValue, decimalDigit?_of_isDigit hc]
      rw [hv, natDigits, Nat.toDigits_of_lt_base (by omega), digitChar_of_isDigit hc]
  | append_singleton cs d ih =>
      have hd := h d (by simp)
      have hcs : ∀ x ∈ c :: cs, x.isDigit = true := fun x hx => h x (by simp at hx ⊢; tauto)
      obtain ⟨_, hhi⟩ := toNat_of_isDigit hd
      have hlt : d.toNat - 48 < 10 := by omega
      rw [← List.cons_append, digitsValue_concat hd, natDigits,
        ← Nat.toDigits_append_toDigits (by decide) (digitsValue_pos hcs h0) hlt,
        Nat.toDigits_of_lt_base hlt, digitChar_of_isDigit hd]
      exact congrArg (· ++ [d]) (ih hcs)

/-- Two digits are what their number is written with, filled up to two digits. -/
theorem paddedDigits_digitsValue_two {a b : Char} (ha : a.isDigit = true)
    (hb : b.isDigit = true) : paddedDigits 2 (digitsValue [a, b]) = [a, b] := by
  by_cases h0 : a = '0'
  · subst h0
    obtain ⟨_, hhi⟩ := toNat_of_isDigit hb
    have hv : digitsValue ['0', b] = b.toNat - 48 := by
      simp [digitsValue, decimalDigit?_of_isDigit ha, decimalDigit?_of_isDigit hb]
    rw [paddedDigits, natDigits, hv, Nat.toDigits_of_lt_base (by omega),
      digitChar_of_isDigit hb]
    rfl
  · rw [paddedDigits, natDigits_digitsValue (by simp [ha, hb]) h0]
    rfl

/-- Both readings agree on ASCII digits. -/
theorem digitsValue_eq_digitsOf {cs : List Char} (h : ∀ c ∈ cs, c.isDigit = true) :
    digitsValue cs = Binary64.digitsOf cs := by
  induction cs using List.reverseRecOn with
  | nil => rfl
  | append_singleton cs c ih =>
      rw [digitsValue_concat (h c (by simp)), ih fun d hd => h d (by simp [hd])]
      simp [Binary64.digitsOf, Nat.ofDigitChars]

/-! ## Digits at the front of a text -/

/-- A text does not go on with a digit. -/
def NoDigit (cs : List Char) : Prop := ∀ c, cs.head? = some c → c.isDigit = false

theorem takeWhile_isDigit_append {ds rest : List Char} (h : ∀ d ∈ ds, d.isDigit = true)
    (hr : NoDigit rest) : (ds ++ rest).takeWhile Char.isDigit = ds := by
  rw [List.takeWhile_append_of_pos h]
  cases rest with
  | nil => simp
  | cons c rest => simp [hr c rfl]

theorem dropWhile_isDigit_append {ds rest : List Char} (h : ∀ d ∈ ds, d.isDigit = true)
    (hr : NoDigit rest) : (ds ++ rest).dropWhile Char.isDigit = rest := by
  rw [List.dropWhile_append_of_pos h]
  cases rest with
  | nil => simp
  | cons c rest => simp [hr c rfl]

/-! ## Written numbers -/

theorem isDigit_of_mem_natDigits {n : Nat} {c : Char} (h : c ∈ natDigits n) :
    c.isDigit = true :=
  Nat.isDigit_of_mem_toDigits (by decide) (by decide) h

@[simp] theorem digitsOf_natDigits (n : Nat) : Binary64.digitsOf (natDigits n) = n :=
  Nat.ofDigitChars_ten_toDigits

theorem isDigit_of_mem_paddedDigits {width n : Nat} {c : Char} (h : c ∈ paddedDigits width n) :
    c.isDigit = true := by
  rcases List.mem_append.mp h with h | h
  · rw [(List.mem_replicate.mp h).2]
    rfl
  · exact isDigit_of_mem_natDigits h

@[simp] theorem digitsValue_natDigits (n : Nat) : digitsValue (natDigits n) = n := by
  rw [digitsValue_eq_digitsOf fun c hc => isDigit_of_mem_natDigits hc, digitsOf_natDigits]

/-- A number that fits is filled up to the width. -/
theorem length_paddedDigits {width n : Nat} (hw : 0 < width) (h : n < 10 ^ width) :
    (paddedDigits width n).length = width := by
  have hle : (natDigits n).length ≤ width :=
    (Nat.length_toDigits_le_iff (show 1 < 10 by decide) hw).mpr h
  rw [paddedDigits, List.length_append, List.length_replicate]
  omega

theorem natDigits_ne_nil (n : Nat) : natDigits n ≠ [] := Nat.toDigits_ne_nil

/-- No zero leads in a written number. -/
theorem head?_natDigits_ne {n : Nat} (h : 0 < n) : (natDigits n).head? ≠ some '0' := by
  induction n using Nat.strong_induction_on with
  | _ n ih =>
      rw [natDigits]
      by_cases hlt : n < 10
      · rw [Nat.toDigits_of_lt_base hlt]
        simp [h.ne']
      · have hpos : 0 < n / 10 := by omega
        have happ := Nat.toDigits_append_toDigits (show 1 < 10 by decide) hpos
          (Nat.mod_lt n (show 10 > 0 by decide))
        rw [Nat.div_add_mod] at happ
        rw [← happ, List.head?_append_of_ne_nil _ Nat.toDigits_ne_nil]
        exact ih (n / 10) (by omega) hpos

theorem digitsOf_append (ds es : List Char) :
    Binary64.digitsOf (ds ++ es) =
      10 ^ es.length * Binary64.digitsOf ds + Binary64.digitsOf es := by
  rw [Binary64.digitsOf, Nat.ofDigitChars_append, Nat.ofDigitChars_eq_ofDigitChars_zero]
  rfl

@[simp] theorem digitsOf_replicate_zero (k : Nat) :
    Binary64.digitsOf (List.replicate k '0') = 0 := by
  simp [Binary64.digitsOf]

@[simp] theorem digitsValue_paddedDigits (width n : Nat) :
    digitsValue (paddedDigits width n) = n := by
  rw [digitsValue_eq_digitsOf fun c hc => isDigit_of_mem_paddedDigits hc, paddedDigits,
    digitsOf_append, digitsOf_replicate_zero, digitsOf_natDigits, Nat.mul_zero, Nat.zero_add]

end LinkedTables.Text
