import LinkedTables.Filter.PartitionId
import LinkedTables.Proofs.Partition.DayId
import Mathlib.Data.String.Basic

set_option autoImplicit false

/-! # Dashes and the order of texts

Partition values have dashes and partition ids have none, and both are compared as texts,
character by character. Taking the dashes out keeps this order only among texts that have
their dashes at the same places. `KeepsOrder` says so of a set of texts.

The dates are such a set, and so are all texts that are written like the beginning of a
date, with or without a time of day after it: those that are `DateAligned`. Texts with
dashes elsewhere, or without the dashes of a date, are in general not.
-/

namespace LinkedTables.Filter

/-- The order of the texts of a set is the order of these texts without their dashes. -/
def KeepsOrder (S : String → Prop) : Prop :=
  ∀ s t, S s → S t → (withoutDashes s < withoutDashes t ↔ s < t)

/-- Texts of the shape `dddd-dd-dd`, with ASCII digits for the letters. -/
def DateShaped (s : String) : Prop :=
  ∃ a b c d e f g h, s.toList = [a, b, c, d, '-', e, f, '-', g, h] ∧
    ∀ x ∈ [a, b, c, d, e, f, g, h], x.isDigit = true

/-- Texts whose dashes are those of a date: as far as the text reaches, its fifth and its
eighth character are dashes and no others are, and it does not end with one. -/
def DateAligned (s : String) : Prop :=
  (∀ i c, s.toList[i]? = some c → (c = '-' ↔ i = 4 ∨ i = 7)) ∧ s.toList.getLast? ≠ some '-'

/-- The values of the days from the year 1000 on. -/
def DayValue (s : String) : Prop :=
  ∃ id d, DayId.Spells id d ∧ 1000 ≤ d.year ∧ s = d.dashed

/-! ## Taking out dashes at given places -/

theorem toList_withoutDashes (s : String) :
    (withoutDashes s).toList = s.toList.filter (· != '-') := by
  rw [withoutDashes, String.toList_ofList]

theorem withoutDashes_lt_iff (s t : String) :
    withoutDashes s < withoutDashes t ↔
      s.toList.filter (· != '-') < t.toList.filter (· != '-') := by
  rw [String.lt_iff_toList_lt, toList_withoutDashes, toList_withoutDashes]

/-- A list that does not end with a dash loses all of its elements only if it has none. -/
theorem filter_dashes_eq_nil_iff {cs : List Char} (h : cs.getLast? ≠ some '-') :
    cs.filter (· != '-') = [] ↔ cs = [] := by
  refine ⟨fun hnil => ?_, fun hnil => by rw [hnil, List.filter_nil]⟩
  rcases List.eq_nil_or_concat' cs with hcs | ⟨front, last, rfl⟩
  · exact hcs
  · have hlast : last ≠ '-' := by simpa using h
    simp [List.filter_append, hlast] at hnil

/-- **The order survives** if the dashes of both lists are at the same places and neither
list ends with one. -/
theorem filter_dashes_lt_iff {p : Nat → Prop} {cs ds : List Char}
    (hc : ∀ i c, cs[i]? = some c → (c = '-' ↔ p i))
    (hd : ∀ i d, ds[i]? = some d → (d = '-' ↔ p i))
    (hcl : cs.getLast? ≠ some '-') (hdl : ds.getLast? ≠ some '-') :
    cs.filter (· != '-') < ds.filter (· != '-') ↔ cs < ds := by
  induction cs generalizing ds p with
  | nil =>
      cases ds with
      | nil => simp
      | cons d ds =>
          have hne := mt (filter_dashes_eq_nil_iff hdl).mp (List.cons_ne_nil d ds)
          obtain ⟨x, xs, hx⟩ := List.exists_cons_of_ne_nil hne
          simp [hx]
  | cons c cs ih =>
      cases ds with
      | nil => simp
      | cons d ds =>
          have htail : ∀ {x : Char} {xs : List Char}, (x :: xs).getLast? ≠ some '-' →
              xs.getLast? ≠ some '-' := by
            intro x xs hx
            cases xs with
            | nil => simp
            | cons y ys => rwa [List.getLast?_cons_cons] at hx
          have ih' := @ih (fun i => p (i + 1)) ds
            (fun i x hx => hc (i + 1) x (by rwa [List.getElem?_cons_succ]))
            (fun i x hx => hd (i + 1) x (by rwa [List.getElem?_cons_succ]))
            (htail hcl) (htail hdl)
          have hc0 := hc 0 c rfl
          have hd0 := hd 0 d rfl
          by_cases h0 : p 0
          · -- Both lists start with a dash, which decides nothing.
            obtain rfl := hc0.mpr h0
            obtain rfl := hd0.mpr h0
            simp [ih']
          · have hcn : c ≠ '-' := mt hc0.mp h0
            have hdn : d ≠ '-' := mt hd0.mp h0
            simp [hcn, hdn, List.cons_lt_cons_iff, ih']

theorem keepsOrder_dateAligned : KeepsOrder DateAligned := by
  rintro s t ⟨hs, hsl⟩ ⟨ht, htl⟩
  rw [withoutDashes_lt_iff, String.lt_iff_toList_lt]
  exact filter_dashes_lt_iff hs ht hsl htl

/-- What keeps the order keeps it in every part. -/
theorem KeepsOrder.mono {S T : String → Prop} (h : KeepsOrder T) (hST : ∀ s, S s → T s) :
    KeepsOrder S :=
  fun s t hs ht => h s t (hST s hs) (hST t ht)

/-- Texts are the same without their dashes only if they are the same. -/
theorem KeepsOrder.eq_iff {S : String → Prop} (h : KeepsOrder S) {s t : String} (hs : S s)
    (ht : S t) : withoutDashes s = withoutDashes t ↔ s = t := by
  refine ⟨fun he => ?_, fun he => by rw [he]⟩
  -- Of two different texts one sorts first, with the dashes and without them.
  by_contra hne
  rcases lt_or_gt_of_ne hne with hlt | hlt
  · have := (h s t hs ht).mpr hlt
    exact absurd he this.ne
  · have := (h t s ht hs).mpr hlt
    exact absurd he this.ne'

/-! ## Dates -/

theorem DateShaped.dateAligned {s : String} (h : DateShaped s) : DateAligned s := by
  obtain ⟨a, b, c, d, e, f, g, h, hs, hdig⟩ := h
  have hne : ∀ x ∈ [a, b, c, d, e, f, g, h], x ≠ '-' := by
    rintro x hx rfl
    exact absurd (hdig '-' hx) (by decide)
  simp only [List.mem_cons, List.not_mem_nil, or_false, forall_eq_or_imp, forall_eq] at hne
  obtain ⟨ha, hb, hc, hd, he, hf, hg, hh⟩ := hne
  rw [DateAligned, hs]
  refine ⟨fun i x hx => ?_, by simpa using hh⟩
  have hi : i < 10 := (List.getElem?_eq_some_iff.mp hx).1
  -- Each of the ten places is looked at: two hold a dash and eight hold a digit.
  interval_cases i <;> simp at hx <;> simp [← hx, ha, hb, hc, hd, he, hf, hg, hh]

theorem filter_dashes_of_isDigit {cs : List Char} (h : ∀ c ∈ cs, c.isDigit = true) :
    cs.filter (· != '-') = cs := by
  refine List.filter_eq_self.mpr fun c hc => bne_iff_ne.mpr ?_
  rintro rfl
  exact absurd (h '-' hc) (by decide)

theorem withoutDashes_dashed {id : String} {d : Date} (h : DayId.Spells id d)
    (hy : 1000 ≤ d.year) : withoutDashes d.dashed = id := by
  obtain ⟨y₁, y₂, y₃, y₄, m₁, m₂, d₁, d₂, hid, hv⟩ := DayId.dashed_of_spells h hy
  have hkept := filter_dashes_of_isDigit h.isDigit
  apply String.toList_inj.mp
  rw [toList_withoutDashes, hv, ← hkept, hid]
  simp [List.filter_cons]

/-- The value of a date is its year, its month and its day beside the dashes. -/
theorem toList_withoutDashes_dashed (d : Date) :
    (withoutDashes d.dashed).toList =
      Text.natDigits d.year ++ (Text.paddedDigits 2 d.month ++ Text.paddedDigits 2 d.day) := by
  have hyear := filter_dashes_of_isDigit fun c (hc : c ∈ Text.natDigits d.year) =>
    Text.isDigit_of_mem_natDigits hc
  have hpadded (n : Nat) := filter_dashes_of_isDigit fun c (hc : c ∈ Text.paddedDigits 2 n) =>
    Text.isDigit_of_mem_paddedDigits hc
  rw [toList_withoutDashes, Date.dashed, String.toList_ofList, Date.dashedChars]
  simp [List.filter_append, hyear, hpadded]

/-- **A value leads back to its id** if and only if the id is written with ASCII digits and
its year has four digits without a leading zero. -/
theorem withoutDashes_dashed_eq_iff {id : String} {d : Date} (h : DayId.Aligned id d) :
    withoutDashes d.dashed = id ↔
      (∀ c ∈ id.toList, c.isDigit = true) ∧ 1000 ≤ d.year := by
  constructor
  · intro hback
    have hid := toList_withoutDashes_dashed d
    rw [hback] at hid
    constructor
    · intro c hc
      rw [hid] at hc
      simp only [List.mem_append] at hc
      rcases hc with hc | hc | hc
      · exact Text.isDigit_of_mem_natDigits hc
      · exact Text.isDigit_of_mem_paddedDigits hc
      · exact Text.isDigit_of_mem_paddedDigits hc
    · -- Month and day take four of the eight digits, and so the year takes the other four.
      obtain ⟨-, -, hmonth, -, hday⟩ := h.valid
      have hdays := DayId.daysInMonth_le d.year d.month
      have hlen := congrArg List.length hid
      rw [h.length_eq, List.length_append, List.length_append,
        Text.length_paddedDigits (by decide) (by omega),
        Text.length_paddedDigits (by decide) (by omega)] at hlen
      by_contra hyear
      have hshort : (Text.natDigits d.year).length ≤ 3 :=
        (Nat.length_toDigits_le_iff (show 1 < 10 by decide) (by decide)).mpr (by omega)
      omega
  · rintro ⟨hdigit, hyear⟩
    exact withoutDashes_dashed (h.spells hdigit) hyear

theorem DayValue.dateShaped {s : String} (h : DayValue s) : DateShaped s := by
  obtain ⟨id, d, hd, hy, rfl⟩ := h
  obtain ⟨y₁, y₂, y₃, y₄, m₁, m₂, d₁, d₂, hid, hv⟩ := DayId.dashed_of_spells hd hy
  exact ⟨y₁, y₂, y₃, y₄, m₁, m₂, d₁, d₂, hv, fun x hx => hd.isDigit x (by rwa [hid])⟩

end LinkedTables.Filter
