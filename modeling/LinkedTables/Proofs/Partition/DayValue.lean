import LinkedTables.Proofs.Partition.Calendar

set_option autoImplicit false

/-! # The values of days

A date is written with its year in as few digits as it takes, its month in two digits and its
day in two digits, and with dashes between them (`Date.WrittenAs`); this leaves one text for
every date.

The value of a partition is the day of the calendar whose year, month and day are the fields
of its id, written in this way. Ids whose fields are no day, and some whose month or day has
digits of other scripts, have no value, and the failure names the id
(`DayId.toValue_reads_in_place`).
-/

namespace LinkedTables

/-- ASCII digits that spell a number. -/
structure Text.Numeral (n : Nat) (cs : List Char) : Prop where
  isDigit : ∀ c ∈ cs, c.isDigit = true
  value_eq : digitsValue cs = n

theorem Text.numeral_natDigits (n : Nat) : Numeral n (natDigits n) :=
  ⟨fun _ hc => isDigit_of_mem_natDigits hc, digitsValue_natDigits n⟩

theorem Text.numeral_paddedDigits (width n : Nat) : Numeral n (paddedDigits width n) :=
  ⟨fun _ hc => isDigit_of_mem_paddedDigits hc, digitsValue_paddedDigits width n⟩

/-- A number above zero has one numeral without a leading zero. -/
theorem Text.Numeral.eq_natDigits {n : Nat} {cs : List Char} (h : Numeral n cs) (hn : 0 < n)
    (hlead : cs.head? ≠ some '0') : cs = natDigits n := by
  obtain ⟨hdigit, rfl⟩ := h
  cases cs with
  | nil => exact absurd hn (by decide)
  | cons c cs =>
      have hc : c ≠ '0' := fun he => hlead (congrArg some he)
      exact (natDigits_digitsValue hdigit hc).symm

/-- A number has no more than one numeral of two digits. -/
theorem Text.Numeral.eq_paddedDigits {n : Nat} {cs : List Char} (h : Numeral n cs)
    (hlen : cs.length = 2) : cs = paddedDigits 2 n := by
  obtain ⟨hdigit, rfl⟩ := h
  match cs, hlen with
  | [a, b], _ =>
      exact (paddedDigits_digitsValue_two (hdigit a (by simp)) (hdigit b (by simp))).symm

namespace Date

/-- A text in which a date is written: numerals of its year, without a leading zero, and of
its month and its day, with two digits each, and dashes between them. -/
def WrittenAs (d : Date) (s : String) : Prop :=
  ∃ year month day : List Char, s.toList = year ++ '-' :: (month ++ '-' :: day) ∧
    (Text.Numeral d.year year ∧ year.head? ≠ some '0') ∧
    (Text.Numeral d.month month ∧ month.length = 2) ∧
    (Text.Numeral d.day day ∧ day.length = 2)

/-- A date is written as one text. -/
theorem writtenAs_iff {d : Date} (h : d.Valid) {s : String} :
    d.WrittenAs s ↔ s = d.dashed := by
  obtain ⟨hyear, -, hmonth, -, hday⟩ := h
  constructor
  · rintro ⟨y, m, n, hs, ⟨hy, hlead⟩, ⟨hm, hm2⟩, hn, hn2⟩
    rw [hy.eq_natDigits hyear hlead, hm.eq_paddedDigits hm2, hn.eq_paddedDigits hn2] at hs
    rw [dashed, dashedChars, ← hs, String.ofList_toList]
  · rintro rfl
    have hdays := DayId.daysInMonth_le d.year d.month
    refine ⟨_, _, _, String.toList_ofList,
      ⟨Text.numeral_natDigits d.year, Text.head?_natDigits_ne hyear⟩,
      ⟨Text.numeral_paddedDigits 2 d.month, ?_⟩, Text.numeral_paddedDigits 2 d.day, ?_⟩
    · exact Text.length_paddedDigits (by decide) (by omega)
    · exact Text.length_paddedDigits (by decide) (by omega)

end Date

namespace DayId

theorem Aligned.year_le {id : String} {d : Date} (h : Aligned id d) : d.year ≤ 9999 := by
  have hlt := Text.digitsValue_lt (id.toList.take 4)
  rw [h.year_eq, List.length_take, h.length_eq] at hlt
  exact Nat.le_of_lt_succ hlt

theorem toValue_eq_ok_iff {id value : String} :
    toValue id = .ok value ↔ ∃ d, parse id = .ok d ∧ value = d.dashed := by
  constructor
  · exact exists_of_toValue
  · rintro ⟨d, hd, rfl⟩
    rw [toValue, hd]

/-- Fields that are those of a day of the calendar are aligned with a date. -/
theorem Fields.aligned_ofDay {id : String} {day : Std.Time.PlainDate}
    (h : Fields id (.ofDay day)) (hyear : 1 ≤ day.year.toInt) : Aligned id (.ofDay day) :=
  ⟨h, Date.valid_ofDay hyear⟩

/-- The date of an id is a day of the calendar, of one of the years 1 to 9999. -/
theorem Aligned.exists_day {id : String} {d : Date} (h : Aligned id d) :
    ∃ day : Std.Time.PlainDate,
      (1 ≤ day.year.toInt ∧ day.year.toInt ≤ 9999) ∧ d = .ofDay day := by
  obtain ⟨day, hyear, rfl⟩ := Date.valid_iff_exists_ofDay.mp h.valid
  have hle : day.year.toInt.toNat ≤ 9999 := h.year_le
  exact ⟨day, ⟨hyear, Int.toNat_le.mp hle⟩, rfl⟩

/-- **Ids are read in place and by the calendar.** The value of an id is a day of the years 1
to 9999 of the standard library's calendar, written in the one way in which dates are
written; the id has eight digits, which are the year, the month and the day of it, four, two
and two. All ids of ASCII digits that are a day of the calendar have a value, and of the
others those in which the digits of other scripts stand in the year or at the end of a day
from 10 to 29. An id without a value makes a failure that names it. -/
theorem toValue_reads_in_place (id : String) :
    (∀ value, toValue id = .ok value ↔
      ∃ day : Std.Time.PlainDate, (1 ≤ day.year.toInt ∧ day.year.toInt ≤ 9999) ∧
        Fields id (.ofDay day) ∧ PlainFields id ∧ (Date.ofDay day).WrittenAs value) ∧
    (∀ day : Std.Time.PlainDate, 1 ≤ day.year.toInt → Fields id (.ofDay day) →
      (∀ c ∈ id.toList, c.isDigit = true) →
      ∃ value, toValue id = .ok value ∧ (Date.ofDay day).WrittenAs value) ∧
    ∀ p, toValue id = .error p →
      ∃ message cause, p = .failure (.partitionId id (some message)) cause := by
  have hread {day : Std.Time.PlainDate} (hyear : 1 ≤ day.year.toInt)
      (hfields : Fields id (.ofDay day)) (hplain : PlainFields id) :
      parse id = .ok (.ofDay day) :=
    parse_of_aligned (hfields.aligned_ofDay hyear) hplain
  refine ⟨fun value => ?_, fun day hyear hfields hascii => ?_, fun p hp => ?_⟩
  · rw [toValue_eq_ok_iff]
    constructor
    · rintro ⟨d, hd, hwritten⟩
      obtain ⟨haligned, hplain⟩ := parse_eq_ok_iff.mp hd
      obtain ⟨day, hyears, rfl⟩ := haligned.exists_day
      exact ⟨day, hyears, haligned.toFields, hplain,
        (Date.writtenAs_iff haligned.valid).mpr hwritten⟩
    · rintro ⟨day, ⟨hyear, -⟩, hfields, hplain, hwritten⟩
      exact ⟨_, hread hyear hfields hplain,
        (Date.writtenAs_iff (Date.valid_ofDay hyear)).mp hwritten⟩
  · have hd := hread hyear hfields (plainFields_of_isDigit hascii)
    exact ⟨_, toValue_eq_ok_iff.mpr ⟨_, hd, rfl⟩,
      (Date.writtenAs_iff (Date.valid_ofDay hyear)).mpr rfl⟩
  · exact exists_of_toValue_eq_error hp

/-- The twenty-ninth of February of 2024 is read from ASCII digits and from an id whose year
has digits of another script, and not from one whose month has. The thirtieth is no day, and
a month that is read from one digit leaves something over. -/
theorem leap_day_reads_in_place :
    (∃ value, toValue "20240229" = .ok value ∧
      (Date.ofDay ⟨(2024 : Int), 2, 29, by decide⟩).WrittenAs value) ∧
      toValue "\u0662\u0660240229" = .ok "2024-02-29" ∧
      (∀ value, toValue "2024\u0660229" ≠ .ok value) ∧
      (∃ message cause, toValue "20240230" =
        .error (.failure (.partitionId "20240230" (some message)) cause)) ∧
      ∃ message cause, toValue "20231305" =
        .error (.failure (.partitionId "20231305" (some message)) cause) := by
  have hascii : Fields "20240229" (.ofDay ⟨(2024 : Int), 2, 29, by decide⟩) :=
    ⟨rfl, List.all_eq_true.mp rfl, rfl, rfl, rfl⟩
  have hfields : Fields "\u0662\u0660240229" (.ofDay ⟨(2024 : Int), 2, 29, by decide⟩) :=
    ⟨rfl, List.all_eq_true.mp rfl, rfl, rfl, rfl⟩
  have hplain : PlainFields "\u0662\u0660240229" :=
    ⟨by rintro _ _ ⟨⟩; exact ⟨rfl, rfl⟩, by rintro _ _ ⟨⟩; exact ⟨rfl, .inl rfl⟩⟩
  obtain ⟨-, hspelled, -⟩ := toValue_reads_in_place "20240229"
  obtain ⟨hyear, -, -⟩ := toValue_reads_in_place "\u0662\u0660240229"
  obtain ⟨hmonth, -, -⟩ := toValue_reads_in_place "2024\u0660229"
  obtain ⟨-, -, hday⟩ := toValue_reads_in_place "20240230"
  obtain ⟨-, -, hover⟩ := toValue_reads_in_place "20231305"
  refine ⟨?_, ?_, ?_, ?_, ?_⟩
  · exact hspelled _ (by decide) hascii (List.all_eq_true.mp rfl)
  · exact (hyear _).mpr ⟨⟨(2024 : Int), 2, 29, by decide⟩, by decide, hfields, hplain,
      (Date.writtenAs_iff (Date.valid_ofDay (by decide))).mpr rfl⟩
  · intro value h
    obtain ⟨day, -, -, hplain, -⟩ := (hmonth value).mp h
    exact absurd (hplain.month '\u0660' '2' rfl).1 (by decide)
  · obtain ⟨message, cause, hp⟩ := hday _ (show toValue "20240230" = .error _ from rfl)
    exact ⟨message, cause, congrArg Except.error hp⟩
  · obtain ⟨message, cause, hp⟩ := hover _ (show toValue "20231305" = .error _ from rfl)
    exact ⟨message, cause, congrArg Except.error hp⟩

end DayId

end LinkedTables
