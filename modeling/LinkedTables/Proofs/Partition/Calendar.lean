import LinkedTables.Proofs.Partition.DayId

set_option autoImplicit false

/-! # The calendar

The dates of this library are those of the standard library's calendar from the year 1 on:
`Date.valid_iff_exists_ofDay`. Both have a leap day in the same years and the same number of
days in every month.
-/

namespace LinkedTables

/-- Both calendars have the same leap years. -/
theorem isLeap_natCast (year : Nat) :
    Std.Time.Year.Offset.isLeap (year : Int) = isLeapYear year := by
  have hmod (n : Nat) : (year : Int).tmod n = 0 ↔ year % n = 0 := by
    rw [← Int.ofNat_tmod, Int.natCast_eq_zero]
  rw [Std.Time.Year.Offset.isLeap, Std.Time.Year.Offset.toInt, isLeapYear, Bool.eq_iff_iff]
  simp only [decide_eq_true_eq, Bool.and_eq_true, Bool.or_eq_true, beq_iff_eq, bne_iff_ne, ne_eq]
  rw [← hmod 4, ← hmod 100, ← hmod 400]
  rfl

/-- Both calendars have months of the same length. -/
theorem days_eq_daysInMonth (year : Nat) (month : Std.Time.Month.Ordinal) :
    (Std.Time.Month.Ordinal.days (isLeapYear year) month).val =
      daysInMonth year month.val.toNat := by
  obtain ⟨m, hlo, hhi⟩ := month
  unfold daysInMonth
  generalize isLeapYear year = leap
  interval_cases m <;> cases leap <;> rfl

/-- A month of the standard library's calendar has a day if it has this day here. -/
theorem valid_natCast_iff (year : Nat) (month : Std.Time.Month.Ordinal)
    (day : Std.Time.Day.Ordinal) :
    Std.Time.Year.Offset.Valid (year : Int) month day ↔
      day.val ≤ daysInMonth year month.val.toNat := by
  rw [← days_eq_daysInMonth, ← isLeap_natCast]
  rfl

namespace Date

/-- The year, the month and the day of a date of the calendar. -/
def ofDay (day : Std.Time.PlainDate) : Date :=
  ⟨day.year.toInt.toNat, day.month.val.toNat, day.day.val.toNat⟩

theorem valid_ofDay {day : Std.Time.PlainDate} (h : 1 ≤ day.year.toInt) : (ofDay day).Valid := by
  obtain ⟨hmonth, hmonth'⟩ := day.month.property
  obtain ⟨hday, -⟩ := day.day.property
  have hyear : ((day.year.toInt.toNat : Nat) : Int) = day.year :=
    Int.toNat_of_nonneg (le_trans (by decide) h)
  have hdays := day.valid
  rw [← hyear, valid_natCast_iff] at hdays
  have hbound : (ofDay day).day ≤ daysInMonth (ofDay day).year (ofDay day).month :=
    Int.toNat_le.mpr hdays
  refine ⟨?_, ?_, ?_, ?_, hbound⟩
  · show 1 ≤ day.year.toInt.toNat
    omega
  · show 1 ≤ day.month.val.toNat
    omega
  · exact Int.toNat_le.mpr hmonth'
  · show 1 ≤ day.day.val.toNat
    omega

/-- **Dates are the days of the calendar,** from the year 1 on. -/
theorem valid_iff_exists_ofDay {d : Date} :
    d.Valid ↔ ∃ day : Std.Time.PlainDate, 1 ≤ day.year.toInt ∧ d = ofDay day := by
  constructor
  · rintro ⟨hyear, hmonth, hmonth', hday, hday'⟩
    have hdays := DayId.daysInMonth_le d.year d.month
    let month : Std.Time.Month.Ordinal := ⟨d.month, by omega, by omega⟩
    let day : Std.Time.Day.Ordinal := ⟨d.day, by omega, by omega⟩
    have hvalid : Std.Time.Year.Offset.Valid (d.year : Int) month day :=
      (valid_natCast_iff d.year month day).mpr (Int.ofNat_le.mpr hday')
    exact ⟨⟨(d.year : Int), month, day, hvalid⟩, Int.ofNat_le.mpr hyear, rfl⟩
  · rintro ⟨day, hyear, rfl⟩
    exact valid_ofDay hyear

end Date

end LinkedTables
