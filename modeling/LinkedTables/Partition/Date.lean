import LinkedTables.Text.Digit

set_option autoImplicit false

/-! # Calendar dates

Dates of the Gregorian calendar, carried back before its introduction, from the year 1 on.
A date is written with dashes between year, month and day; months and days have two
digits, years as many as they need.
-/

namespace LinkedTables

/-- Whether a year has a leap day. -/
def isLeapYear (year : Nat) : Bool := year % 4 == 0 && (year % 100 != 0 || year % 400 == 0)

/-- The number of days of a month, and zero for a number that is no month. -/
def daysInMonth (year : Nat) : Nat → Nat
  | 1 | 3 | 5 | 7 | 8 | 10 | 12 => 31
  | 4 | 6 | 9 | 11 => 30
  | 2 => if isLeapYear year then 29 else 28
  | _ => 0

/-- A year, a month and a day, which need not be those of a date. -/
structure Date where
  /-- The year. -/
  year : Nat
  /-- The month, counted from 1. -/
  month : Nat
  /-- The day of the month, counted from 1. -/
  day : Nat
deriving DecidableEq, Repr

namespace Date

/-- A date of the calendar. -/
def Valid (d : Date) : Prop :=
  1 ≤ d.year ∧ 1 ≤ d.month ∧ d.month ≤ 12 ∧ 1 ≤ d.day ∧ d.day ≤ daysInMonth d.year d.month

instance (d : Date) : Decidable d.Valid :=
  inferInstanceAs (Decidable (_ ∧ _ ∧ _ ∧ _ ∧ _))

/-- The text of a date. -/
def dashedChars (d : Date) : List Char :=
  Text.natDigits d.year ++ '-' :: (Text.paddedDigits 2 d.month ++
    '-' :: Text.paddedDigits 2 d.day)

/-- The text of a date. -/
def dashed (d : Date) : String := String.ofList d.dashedChars

example : dashedChars ⟨2023, 6, 5⟩ = ['2', '0', '2', '3', '-', '0', '6', '-', '0', '5'] := by
  decide

example : Valid ⟨2024, 2, 29⟩ := by decide

example : ¬ Valid ⟨2100, 2, 29⟩ := by decide

end Date

end LinkedTables
