import LinkedTables.Partition.Date
import LinkedTables.Problem
import LinkedTables.Warehouse.Metadata

set_option autoImplicit false

/-! # Daily partition ids

The warehouse names a daily partition by eight digits: four for the year, two for the
month and two for the day. The catalog knows the same partition by the date with dashes.

An id is read as year, month and day in turn, where a month or a day whose two digits do
not fit may be read from one digit alone; only a reading that uses up the id counts. The
digits of the year, and the second digit of a day from 10 to 29, may be of any script.

Only tables that are partitioned by day have partition ids that can be converted.
-/

namespace LinkedTables.DayId

/-- Why an id is not that of a day. -/
inductive Defect where
  /-- It does not consist of eight digits. -/
  | notEightDigits
  /-- It cannot be read as year, month and day. -/
  | unreadable
  /-- The reading leaves some of it over. -/
  | leftover (rest : String)
  /-- There is no year zero. -/
  | yearZero
  /-- The month does not have this day. -/
  | noSuchDay
deriving DecidableEq, Repr

/-- The message for a defect of an id. -/
def Defect.message (id : String) : Defect → String
  | notEightDigits => "expected 8 digits (yyyyMMdd)"
  | unreadable => "time data " ++ Text.quoted id ++ " does not match format '%Y%m%d'"
  | leftover rest => "unconverted data remains: " ++ rest
  | yearZero => "year 0 is out of range"
  | noSuchDay => "day is out of range for month"

/-- Whether a character is one of the digits from `low` to `high`. -/
def between (low high c : Char) : Bool := low ≤ c && c ≤ high

/-- The ways to read a month at the front of a text, the preferred one first, each with
what it leaves. -/
def monthReadings (cs : List Char) : List (Nat × List Char) :=
  let two := match cs with
    | a :: b :: rest =>
      if a = '1' ∧ between '0' '2' b ∨ a = '0' ∧ between '1' '9' b then
        [(Text.digitsValue [a, b], rest)]
      else []
    | _ => []
  let one := match cs with
    | a :: rest => if between '1' '9' a then [(Text.digitsValue [a], rest)] else []
    | _ => []
  two ++ one

/-- Reads a day at the front of a text, by two digits if they fit and else by one. -/
def day? (cs : List Char) : Option (Nat × List Char) :=
  let one := match cs with
    | a :: rest => if between '1' '9' a then some (Text.digitsValue [a], rest) else none
    | _ => none
  match cs with
  | a :: b :: rest =>
    if a = '3' ∧ between '0' '1' b ∨ between '1' '2' a ∧ Text.isDecimalDigit b
        ∨ a = '0' ∧ between '1' '9' b then
      some (Text.digitsValue [a, b], rest)
    else one
  | _ => one

/-- Reads eight digits as a date: the first month that leaves a day behind it counts. -/
def readDigits (cs : List Char) : Except Defect Date :=
  let year := Text.digitsValue (cs.take 4)
  let readings := (monthReadings (cs.drop 4)).filterMap fun (month, rest) =>
    (day? rest).map fun (day, rest) => ((⟨year, month, day⟩ : Date), rest)
  match readings with
  | [] => .error .unreadable
  | (d, rest) :: _ =>
    if rest ≠ [] then .error (.leftover (String.ofList rest))
    else if d.year = 0 then .error .yearZero
    else if d.Valid then .ok d
    else .error .noSuchDay

/-- Whether a text consists of eight digits, of any script. -/
def isEightDigits (cs : List Char) : Bool := cs.length == 8 && cs.all Text.isDecimalDigit

/-- The date of a partition id. -/
def parse (id : String) : Except Defect Date :=
  if isEightDigits id.toList then readDigits id.toList else .error .notEightDigits

/-- The failure that an id is not that of a day. An id that consists of eight digits was
found wanting when it was read, which is then the cause. -/
def failure (id : String) (defect : Defect) : Problem :=
  let message := defect.message id
  let cause := match defect with
    | .notEightDigits => none
    | _ => some (Problem.error .value message)
  .failure (.partitionId id (some message)) cause

/-- The value of a partition, with dashes, from its id. -/
def toValue (id : String) : Except Problem String :=
  match parse id with
  | .ok d => .ok d.dashed
  | .error defect => .error (failure id defect)

/-- The values of partitions from their ids, in order; the first id that is not that of a
day is the reason for a refusal. -/
def toValues : List String → Except Problem (List String)
  | [] => .ok []
  | id :: ids =>
    match toValue id with
    | .error p => .error p
    | .ok v => match toValues ids with
      | .error p => .error p
      | .ok vs => .ok (v :: vs)

/-- Whether the ids of a table can be converted. -/
def isDaily (p : Option TimePartitioning) : Bool :=
  match p with
  | some p => p.granularity == .day
  | none => false

/-- The values of the partitions of a table from their ids. A table that is not partitioned
by day has none. -/
def convert (ids : List String) (p : Option TimePartitioning) : Except Problem (List String) :=
  if isDaily p then toValues ids else .ok []

example : parse "20230615" = .ok ⟨2023, 6, 15⟩ := rfl

example : parse "20231305" = .error (.leftover "5") := rfl

end LinkedTables.DayId
