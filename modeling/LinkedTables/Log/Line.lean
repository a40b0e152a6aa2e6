import LinkedTables.Log.Setup

set_option autoImplicit false

/-! # Log lines

A line holds the fields it was given, the name of the event, the time if the format asks
for it, the level and the name of the log. What the line itself holds takes the place of a
given field of the same key.

As a document a line holds its fields in this order, where a field that was given keeps its
place. As text for people it starts with columns for the time, the level, the event and the
names of logs, goes on with the other fields by key in order, and has a stack and a fault
below it. The fields are taken to be values that can be shown.
-/

namespace LinkedTables

/-- A line of the log. -/
inductive LogLine where
  /-- A document. -/
  | document (fields : Entries Value)
  /-- A text for people. -/
  | text (s : String)

namespace LogLine

/-- The name of the library's log. -/
def logName : String := "hive_bigquery"

/-- The keys by which the stack and the fault at hand are asked for. Where a line is written
there is neither, and the keys are dropped. -/
def requests : List String := ["stack_info", "exc_info"]

/-- What a line holds, in order. -/
def fields (format : LogFormat) (now : String) (level : Level) (event : String)
    (given : Entries Value) : Entries Value :=
  let named := Entries.set given "event" (.text event)
  let timed := if format.timestamp then Entries.set named "timestamp" (.text now) else named
  let full := Entries.set (Entries.set timed "level" (.text level.word)) "logger" (.text logName)
  full.filter fun e => !requests.contains e.1

/-! ## Lines for people -/

/-- A text filled up with blanks to a width. -/
def padded (width : Nat) (s : String) : String :=
  s ++ String.ofList (List.replicate (width - s.length) ' ')

/-- The characters that make a text be quoted in a line for people. -/
def quotedIfAny : List Char := [' ', '\t', '=', '\r', '\n', '"', '\'']

/-- A value in a line for people. -/
def plainValue : Value → String
  | .text s => if s.toList.any quotedIfAny.contains then Text.quoted s else s
  | v => String.ofList v.displayChars

/-- The order of fields in a line for people. -/
def byKey (a b : String × Value) : Bool := decide (a.1 ≤ b.1)

/-- A text without the blanks at its end. -/
def withoutTrailingBlanks (s : String) : String :=
  String.ofList (s.toList.reverse.dropWhile (· == ' ')).reverse

/-- A text in brackets. -/
def bracketed (s : String) : String := "[" ++ s ++ "]"

/-- The fields that have a column at the front of a line, and how they are written there. -/
def columns : List (String × (String → String)) :=
  [("timestamp", id), ("level", fun s => bracketed (padded 9 s)), ("event", padded 30),
    ("logger", bracketed), ("logger_name", bracketed)]

/-- The texts of the columns of a line. -/
def columnTexts (fields : Entries Value) : List String :=
  columns.filterMap fun c => (Entries.get? fields c.1).map fun v => c.2 v.shown

/-- The fields that stand below a line: a stack and a fault. -/
def belowKeys : List String := ["stack", "exception"]

/-- The fields of a line that are written with their keys, by key in order. -/
def keyed (fields : Entries Value) : Entries Value :=
  (fields.filter fun e => !(columns.map (·.1) ++ belowKeys).contains e.1).mergeSort byKey

/-- A field that is a text. -/
def textField (fields : Entries Value) (key : String) : Option String :=
  match Entries.get? fields key with
  | some (.text s) => some s
  | _ => none

/-- What separates a stack from a fault. -/
def rule : String := String.ofList (List.replicate 79 '=')

/-- The lines below a line: the stack, then the fault, with a rule between them. -/
def below (fields : Entries Value) : List String :=
  match textField fields "stack", textField fields "exception" with
  | none, none => []
  | some stack, none => [stack]
  | none, some fault => [fault]
  | some stack, some fault => [stack, "", rule, "", fault]

/-- A line for people that holds the given fields. -/
def plain (fields : Entries Value) : String :=
  let parts := columnTexts fields ++ (keyed fields).map fun e => e.1 ++ "=" ++ plainValue e.2
  let line := String.intercalate " " (parts.filter fun s => !s.isEmpty)
  String.intercalate "\n" (withoutTrailingBlanks line :: below fields)

end LogLine

namespace Logging

/-- Writes a line, unless its level is below the threshold. Before the log is set up nothing
is written. -/
def write (log : Logging) (now : String) (level : Level) (event : String)
    (given : Entries Value) : List LogLine × Logging :=
  match log.inUse.or log.chosen with
  | none => ([], log)
  | some format =>
    let log := { log with inUse := some format }
    if level.number < log.threshold then ([], log)
    else
      let fields := LogLine.fields format now level event given
      ([if format.json then .document fields else .text (LogLine.plain fields)], log)

end Logging

end LinkedTables
