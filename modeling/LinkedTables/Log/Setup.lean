import LinkedTables.Problem
import LinkedTables.Text.UpperCase
import LinkedTables.Trace.Event

set_option autoImplicit false

/-! # Setting up the log

The log has a threshold, below which lines are dropped, and a format. Setting it up names
the threshold by a level and chooses the format.

The threshold can be set once only: the first set-up connects the log to its output, and
later ones find it connected and leave the threshold alone. The format counts from the
first line written after a set-up, and from then on it stays. A set-up with a level that
does not exist fails after the format has been chosen.
-/

namespace LinkedTables

/-- How log lines are written. -/
structure LogFormat where
  /-- Whether lines are JSON documents, rather than text for people. -/
  json : Bool
  /-- Whether lines tell the time. -/
  timestamp : Bool
deriving DecidableEq, Repr

/-- The log as far as it has been set up. -/
structure Logging where
  /-- The number of the least level that is written. -/
  threshold : Nat
  /-- Whether the log is connected to its output. -/
  connected : Bool
  /-- The format chosen last. -/
  chosen : Option LogFormat
  /-- The format in use. -/
  inUse : Option LogFormat
deriving DecidableEq, Repr

/-- What the log is set up with. -/
structure LogSettings where
  /-- The name of the least level to be written. -/
  level : String
  /-- How lines are to be written. -/
  format : LogFormat
deriving DecidableEq, Repr

namespace Level

/-- The word for a level in log lines. -/
def word : Level → String
  | debug => "debug"
  | info => "info"
  | warning => "warning"
  | error => "error"
  | critical => "critical"

/-- The number of a level: the higher, the more important. -/
def number : Level → Nat
  | debug => 10
  | info => 20
  | warning => 30
  | error => 40
  | critical => 50

/-- All levels. -/
def all : List Level := [debug, info, warning, error, critical]

/-- The level that a word stands for. -/
def ofWord? (s : String) : Option Level := all.find? fun l => l.word == s

end Level

namespace Logging

/-- The numbers of the levels that a threshold may name, in capitals. -/
def thresholds : List (String × Nat) :=
  [("CRITICAL", 50), ("FATAL", 50), ("ERROR", 40), ("WARNING", 30), ("WARN", 30), ("INFO", 20),
    ("DEBUG", 10), ("NOTSET", 0)]

/-- A name that stands where levels are looked up and is the name of a format. -/
def formatName : String := "BASIC_FORMAT"

/-- The format of that name. -/
def basicFormat : String := "%(levelname)s:%(name)s:%(message)s"

/-- The log before it is set up. -/
def initial : Logging := ⟨Level.warning.number, false, none, none⟩

/-- The settings that hold where nothing else is said. -/
def usual : LogSettings := ⟨"INFO", ⟨true, true⟩⟩

/-- Sets up the log. -/
def configure (log : Logging) (settings : LogSettings) : Except Problem Unit × Logging :=
  let log := { log with chosen := some settings.format }
  let name := Text.upperCase settings.level
  match thresholds.lookup name with
  | some number =>
    (.ok (), if log.connected then log else { log with connected := true, threshold := number })
  | none =>
    if name = formatName then
      if log.connected then (.ok (), log)
      else
        (.error (.error .value ("Unknown level: " ++ Text.quoted basicFormat)),
          { log with connected := true })
    else
      (.error (.error .attribute ("module 'logging' has no attribute '" ++ name ++ "'")), log)

end Logging

end LinkedTables
