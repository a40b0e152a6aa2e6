import LinkedTables.Entries
import LinkedTables.Text.Digit

set_option autoImplicit false

/-! # Names and paths of partitions

A partition is named by its key and value with an equals sign between them. Its data lies
under a relative path with one component per key, in which the characters that mean
something in paths are written as a percent sign and two hexadecimal digits, and an empty
key or value as the name of the default partition.
-/

namespace LinkedTables.PartitionPath

/-- What stands for an empty key or value in a path. -/
def defaultName : String := "__HIVE_DEFAULT_PARTITION__"

/-- The escaped characters beside the control characters below the blank. -/
def escapedMarks : List Char :=
  ['"', '#', '%', '\'', '*', '/', ':', '=', '?', '\\', '\x7f', '\x7b', '[', ']', '^']

/-- Whether a character is escaped in paths. The null character is not. -/
def isEscaped (c : Char) : Bool := (0 < c.toNat && c.toNat < 0x20) || escapedMarks.contains c

/-- A digit of base sixteen, with a capital letter. -/
def capitalHexDigit (n : Nat) : Char :=
  if n < 10 then Char.ofNat ('0'.toNat + n) else Char.ofNat ('A'.toNat + (n - 10))

/-- One character of a key or value. -/
def escapedChar (c : Char) : List Char :=
  if isEscaped c then ['%', capitalHexDigit (c.toNat / 16), capitalHexDigit (c.toNat % 16)]
  else [c]

/-- A key or value in a path. -/
def escapedChars : List Char → List Char
  | [] => defaultName.toList
  | c :: cs => (c :: cs).flatMap escapedChar

/-- A key or value in a path. -/
def escape (s : String) : String := String.ofList (escapedChars s.toList)

/-- The component of a path for one key and its value. -/
def component (key value : String) : List Char :=
  escapedChars key.toList ++ '=' :: escapedChars value.toList

/-- The relative path of the partition with the given values by key. -/
def path (values : Entries String) : String :=
  String.ofList (['/'].intercalate (values.map fun e => component e.1 e.2))

/-- The name of the partition with one value. -/
def partitionName (key value : String) : String := key ++ "=" ++ value

/-- A text without the slashes at its end. -/
def withoutTrailingSlashes (cs : List Char) : List Char :=
  (cs.reverse.dropWhile (· == '/')).reverse

/-- The place of a partition: its path below the place of its table, if that has one. -/
def join (base : Option String) (relative : String) : String :=
  let place := base.getD ""
  if place.isEmpty then relative
  else String.ofList (withoutTrailingSlashes place.toList ++ '/' :: relative.toList)

example : escapedChars ['a', '/', '\n'] = ['a', '%', '2', 'F', '%', '0', 'A'] := by decide

end LinkedTables.PartitionPath
