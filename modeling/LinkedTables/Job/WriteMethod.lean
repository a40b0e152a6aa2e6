import LinkedTables.Problem

set_option autoImplicit false

/-! # Write methods

Data reaches the warehouse directly, as rows that are streamed while the job runs, or
indirectly, as files that are loaded when it commits. A property of the job says which; if
it is not there the method is the direct one.
-/

namespace LinkedTables

/-- How a job brings its data into the warehouse. -/
inductive WriteMethod where
  /-- Rows are streamed while the job runs. -/
  | direct
  /-- Files are put aside and loaded when the job commits. -/
  | indirect
deriving DecidableEq, Repr

namespace WriteMethod

/-- The property of a job that names its write method. -/
def key : String := "bq.write.method"

/-- The word for a write method. -/
def word : WriteMethod → String
  | direct => "direct"
  | indirect => "indirect"

/-- The write method that a word stands for. -/
def ofWord? (s : String) : Option WriteMethod := [direct, indirect].find? fun m => m.word == s

@[simp] theorem ofWord?_word (m : WriteMethod) : ofWord? m.word = some m := by
  cases m <;> decide

/-- Reads a setting, or refuses it. -/
def parse (setting : String) : Except Problem WriteMethod :=
  match ofWord? setting with
  | some m => .ok m
  | none =>
    .error (.failure (.writeMethod setting none)
      (some (.error .value (Text.quoted setting ++ " is not a valid WriteMethod"))))

/-- The write method that the properties of a job ask for. -/
def ofProperties (properties : Entries String) : Except Problem WriteMethod :=
  parse ((Entries.get? properties key).getD direct.word)

end WriteMethod

end LinkedTables
