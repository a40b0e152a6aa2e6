import LinkedTables.Problem
import LinkedTables.Schema.Reader

set_option autoImplicit false

/-! # Tables of the warehouse

A table of the warehouse is addressed by its project, its dataset and its name within
that. The three are written with dots between them; an address can be read back from its
text when none of the parts holds a dot.
-/

namespace LinkedTables

/-- The address of a table in the warehouse. -/
structure TableId where
  /-- The project that owns the dataset. -/
  project : Name
  /-- The dataset that holds the table. -/
  dataset : Name
  /-- The name of the table in its dataset. -/
  table : Name
deriving DecidableEq

namespace TableId

/-- The parts of an address in order. -/
def parts (id : TableId) : List String := [id.project.text, id.dataset.text, id.table.text]

/-- The text of an address. -/
def text (id : TableId) : String := String.intercalate "." id.parts

instance : ToString TableId := ⟨text⟩

/-- The address with the given parts, if there are three and none is empty. -/
def ofParts? : List (List Char) → Option TableId
  | [p, d, t] => do
    let project ← Name.ofText? (String.ofList p)
    let dataset ← Name.ofText? (String.ofList d)
    let table ← Name.ofText? (String.ofList t)
    return { project, dataset, table }
  | _ => none

/-- Reads the text of an address. -/
def parse? (s : String) : Option TableId := ofParts? (s.toList.splitOn '.')

/-- The message for a text that is no address. -/
def malformedMessage (s : String) : String :=
  "Invalid BigQuery table identifier: " ++ s ++ ". Expected 'project.dataset.table'"

/-- Reads the text of an address, or tells that it is none. -/
def parse (s : String) : Except Problem TableId :=
  match parse? s with
  | some id => .ok id
  | none => .error (.error .value (malformedMessage s))

/-- Reads an address from a record of its parts. -/
def read : Value → Checked TableId :=
  Schema.record ["project", "dataset", "table"] fun es =>
    TableId.mk <$> Schema.required es "project" Schema.name
      <*> Schema.required es "dataset" Schema.name
      <*> Schema.required es "table" Schema.name

/-- The record of the parts of an address. -/
def toValue (id : TableId) : Value :=
  .dict [("project", .text id.project.text), ("dataset", .text id.dataset.text),
    ("table", .text id.table.text)]

end TableId

end LinkedTables
