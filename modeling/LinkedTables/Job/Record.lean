import LinkedTables.Job.WriteMethod
import LinkedTables.Json.Parser
import LinkedTables.Json.Printer
import LinkedTables.Warehouse.TableId

set_option autoImplicit false

/-! # Jobs

A job writes one output table. While it runs its details are put on record under the name
of that table, and when it ends they are read back, perhaps by another process: where the
data goes, how it gets there, and what the write method has to know to finish.

The engine that ends a job knows the output table, the properties of the job and perhaps
an id.
-/

namespace LinkedTables

/-- The details of a job that are kept until it ends. -/
structure JobDetails where
  /-- The table of the catalog that the job writes; also the key of the record. -/
  outputTable : Name
  /-- The table of the warehouse that the job writes. -/
  warehouseTable : Option TableId
  /-- The write method that was in effect. -/
  writeMethod : WriteMethod
  /-- The properties of the output table. -/
  tableProperties : Entries String
  /-- What the write method has to know to finish. -/
  staging : Entries String
deriving DecidableEq

namespace JobDetails

/-- Reads the details of a job. -/
def read : Value → Checked JobDetails :=
  Schema.record
    ["output_table", "warehouse_table", "write_method", "table_properties", "staging"]
    fun es =>
      JobDetails.mk <$> Schema.required es "output_table" Schema.name
        <*> Schema.field es "warehouse_table" none (Schema.optional TableId.read)
        <*> Schema.field es "write_method" WriteMethod.direct (Schema.word WriteMethod.ofWord?)
        <*> Schema.field es "table_properties" [] Schema.texts
        <*> Schema.field es "staging" [] Schema.texts

/-- The details of a job as a document. -/
def toValue (d : JobDetails) : Value :=
  .dict [("output_table", .text d.outputTable.text),
    ("warehouse_table", (d.warehouseTable.map TableId.toValue).getD .null),
    ("write_method", .text d.writeMethod.word),
    ("table_properties", .ofTexts d.tableProperties),
    ("staging", .ofTexts d.staging)]

/-- The details of a job as a short text. -/
def toText (d : JobDetails) : String := Json.compact d.toValue

/-- The details of a job as a text for people to read as well. -/
def toIndentedText (d : JobDetails) : String := Json.indented d.toValue

/-- Reads details from their text, in either form. -/
def ofText (s : String) : Checked JobDetails :=
  match Json.parse? s with
  | some v => read v
  | none => .fault .notJson

end JobDetails

/-- What the engine knows of a job that ends. -/
structure JobContext where
  /-- The table that the job says it writes. -/
  outputTable : Option String
  /-- The properties of the job. -/
  properties : Entries String
  /-- The engine's id of the job. -/
  jobId : Option String
deriving DecidableEq, Repr

namespace JobContext

/-- Reads what the engine knows of a job. -/
def read : Value → Checked JobContext :=
  Schema.record ["output_table", "properties", "job_id"] fun es =>
    JobContext.mk <$> Schema.field es "output_table" none (Schema.optional Schema.text)
      <*> Schema.field es "properties" [] Schema.texts
      <*> Schema.field es "job_id" none (Schema.optional Schema.text)

/-- What the engine knows of a job, as a document. -/
def toValue (c : JobContext) : Value :=
  .dict [("output_table", .ofText? c.outputTable),
    ("properties", .ofTexts c.properties), ("job_id", .ofText? c.jobId)]

/-- The key of the job's record: its output table. -/
def key (c : JobContext) : Except Problem Name :=
  match c.outputTable.bind Name.ofText? with
  | some n => .ok n
  | none => .error Failure.noOutputTable.problem

end JobContext

end LinkedTables
