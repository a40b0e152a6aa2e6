import LinkedTables.Catalog.Table
import LinkedTables.Warehouse.TableId

set_option autoImplicit false

/-! # Linked tables

A table of the catalog is linked when a parameter names the storage handler of the
warehouse. Its data then lives in the table of the warehouse that another parameter
addresses, and its partitions are those of that table, under the first partition key.
-/

namespace LinkedTables

/-- The parameter that names a table's storage handler. -/
def storageHandlerKey : String := "storage_handler"

/-- The storage handler of linked tables. -/
def storageHandler : String := "com.google.cloud.hive.bigquery.connector.BigQueryStorageHandler"

/-- The parameter that holds the address of a linked table in the warehouse. -/
def addressKey : String := "bq.table"

/-- Whether the parameters of a table mark it as linked. -/
def isLinked (parameters : Entries String) : Bool :=
  Entries.get? parameters storageHandlerKey == some storageHandler

/-- Whether a table is linked. -/
def Table.isLinked (t : Table) : Bool := LinkedTables.isLinked t.parameters

/-- What a linked table is linked to. -/
structure Link where
  /-- The table of the warehouse. -/
  target : TableId
  /-- The partition key of the catalog. -/
  partitionKey : Name
deriving DecidableEq

namespace Link

/-- The failure that a linked table lacks something. -/
def defect (table message : String) : Problem := (Failure.linkedTable table message).problem

/-- The link that a table's parameters and partition keys describe. The table's name serves
to report what is missing or malformed. -/
def ofParameters (table : String) (parameters : Entries String) (partitionKeys : List String) :
    Except Problem Link :=
  match partitionKeys with
  | [] => .error (defect table "Linked table has no partition key")
  | key :: _ =>
    let address := (Entries.get? parameters addressKey).getD ""
    if address.isEmpty then
      .error (defect table ("Linked table is missing the '" ++ addressKey ++ "' parameter"))
    else
      match TableId.parse address with
      | .error p => .error (.failure (.linkedTable table p.text) (some p))
      | .ok target =>
        match Name.ofText? key with
        | some partitionKey => .ok { target, partitionKey }
        | none => .error (.refused [⟨.emptyText, [.key "partition_column"]⟩])

/-- Reads a link from a record. -/
def read : Value → Checked Link :=
  Schema.record ["table_id", "partition_column"] fun es =>
    Link.mk <$> Schema.required es "table_id" TableId.read
      <*> Schema.required es "partition_column" Schema.name

/-- A link as a document. -/
def toValue (link : Link) : Value :=
  .dict [("table_id", link.target.toValue), ("partition_column", .text link.partitionKey.text)]

/-- The link of a table. -/
def ofTable (t : Table) : Except Problem Link :=
  ofParameters t.qualifiedName t.parameters t.partitionKeys

end Link

end LinkedTables
