import LinkedTables.Schema.Reader

set_option autoImplicit false

/-! # Tables and partitions of the catalog

The records that the catalog exchanges with the query engine: tables with their
parameters, partition keys and storage, partitions with their values, and listings of
partitions. Each record has a reader and a document form with all its fields in order.
-/

namespace LinkedTables

/-- How rows are turned into bytes and back. -/
structure SerDe where
  /-- The name of the settings. -/
  name : Option String
  /-- The library that does the work. -/
  library : Option String
  /-- Further settings by key. -/
  parameters : Entries String
deriving DecidableEq, Repr

/-- Where and how the data of a table or a partition is stored. -/
structure Storage where
  /-- The place of the data. -/
  location : Option String
  /-- How rows are turned into bytes and back. -/
  serDe : Option SerDe
deriving DecidableEq, Repr

/-- A table of the catalog. -/
structure Table where
  /-- The catalog that the table belongs to. -/
  catalog : String
  /-- The database that the table belongs to. -/
  database : Name
  /-- The name of the table in its database. -/
  name : Name
  /-- The parameters of the table. -/
  parameters : Entries String
  /-- The names of the partition keys, in order. -/
  partitionKeys : List String
  /-- Where and how the data is stored. -/
  storage : Storage
deriving DecidableEq

/-- A partition of a table of the catalog. -/
structure Partition where
  /-- The catalog that the table belongs to. -/
  catalog : String
  /-- The database that the table belongs to. -/
  database : String
  /-- The name of the table. -/
  table : String
  /-- The values of the partition keys, in the order of the keys. -/
  values : List String
  /-- Where and how the data is stored. -/
  storage : Storage
  /-- The parameters of the partition. -/
  parameters : Entries String
deriving DecidableEq, Repr

/-- Partitions that were asked for by a filter. -/
structure Listing where
  /-- The partitions. -/
  partitions : List Partition
  /-- Whether there may be partitions among them that the filter rules out. -/
  mayExceed : Bool
deriving DecidableEq, Repr

namespace SerDe

/-- Reads the settings. -/
def read : Value → Checked SerDe :=
  Schema.record ["name", "serialization_lib", "parameters"] fun es =>
    SerDe.mk <$> Schema.field es "name" none (Schema.optional Schema.text)
      <*> Schema.field es "serialization_lib" none (Schema.optional Schema.text)
      <*> Schema.field es "parameters" [] Schema.texts

/-- The settings as a document. -/
def toValue (s : SerDe) : Value :=
  .dict [("name", .ofText? s.name), ("serialization_lib", .ofText? s.library),
    ("parameters", .ofTexts s.parameters)]

end SerDe

namespace Storage

/-- Storage about which nothing is known. -/
def unknown : Storage := ⟨none, none⟩

/-- Reads a description of storage. -/
def read : Value → Checked Storage :=
  Schema.record ["location", "serde_info"] fun es =>
    Storage.mk <$> Schema.field es "location" none (Schema.optional Schema.text)
      <*> Schema.field es "serde_info" none (Schema.optional SerDe.read)

/-- The description of storage as a document. -/
def toValue (s : Storage) : Value :=
  .dict [("location", .ofText? s.location),
    ("serde_info", (s.serDe.map SerDe.toValue).getD .null)]

end Storage

namespace Table

/-- The name of a table with its database before it. -/
def qualifiedName (t : Table) : String := t.database.text ++ "." ++ t.name.text

/-- Reads a table. -/
def read : Value → Checked Table :=
  Schema.record
    ["catalog_name", "db_name", "table_name", "parameters", "partition_keys", "storage"]
    fun es =>
      Table.mk <$> Schema.required es "catalog_name" Schema.text
        <*> Schema.required es "db_name" Schema.name
        <*> Schema.required es "table_name" Schema.name
        <*> Schema.field es "parameters" [] Schema.texts
        <*> Schema.field es "partition_keys" [] (Schema.list Schema.text)
        <*> Schema.field es "storage" Storage.unknown Storage.read

/-- A table as a document. -/
def toValue (t : Table) : Value :=
  .dict [("catalog_name", .text t.catalog), ("db_name", .text t.database.text),
    ("table_name", .text t.name.text), ("parameters", .ofTexts t.parameters),
    ("partition_keys", .list (t.partitionKeys.map .text)), ("storage", t.storage.toValue)]

end Table

namespace Partition

/-- Reads a partition. -/
def read : Value → Checked Partition :=
  Schema.record ["catalog_name", "db_name", "table_name", "values", "storage", "parameters"]
    fun es =>
      Partition.mk <$> Schema.required es "catalog_name" Schema.text
        <*> Schema.required es "db_name" Schema.text
        <*> Schema.required es "table_name" Schema.text
        <*> Schema.required es "values" (Schema.list Schema.text)
        <*> Schema.required es "storage" Storage.read
        <*> Schema.field es "parameters" [] Schema.texts

/-- A partition as a document. -/
def toValue (p : Partition) : Value :=
  .dict [("catalog_name", .text p.catalog), ("db_name", .text p.database),
    ("table_name", .text p.table), ("values", .list (p.values.map .text)),
    ("storage", p.storage.toValue), ("parameters", .ofTexts p.parameters)]

end Partition

namespace Listing

/-- Reads a listing. -/
def read : Value → Checked Listing :=
  Schema.record ["partitions", "has_unknown_partitions"] fun es =>
    Listing.mk <$> Schema.field es "partitions" [] (Schema.list Partition.read)
      <*> Schema.field es "has_unknown_partitions" false Schema.bool

/-- A listing as a document. -/
def toValue (l : Listing) : Value :=
  .dict [("partitions", .list (l.partitions.map Partition.toValue)),
    ("has_unknown_partitions", .bool l.mayExceed)]

end Listing

end LinkedTables
