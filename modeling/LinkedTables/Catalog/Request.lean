import LinkedTables.Catalog.Table
import LinkedTables.Warehouse.TableId

set_option autoImplicit false

/-! # Requests for partitions

The query engine asks the catalog for the partitions of a table in five ways: by a filter,
all of them, all their names, and partitions or names by given values. Each request says
how many partitions are wanted at most; a number that is not positive sets no limit.

A request about a table that is not linked is passed on to the catalog's own answer as it
is, so it keeps all that it was made with.
-/

namespace LinkedTables

/-- What is asked about a table. -/
inductive Question where
  /-- The partitions that a filter in bytes selects, where a name stands for the default
  partition. -/
  | byFilter (filter : ByteArray) (defaultName : String) (limit : Int)
  /-- All partitions. -/
  | all (limit : Int)
  /-- The names of all partitions. -/
  | names (limit : Int)
  /-- The names of the partitions with given values. -/
  | namesByValues (values : List String) (limit : Int)
  /-- The partitions with given values, asked for by a user who belongs to groups. -/
  | byValues (values : List String) (limit : Int) (user : Option String)
      (groups : Option (List String))

/-- A question about one table. -/
structure Request where
  /-- The catalog that the table belongs to. -/
  catalog : String
  /-- The database that the table belongs to. -/
  database : String
  /-- The name of the table. -/
  table : String
  /-- What is asked. -/
  question : Question

/-- The name under which the catalog offers the answer to a question. -/
def Question.operation : Question → String
  | byFilter .. => "get_partitions_by_expr"
  | all .. => "get_partitions"
  | names .. => "list_partition_names"
  | namesByValues .. => "list_partition_names_ps"
  | byValues .. => "list_partitions_ps_with_auth"

/-- An answer to a request: what the catalog's own answer was, or one of the library's. -/
inductive Reply (δ : Type) where
  /-- The catalog's own answer. -/
  | delegated (answer : δ)
  /-- Partitions selected by a filter. -/
  | listing (l : Listing)
  /-- Partitions. -/
  | partitions (ps : List Partition)
  /-- Names of partitions. -/
  | names (ns : List String)

/-- A call that answering a request makes. -/
inductive CatalogCall where
  /-- A table is looked up in the catalog. -/
  | getTable (catalog database table : String)
  /-- A query is sent to the warehouse. -/
  | query (sql : String)
  /-- The metadata of a table of the warehouse is asked for. -/
  | getMetadata (id : TableId)
  /-- A filter is decoded. -/
  | decode (bytes : ByteArray)
  /-- A request is passed on to the catalog's own answer. -/
  | delegate (request : Request)

end LinkedTables
