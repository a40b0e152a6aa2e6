import LinkedTables.Catalog.Link
import LinkedTables.Catalog.Request
import LinkedTables.Filter.Json
import LinkedTables.Partition.DayId
import LinkedTables.Partition.Path
import LinkedTables.Trace.Span
import LinkedTables.Warehouse.Query

set_option autoImplicit false

/-! # Answering requests for partitions

Requests about linked tables are answered from the warehouse: the ids of the partitions
are queried there, with the filter and the limit as far as they can be passed on, and
become values, names or partitions of the catalog. All other requests are passed on.

What is listed by a filter may exceed it, since the engine applies the filter again; a
limit is not passed on with a filter.

A problem of a collaborator becomes a failure that names the call and keeps the problem as
its cause; the library's own failures and interruptions pass unchanged. Nothing is tried
again.
-/

namespace LinkedTables

variable {σ δ : Type}

/-- What requests are answered with: the clients of the catalog and the warehouse, the
decoder of filters, the catalog's own answers, and the log for what is noticed. Filters are
JSON documents unless another decoder is given. -/
structure Clients (σ δ : Type) where
  /-- Looks up a table in the catalog. -/
  getTable : String → String → String → Run Empty σ Table
  /-- Sends a query to the warehouse. -/
  query : String → Run Empty σ Rows
  /-- Asks for the metadata of a table of the warehouse. -/
  getMetadata : TableId → Run Empty σ TableMetadata
  /-- Decodes the bytes of a filter. -/
  decode : ByteArray → Run Empty σ Filter := fun bytes => Run.ofExcept (Filter.decode bytes)
  /-- Gives the catalog's own answer to a request. -/
  delegate : Request → Run Empty σ δ
  /-- The log for what is noticed. -/
  channel : Channel := .shared

namespace Clients

variable (c : Clients σ δ)

/-- Looks up a table, if it is linked. -/
def linkedTable (catalog database table : String) : Run CatalogCall σ (Option Table) := do
  let t ← (Run.calling (.getTable catalog database table)
    (c.getTable catalog database table)).mapProblem
      (Problem.wrapped fun text => .catalogCall (some "get_table") (some text))
  return if t.isLinked then some t else none

/-- Decodes the bytes of a filter. -/
def decoded (bytes : ByteArray) : Run CatalogCall σ Filter :=
  (Run.calling (.decode bytes) (c.decode bytes)).mapProblem
    (Problem.wrapped fun text => .filterBytes (some text))

/-- Queries the warehouse for partition ids. -/
def queriedIds (sql : String) : Run CatalogCall σ (List String) :=
  Run.mapProblem (Problem.wrapped fun text => .warehouseCall (some "query") (some text)) do
    let rows ← Run.calling (.query sql) (c.query sql)
    Run.ofExcept rows.texts

/-- Asks for the metadata of a table of the warehouse. -/
def metadata (id : TableId) : Run CatalogCall σ TableMetadata :=
  (Run.calling (.getMetadata id) (c.getMetadata id)).mapProblem
    (Problem.wrapped fun text => .warehouseCall (some "get_table_metadata") (some text))

/-- What log lines say of a linked table. -/
def logNames (t : Table) (link : Link) : Entries Value :=
  [("table", .text t.qualifiedName), ("bigquery_table", .text link.target.text)]

/-- Fetches the values of the partitions that a filter over partition ids selects. Ids that
no value could be made from are noticed in the log. -/
def fetchValues (t : Table) (filter : Option Filter) (limit : Int) :
    Run CatalogCall σ (List String) := do
  let link ← Run.ofExcept (Link.ofTable t)
  let sql ← Run.ofExcept (link.target.filteredQuery filter limit)
  let ids ← (Span.warehouseQuery sql).around (c.queriedIds sql)
  let m ← c.metadata link.target
  let values ← Run.ofExcept (DayId.convert ids m.timePartitioning)
  if !ids.isEmpty && values.isEmpty then
    Run.log c.channel .warning "partition_enumeration_unsupported"
      (logNames t link ++
        [("time_partitioning", .ofText? (m.timePartitioning.map (·.granularity.word)))])
  Run.log c.channel .debug "partition_ids_fetched"
    (logNames t link ++ [("count", .int values.length)])
  return values

/-- The partition of a linked table with a given value. -/
def synthesized (t : Table) (key value : String) : Partition where
  catalog := t.catalog
  database := t.database.text
  table := t.name.text
  values := [value]
  storage :=
    { location := some (PartitionPath.join t.storage.location (PartitionPath.path [(key, value)]))
      serDe := t.storage.serDe }
  parameters := []

/-- Fetches the partitions that a filter over partition ids selects. -/
def fetchPartitions (t : Table) (filter : Option Filter) (limit : Int) :
    Run CatalogCall σ (List Partition) := do
  let link ← Run.ofExcept (Link.ofTable t)
  let values ← c.fetchValues t filter limit
  return values.map (synthesized t link.partitionKey.text)

/-- Fetches the names of the partitions that a filter over partition ids selects. -/
def fetchNames (t : Table) (filter : Option Filter) (limit : Int) :
    Run CatalogCall σ (List String) := do
  let link ← Run.ofExcept (Link.ofTable t)
  let values ← c.fetchValues t filter limit
  return values.map (PartitionPath.partitionName link.partitionKey.text)

/-- The filter for given values of the partition keys, of which only the first counts; no
value or an empty one selects every partition. -/
def valuesFilter : List String → Option Filter
  | [] => none
  | v :: _ =>
    if v.isEmpty then none
    else some (.equal Filter.partitionIdColumn (.text (Filter.withoutDashes v))
      Filter.defaultType)

/-- Answers a question about a linked table. -/
def answerLinked (t : Table) : Question → Run CatalogCall σ (Reply δ)
  | .byFilter bytes _ _ => do
    let f ← c.decoded bytes
    let onIds ← Run.ofExcept f.toPartitionId
    let ps ← c.fetchPartitions t (some onIds) (-1)
    return .listing ⟨ps, true⟩
  | .all limit => do
    return .partitions (← c.fetchPartitions t none limit)
  | .names limit => do
    return .names (← c.fetchNames t none limit)
  | .namesByValues values limit => do
    return .names (← c.fetchNames t (valuesFilter values) limit)
  | .byValues values limit _ _ => do
    return .partitions (← c.fetchPartitions t (valuesFilter values) limit)

/-- Answers a request. -/
def answer (r : Request) : Run CatalogCall σ (Reply δ) :=
  (Span.metastoreOperation r.question.operation (some r.catalog) (some r.database)
    (some r.table)).around do
      match ← c.linkedTable r.catalog r.database r.table with
      | some t => c.answerLinked t r.question
      | none => return .delegated (← Run.calling (.delegate r) (c.delegate r))

end Clients

end LinkedTables
