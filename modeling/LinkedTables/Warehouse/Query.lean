import LinkedTables.Filter.PartitionId
import LinkedTables.Filter.Sql
import LinkedTables.Warehouse.TableId

set_option autoImplicit false

/-! # Queries for partition ids

The partitions of a table are listed by a view of its dataset. A query asks the view for
the ids of one table's partitions, where a filter over the ids and a limit on their number
may follow; a limit that is not positive is none.

The answer is a sequence of rows, which may break off with a problem. Of each row only the
first cell is read, as text; a row without cells or whose first cell has no text is a problem
too.
-/

namespace LinkedTables

namespace TableId

/-- The query for the ids of all partitions of a table. -/
def baseQuery (id : TableId) : String :=
  "SELECT " ++ Filter.partitionIdColumn ++ " FROM `" ++ id.project.text ++ "." ++
    id.dataset.text ++ ".INFORMATION_SCHEMA.PARTITIONS` WHERE table_name = '" ++
    id.table.text ++ "'"

/-- The clause for a limit on the number of partitions, which is taken to be short enough to
be written. -/
def limitClause (limit : Int) : String :=
  if 0 < limit then " LIMIT " ++ String.ofList (Text.intDigits limit) else ""

/-- The clause for a condition on partition ids. -/
def conditionClause : Option String → String
  | some condition => " AND " ++ condition
  | none => ""

/-- The query for the ids of a table's partitions, with a condition and a limit. -/
def query (id : TableId) (condition : Option String) (limit : Int) : String :=
  id.baseQuery ++ conditionClause condition ++ limitClause limit

/-- The query for the ids of a table's partitions that a filter selects. The filter must
have an expression. -/
def filteredQuery (id : TableId) (filter : Option Filter) (limit : Int) :
    Except Problem String :=
  match filter with
  | none => .ok (id.query none limit)
  | some f =>
    match f.sql with
    | .ok condition => .ok (id.query (some condition) limit)
    | .error p => .error p

end TableId

/-- The rows of an answer, and what broke it off, if anything did. -/
structure Rows where
  /-- The cells of each row. -/
  rows : List (List Value)
  /-- The problem that came in place of further rows. -/
  ending : Option Problem

namespace Rows

/-- The problem of a row without cells. -/
def noCell : Problem := .error .position "tuple index out of range"

/-- The text of the first cell of a row. -/
def firstCell : List Value → Except Problem String
  | [] => .error noCell
  | v :: _ =>
    match v.noText? with
    | some e => .error e.problem
    | none => .ok v.shown

/-- The texts of the first cells of rows, up to a row that has none or the end. -/
def firstCells (ending : Option Problem) : List (List Value) → Except Problem (List String)
  | [] =>
    match ending with
    | none => .ok []
    | some p => .error p
  | row :: rows =>
    match firstCell row with
    | .error p => .error p
    | .ok text =>
      match firstCells ending rows with
      | .ok texts => .ok (text :: texts)
      | .error p => .error p

/-- The texts of the first cells of an answer. -/
def texts (r : Rows) : Except Problem (List String) := firstCells r.ending r.rows

end Rows

end LinkedTables
