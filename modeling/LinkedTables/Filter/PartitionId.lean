import LinkedTables.Filter.Basic
import LinkedTables.Problem

set_option autoImplicit false

/-! # Filters over partition ids

The catalog filters a table by the values of its partition key, which are dates written
with dashes; the warehouse lists partitions by one column of ids, which are dates written
without. A filter over the key becomes a filter over the ids by naming that column in place
of every column and by leaving the dashes out of every constant; operators and the shape of
the tree stay as they are. Only constants that are texts can be carried over. What cannot is
refused with a failure that shows it, or with the error met in showing it.
-/

namespace LinkedTables.Filter

/-- The column of partition ids. -/
def partitionIdColumn : String := "partition_id"

/-- A text without its dashes. -/
def withoutDashes (s : String) : String := String.ofList (s.toList.filter (· != '-'))

mutual

/-- A filter over the partition key as a filter over partition ids. The first part that
cannot be carried over, from left to right, is the reason for a refusal. -/
def toPartitionId : Filter → Except Problem Filter
  | call operator operands =>
    match toPartitionIds operands with
    | .ok fs => .ok (call operator fs)
    | .error e => .error e
  | column _ => .ok (column partitionIdColumn)
  | constant typeName (.text s) => .ok (constant typeName (.text (withoutDashes s)))
  | constant typeName v => .error (.ofFailure (Failure.ofConstant ⟨typeName, v⟩))
  | foreign v => .error (.ofFailure (Failure.ofNode v none))

/-- `toPartitionId` for each operand of a call. -/
def toPartitionIds : List Filter → Except Problem (List Filter)
  | [] => .ok []
  | f :: fs =>
    match toPartitionId f with
    | .error e => .error e
    | .ok g =>
      match toPartitionIds fs with
      | .error e => .error e
      | .ok gs => .ok (g :: gs)

end

end LinkedTables.Filter
