import LinkedTables.Schema.Reader

set_option autoImplicit false

/-! # Time partitioning in the warehouse

A table of the warehouse may be partitioned by time, at one of four granularities, by a
column or by the time at which rows arrived. This is all that the library needs to know of
a table beside its address.
-/

namespace LinkedTables

/-- The granularities of time partitioning. -/
inductive Granularity where
  /-- One partition per hour. -/
  | hour
  /-- One partition per day. -/
  | day
  /-- One partition per month. -/
  | month
  /-- One partition per year. -/
  | year
deriving DecidableEq, Repr

namespace Granularity

/-- All granularities. -/
def all : List Granularity := [hour, day, month, year]

/-- The word for a granularity. -/
def word : Granularity → String
  | hour => "HOUR"
  | day => "DAY"
  | month => "MONTH"
  | year => "YEAR"

/-- The granularity that a word stands for. -/
def ofWord? (s : String) : Option Granularity := all.find? fun g => g.word == s

@[simp] theorem ofWord?_word (g : Granularity) : ofWord? g.word = some g := by
  cases g <;> decide

end Granularity

/-- How a table is partitioned by time. -/
structure TimePartitioning where
  /-- The length of time that one partition covers. -/
  granularity : Granularity
  /-- The column that holds the time, or none where it is the time of arrival. -/
  column : Option String
deriving DecidableEq, Repr

/-- What the library needs to know of a table in the warehouse. -/
structure TableMetadata where
  /-- How the table is partitioned by time, if it is. -/
  timePartitioning : Option TimePartitioning
deriving DecidableEq, Repr

namespace TimePartitioning

/-- Reads a description of time partitioning. -/
def read : Value → Checked TimePartitioning :=
  Schema.record ["type", "field"] fun es =>
    TimePartitioning.mk <$> Schema.required es "type" (Schema.word Granularity.ofWord?)
      <*> Schema.field es "field" none (Schema.optional Schema.text)

/-- The description of time partitioning as a document. -/
def toValue (p : TimePartitioning) : Value :=
  .dict [("type", .text p.granularity.word), ("field", .ofText? p.column)]

end TimePartitioning

namespace TableMetadata

/-- Reads the metadata of a table. -/
def read : Value → Checked TableMetadata :=
  Schema.record ["time_partitioning"] fun es =>
    TableMetadata.mk <$>
      Schema.field es "time_partitioning" none (Schema.optional TimePartitioning.read)

/-- The metadata of a table as a document. -/
def toValue (m : TableMetadata) : Value :=
  .dict [("time_partitioning", (m.timePartitioning.map TimePartitioning.toValue).getD .null)]

end TableMetadata

end LinkedTables
