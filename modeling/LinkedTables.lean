import LinkedTables.Catalog.Answer
import LinkedTables.Catalog.Link
import LinkedTables.Catalog.Request
import LinkedTables.Catalog.Table
import LinkedTables.Entries
import LinkedTables.ErrorKind
import LinkedTables.Failure
import LinkedTables.Files.Fault
import LinkedTables.Files.Path
import LinkedTables.Files.Tree
import LinkedTables.Filter.Basic
import LinkedTables.Filter.Json
import LinkedTables.Filter.PartitionId
import LinkedTables.Filter.Sql
import LinkedTables.Job.Finalize
import LinkedTables.Job.Record
import LinkedTables.Job.Store
import LinkedTables.Job.WorkDir
import LinkedTables.Job.WriteMethod
import LinkedTables.Json.Parser
import LinkedTables.Json.Printer
import LinkedTables.Log.Line
import LinkedTables.Log.Setup
import LinkedTables.Name
import LinkedTables.Number.Binary64
import LinkedTables.Number.Layout
import LinkedTables.Number.Shortest
import LinkedTables.Partition.Date
import LinkedTables.Partition.DayId
import LinkedTables.Partition.Path
import LinkedTables.Problem
import LinkedTables.PublicNames
import LinkedTables.Roles
import LinkedTables.Schema.Fault
import LinkedTables.Schema.Reader
import LinkedTables.Text.Digit
import LinkedTables.Text.Printable
import LinkedTables.Text.Quoted
import LinkedTables.Text.UpperCase
import LinkedTables.Text.Utf8
import LinkedTables.Trace.Event
import LinkedTables.Trace.Run
import LinkedTables.Trace.Span
import LinkedTables.Value
import LinkedTables.Warehouse.Metadata
import LinkedTables.Warehouse.Query
import LinkedTables.Warehouse.TableId
import LinkedTables.Proofs.Catalog.AddressText
import LinkedTables.Proofs.Catalog.Agreement
import LinkedTables.Proofs.Catalog.ByValue
import LinkedTables.Proofs.Catalog.Courses
import LinkedTables.Proofs.Catalog.Keys
import LinkedTables.Proofs.Catalog.Links
import LinkedTables.Proofs.Catalog.Listing
import LinkedTables.Proofs.Catalog.Literals
import LinkedTables.Proofs.Catalog.Notices
import LinkedTables.Proofs.Catalog.OwnFailures
import LinkedTables.Proofs.Catalog.PassThrough
import LinkedTables.Proofs.Catalog.Places
import LinkedTables.Proofs.Catalog.Refusals
import LinkedTables.Proofs.Catalog.Spans
import LinkedTables.Proofs.Catalog.Stages
import LinkedTables.Proofs.Catalog.Stored
import LinkedTables.Proofs.Catalog.Wrapping
import LinkedTables.Proofs.Files.Chains
import LinkedTables.Proofs.Files.Looking
import LinkedTables.Proofs.Files.Making
import LinkedTables.Proofs.Files.Missing
import LinkedTables.Proofs.Files.Places
import LinkedTables.Proofs.Files.Removing
import LinkedTables.Proofs.Files.Routes
import LinkedTables.Proofs.Files.Writing
import LinkedTables.Proofs.Filter.Carried
import LinkedTables.Proofs.Filter.Confined
import LinkedTables.Proofs.Filter.Delimited
import LinkedTables.Proofs.Filter.Documents
import LinkedTables.Proofs.Filter.Form
import LinkedTables.Proofs.Filter.Leaves
import LinkedTables.Proofs.Filter.Pushdown
import LinkedTables.Proofs.Filter.RoundTrip
import LinkedTables.Proofs.Filter.Shape
import LinkedTables.Proofs.Filter.Shown
import LinkedTables.Proofs.Filter.Truth
import LinkedTables.Proofs.Job.Apart
import LinkedTables.Proofs.Job.Cleanup
import LinkedTables.Proofs.Job.Courses
import LinkedTables.Proofs.Job.Directories
import LinkedTables.Proofs.Job.Interleaved
import LinkedTables.Proofs.Job.Names
import LinkedTables.Proofs.Job.Once
import LinkedTables.Proofs.Job.OwnJob
import LinkedTables.Proofs.Job.Parents
import LinkedTables.Proofs.Job.Puts
import LinkedTables.Proofs.Job.Records
import LinkedTables.Proofs.Job.Removal
import LinkedTables.Proofs.Job.Separate
import LinkedTables.Proofs.Job.Serving
import LinkedTables.Proofs.Job.Sharing
import LinkedTables.Proofs.Job.Spans
import LinkedTables.Proofs.Job.Steps
import LinkedTables.Proofs.Job.Stores
import LinkedTables.Proofs.Json.Grammar
import LinkedTables.Proofs.Json.Indented
import LinkedTables.Proofs.Json.Leaves
import LinkedTables.Proofs.Json.NumberText
import LinkedTables.Proofs.Json.Reading
import LinkedTables.Proofs.Json.Writing
import LinkedTables.Proofs.Number.Rounding
import LinkedTables.Proofs.Number.Shortest
import LinkedTables.Proofs.Partition.DashOrder
import LinkedTables.Proofs.Partition.DayId
import LinkedTables.Proofs.Partition.DayValue
import LinkedTables.Proofs.Partition.Decoding
import LinkedTables.Proofs.Partition.Places
import LinkedTables.Proofs.Schema.Accepted
import LinkedTables.Proofs.Schema.Records
import LinkedTables.Proofs.Schema.Written
import LinkedTables.Proofs.Text.Digits
import LinkedTables.Proofs.Trace.Calls
import LinkedTables.Proofs.Trace.Respects
import LinkedTables.Proofs.Trace.Run
import LinkedTables.Proofs.Warehouse.Addressing
import LinkedTables.Proofs.Warehouse.Quotes
