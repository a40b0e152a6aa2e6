set_option autoImplicit false

/-! # Roles

The library asks its collaborators for certain operations. A role is the set of operations
that one kind of collaborator has to offer, and whatever offers them all can play it. The
library's own parts play roles too: the library answers requests in place of the catalog
that it stands before, and brings a decoder, two stores and a cleaner of its own.
-/

namespace LinkedTables

/-- What a collaborator can be asked to be. -/
inductive Role where
  /-- Looks up tables in the catalog. -/
  | catalogClient
  /-- Answers queries and describes tables in the warehouse. -/
  | warehouseClient
  /-- Turns bytes into filters. -/
  | filterDecoder
  /-- Answers requests for partitions. -/
  | partitionCatalog
  /-- Finishes the work of a job. -/
  | writeStrategy
  /-- Finishes or undoes the work of a job. -/
  | rollbackStrategy
  /-- Removes what a job left behind. -/
  | cleaner
  /-- Keeps the details of jobs. -/
  | detailsStore
deriving DecidableEq, Repr

namespace Role

/-- The operations that a role asks for. -/
def operations : Role → List String
  | catalogClient => ["get_table"]
  | warehouseClient => ["query", "get_table_metadata"]
  | filterDecoder => ["decode"]
  | partitionCatalog =>
    ["get_partitions_by_expr", "get_partitions", "list_partition_names",
      "list_partition_names_ps", "list_partitions_ps_with_auth"]
  | writeStrategy => ["commit_job"]
  | rollbackStrategy => ["commit_job", "abort_job"]
  | cleaner => ["delete"]
  | detailsStore => ["put", "get"]

/-- Whether something with the given operations can play a role. -/
def playedBy (role : Role) (offered : List String) : Bool :=
  role.operations.all offered.contains

end Role

/-- The parts of the library that can play a role. -/
inductive Part where
  /-- The decoder of filters in JSON. -/
  | jsonDecoder
  /-- The store that keeps records in memory. -/
  | memoryStore
  /-- The store that keeps records in files. -/
  | fileStore
  /-- What removes work directories. -/
  | workDirCleaner
  /-- What answers requests for partitions. -/
  | linkedCatalog
  /-- What commits and aborts jobs. -/
  | finalizer
deriving DecidableEq, Repr

/-- The operations that a part offers. -/
def Part.operations : Part → List String
  | jsonDecoder => ["decode", "encode"]
  | memoryStore => ["put", "get"]
  | fileStore => ["put", "get", "path_for"]
  | workDirCleaner => ["delete", "path_for"]
  | linkedCatalog =>
    Role.partitionCatalog.operations ++
      ["default", "get_linked_table", "fetch_partition_values", "fetch_partitions"]
  | finalizer =>
    ["setup_job", "commit", "finalize", "abort", "setup_task", "needs_task_commit",
      "commit_task", "abort_task"]

example : Role.partitionCatalog.playedBy Part.linkedCatalog.operations = true := by decide

example : Role.detailsStore.playedBy Part.workDirCleaner.operations = false := by decide

end LinkedTables
