import LinkedTables.Value

set_option autoImplicit false

/-! # Failures

The ways in which the library itself refuses or gives up, one constructor per cause. Each
has a message and, beside it, details by key; its text is the message followed by the
details in parentheses. Every failure is final: nothing is tried again.

Some failures may be given a wording of their own in place of the usual message; an empty
wording is none.

The usual message for a part of a filter shows that part. Where it has no display the failure
cannot be made, and the error met in showing it takes its place; so these failures keep their
message, and `Failure.ofNode` and `Failure.ofConstant` make them.
-/

namespace LinkedTables

/-- A value with the name of the type that it was declared to have. -/
structure TypedValue where
  /-- The name of the declared type. -/
  typeName : String
  /-- The value. -/
  value : Value

/-- Why the library refused or gave up. -/
inductive Failure where
  /-- A failure known by its message and details alone. -/
  | general (message : String) (details : Entries String)
  /-- A job or a table is not set up as it has to be. -/
  | configuration (message : String) (details : Entries String)
  /-- The write method asked for is not one of those known. -/
  | writeMethod (setting : String) (wording : Option String)
  /-- A job does not say which table it writes. -/
  | outputTable (message : String)
  /-- A linked table lacks what is needed to reach the warehouse. -/
  | linkedTable (table message : String)
  /-- A collaborator failed. -/
  | collaborator (message : String) (operation cause : Option String)
  /-- A call to the catalog failed. -/
  | catalogCall (operation cause : Option String)
  /-- A call to the warehouse failed. -/
  | warehouseCall (operation cause : Option String)
  /-- The bytes of a filter could not be decoded. -/
  | filterBytes (cause : Option String)
  /-- A partition id of the warehouse is not a date. -/
  | partitionId (id : String) (cause : Option String)
  /-- A part of a filter is none of the three kinds of node. -/
  | filterNode (node : Value) (message : String)
  /-- A constant of a filter is not a text. -/
  | filterConstant (constant : TypedValue) (message : String)
  /-- The details on record belong to another output table. -/
  | jobMismatch (expected actual : String)
  /-- There are no details on record for a job. -/
  | jobNotFound (key : String) (wording : Option String)

namespace Failure

/-- A wording, or the usual message if the wording is missing or empty. -/
def worded (wording : Option String) (usual : String) : String :=
  match wording with
  | some w => if w.isEmpty then usual else w
  | none => usual

/-- The message of a failure, without its details. -/
def message : Failure → String
  | general m _ => m
  | configuration m _ => m
  | writeMethod setting w => worded w ("Invalid write method setting: " ++ setting)
  | outputTable m => m
  | linkedTable _ m => m
  | collaborator m _ _ => m
  | catalogCall _ _ => "Catalog client call failed"
  | warehouseCall _ _ => "Warehouse client call failed"
  | filterBytes _ => "Failed to decode partition filter expression"
  | partitionId id _ => "Unparseable partition id: " ++ id
  | filterNode _ m => m
  | filterConstant _ m => m
  | jobMismatch _ _ => "Hive table not matching in job details and job context"
  | jobNotFound key w => worded w ("Job details not found: " ++ key)

/-- A detail that is left out if it is missing or empty. -/
def detail (key : String) : Option String → Entries String
  | some s => if s.isEmpty then [] else [(key, s)]
  | none => []

/-- The operation and the cause of a collaborator's failure, as far as they are known. -/
def callDetails (operation cause : Option String) : Entries String :=
  detail "operation" operation ++ detail "cause" cause

/-- The operation in whose course the bytes of a filter are decoded. -/
def decodeOperation : String := "decode_expression"

/-- The operation in whose course partition ids are converted. -/
def convertOperation : String := "convert_partition_ids"

/-- The details of a failure, in order. -/
def details : Failure → Entries String
  | general _ ds => ds
  | configuration _ ds => ds
  | writeMethod setting _ => [("write_method", setting)]
  | outputTable _ => []
  | linkedTable table _ => [("table", table)]
  | collaborator _ operation cause => callDetails operation cause
  | catalogCall operation cause => callDetails operation cause
  | warehouseCall operation cause => callDetails operation cause
  | filterBytes cause => callDetails decodeOperation cause
  | partitionId _ cause => callDetails convertOperation cause
  | filterNode node _ => [("node_type", node.typeName)]
  | filterConstant _ _ => [("node_type", "ConstantLiteral")]
  | jobMismatch expected actual => [("expected", expected), ("actual", actual)]
  | jobNotFound key _ => [("job_key", key)]

/-- The name of the kind of a failure. -/
def word : Failure → String
  | general _ _ => "HiveBigQueryError"
  | configuration _ _ => "ConfigurationError"
  | writeMethod _ _ => "InvalidWriteMethodError"
  | outputTable _ => "MissingOutputTableError"
  | linkedTable _ _ => "LinkedTableConfigError"
  | collaborator _ _ _ => "UpstreamClientError"
  | catalogCall _ _ => "CatalogClientError"
  | warehouseCall _ _ => "WarehouseClientError"
  | filterBytes _ => "ExpressionDecodeError"
  | partitionId _ _ => "PartitionIdFormatError"
  | filterNode _ _ => "FilterTranslationError"
  | filterConstant _ _ => "FilterTranslationError"
  | jobMismatch _ _ => "JobStateMismatchError"
  | jobNotFound _ _ => "JobDetailsNotFoundError"

/-- The names of the wider kinds that a failure also belongs to, the closest first. Every
failure is a general one, those of settings are failures of configuration, and those of calls
and of the data that they bring are failures of collaborators. -/
def families : Failure → List String
  | general _ _ => []
  | writeMethod _ _ | outputTable _ | linkedTable _ _ =>
    ["ConfigurationError", "HiveBigQueryError"]
  | catalogCall _ _ | warehouseCall _ _ | filterBytes _ | partitionId _ _ =>
    ["UpstreamClientError", "HiveBigQueryError"]
  | configuration _ _ | collaborator _ _ _ | filterNode _ _ | filterConstant _ _
  | jobMismatch _ _ | jobNotFound _ _ => ["HiveBigQueryError"]

/-- A message followed by its details in parentheses, if there are any. -/
def withDetails (message : String) : Entries String → String
  | [] => message
  | ds => message ++ " (" ++ String.intercalate ", " (ds.map fun d => d.1 ++ "=" ++ d.2) ++ ")"

/-- The text of a failure. -/
def text (f : Failure) : String := withDetails f.message f.details

/-- What a failure tells beside its message and details, by name. -/
def attributes : Failure → Entries Value
  | general _ _ => []
  | configuration _ _ => []
  | writeMethod setting _ => [("write_method", .text setting)]
  | outputTable _ => []
  | linkedTable table _ => [("table", .text table)]
  | collaborator _ operation cause => call operation cause
  | catalogCall operation cause => call operation cause
  | warehouseCall operation cause => call operation cause
  | filterBytes cause => call decodeOperation cause
  | partitionId id cause => call convertOperation cause ++ [("partition_id", .text id)]
  | filterNode node _ => [("node", node)]
  | filterConstant c _ =>
    [("node", .dict [("kind", .text "constant"), ("type_name", .text c.typeName),
      ("value", c.value)])]
  | jobMismatch expected actual => [("expected", .text expected), ("actual", .text actual)]
  | jobNotFound key _ => [("job_key", .text key)]
where
  /-- The operation and the cause of a collaborator's failure. -/
  call (operation cause : Option String) : Entries Value :=
    [("operation", .ofText? operation), ("cause", .ofText? cause)]

/-- The failure for a part of a filter that is no node. The part is shown only if no wording
is given. -/
def ofNode (node : Value) (wording : Option String) : Except NoText Failure :=
  match wording.filter fun w => !w.isEmpty with
  | some w => .ok (filterNode node w)
  | none => node.display.map fun s => filterNode node ("Unexpected filter type: " ++ s)

/-- The failure for a constant of a filter that is no text. -/
def ofConstant (c : TypedValue) : Except NoText Failure :=
  c.value.display.map fun s =>
    filterConstant c ("Partition filter constant must be a string, got: " ++ s)

/-- The usual message for a job without output table. -/
def noOutputTable : Failure := outputTable "Job context does not have output table name"

@[simp] theorem ofNode_none (node : Value) : ofNode node none =
    node.display.map fun s => filterNode node ("Unexpected filter type: " ++ s) := rfl

@[simp] theorem worded_none (usual : String) : worded none usual = usual := rfl

@[simp] theorem withDetails_nil (message : String) : withDetails message [] = message := rfl

end Failure

end LinkedTables
