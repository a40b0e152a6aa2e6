import LinkedTables.Trace.Run

set_option autoImplicit false

/-! # Spans

Work that others may want to follow is done inside a span: a stretch of the trace with a
name, a kind and attributes. Its start and its end are logged as well, unless the span says
otherwise. Work that fails leaves the reason in the span and in the log and then fails as
before; work that is interrupted leaves neither, and only the end of the span is recorded.
-/

namespace LinkedTables

/-- A span of work. -/
structure Span where
  /-- The name of the span. -/
  name : String
  /-- The role of the work. -/
  kind : SpanKind
  /-- What else is known of the work when it starts. -/
  attributes : Entries Value
  /-- Whether the start is logged. -/
  logsStart : Bool
  /-- Whether the end of successful work is logged. -/
  logsEnd : Bool

namespace Span

variable {γ σ α : Type}

/-- The events before the work. -/
def opening (s : Span) : List (Event γ) :=
  .spanStarted s.name s.kind s.attributes ::
    (if s.logsStart then [.logged .shared .debug (s.name ++ "_started") s.attributes] else [])

/-- The events after the work. -/
def closing (s : Span) : Except Problem α → List (Event γ)
  | .ok _ =>
    .spanSucceeded s.name ::
      ((if s.logsEnd then [.logged .shared .info (s.name ++ "_completed") s.attributes] else [])
        ++ [.spanEnded s.name])
  | .error (.interrupt _) => [.spanEnded s.name]
  | .error p =>
    [.spanFailed s.name p.text, .spanProblem s.name p,
      .logged .shared .error (s.name ++ "_failed") (("error", .text p.text) :: s.attributes),
      .spanEnded s.name]

/-- Does work inside a span. -/
def around (s : Span) (work : Run γ σ α) : Run γ σ α := fun state =>
  let o := work state
  ⟨s.opening ++ o.events ++ s.closing o.result, o.state, o.result⟩

@[simp] theorem around_state (s : Span) (work : Run γ σ α) (state : σ) :
    (s.around work state).state = (work state).state := rfl

@[simp] theorem around_result (s : Span) (work : Run γ σ α) (state : σ) :
    (s.around work state).result = (work state).result := rfl

/-! ## The library's spans -/

/-- An attribute that is left out if it is missing or empty. -/
def known (key : String) (value : Option String) : Entries Value :=
  match value with
  | some s => if s.isEmpty then [] else [(key, .text s)]
  | none => []

/-- An answer to a query of the engine about a table. -/
def metastoreOperation (operation : String) (catalog database table : Option String) : Span where
  name := "metastore." ++ operation
  kind := .server
  attributes :=
    ("metastore.operation", .text operation) ::
      (known "metastore.catalog" catalog ++ known "metastore.database" database ++
        known "metastore.table" table)
  logsStart := true
  logsEnd := true

/-- The end of a job. -/
def jobOperation (operation : String) (outputTable writeMethod : Option String) : Span where
  name := "job." ++ operation
  kind := .internal
  attributes :=
    ("job.operation", .text operation) ::
      (known "job.output_table" outputTable ++ known "job.write_method" writeMethod)
  logsStart := true
  logsEnd := true

/-- A query to the warehouse, whose success is not logged. -/
def warehouseQuery (sql : String) : Span where
  name := "warehouse.query"
  kind := .client
  attributes := [("db.system", .text "bigquery"), ("db.statement", .text sql)]
  logsStart := true
  logsEnd := false

end Span

end LinkedTables
