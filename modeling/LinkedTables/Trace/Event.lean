import LinkedTables.Problem

set_option autoImplicit false

/-! # Events

What a computation leaves behind beside its result: the calls it made to its
collaborators, the log lines it wrote and the spans of time it marked for tracing, in one
sequence. The calls are of a type of the computation's own; a computation over `Empty`
makes no calls.
-/

namespace LinkedTables

/-- How important a log line is. -/
inductive Level where
  /-- Of interest when looking for a fault. -/
  | debug
  /-- The usual course of things. -/
  | info
  /-- Something unexpected that was dealt with. -/
  | warning
  /-- Something that failed. -/
  | error
  /-- Something after which nothing can go on. -/
  | critical
deriving DecidableEq, Repr

/-- Where a log line goes. -/
inductive Channel where
  /-- The log that the whole library shares. -/
  | shared
  /-- A log given to one object. -/
  | own
deriving DecidableEq, Repr

/-- What role the work in a span plays between programs. -/
inductive SpanKind where
  /-- Work within the program. -/
  | internal
  /-- An answer to another program's request. -/
  | server
  /-- A request to another program. -/
  | client
  /-- A message put out for others. -/
  | producer
  /-- A message taken in from others. -/
  | consumer
deriving DecidableEq, Repr

/-- One thing that happened in the course of a computation. -/
inductive Event (γ : Type) where
  /-- A collaborator was called. -/
  | called (call : γ)
  /-- A span began. -/
  | spanStarted (name : String) (kind : SpanKind) (attributes : Entries Value)
  /-- The work of a span succeeded. -/
  | spanSucceeded (name : String)
  /-- The work of a span failed, for the reason given. -/
  | spanFailed (name : String) (reason : String)
  /-- A problem was recorded in a span. -/
  | spanProblem (name : String) (problem : Problem)
  /-- A span ended. -/
  | spanEnded (name : String)
  /-- A log line was written. -/
  | logged (channel : Channel) (level : Level) (event : String) (fields : Entries Value)

namespace Event

variable {γ δ : Type}

/-- The same event with its call taken to another type. -/
def map (f : γ → δ) : Event γ → Event δ
  | called call => called (f call)
  | spanStarted name kind attributes => spanStarted name kind attributes
  | spanSucceeded name => spanSucceeded name
  | spanFailed name reason => spanFailed name reason
  | spanProblem name problem => spanProblem name problem
  | spanEnded name => spanEnded name
  | logged channel level event fields => logged channel level event fields

/-- The call that an event is, if it is one. -/
def call? : Event γ → Option γ
  | called call => some call
  | _ => none

end Event

end LinkedTables
