import LinkedTables.Job.Store
import LinkedTables.Trace.Span

set_option autoImplicit false

/-! # Finalizing jobs

When a job ends, the engine either commits or aborts it. Both read the details of the job
from the record, hand them to the write method that has to finish or to undo the work, and
then clean up after the job. Each step of the way is a state of the job and is logged as
such:

* commit: committing, strategy dispatch, cleanup, committed;
* abort: aborting, rollback, cleanup, aborted.

Once a write method has been called the cleanup is done on every way out. A problem of the
cleanup is logged and then forgotten, except for an interruption. A job whose write method
is not known is left as it is, and so is one that is to be aborted while its record belongs
to another table.

The engine announces more than the end of a job. There is nothing to be done when a job is
set up, and nothing for the single tasks of a job, since its work counts as a whole.
-/

namespace LinkedTables

/-- The states of a job on its way to its end. -/
inductive JobState where
  /-- The job is still at work. -/
  | running
  /-- The commit has begun. -/
  | committing
  /-- The write method finishes the work. -/
  | strategyDispatch
  /-- What the job left behind is removed. -/
  | cleanup
  /-- The commit is done. -/
  | committed
  /-- The abort has begun. -/
  | aborting
  /-- The work is undone. -/
  | rollback
  /-- The abort is done. -/
  | aborted
deriving DecidableEq, Repr

/-- The word for a state. -/
def JobState.word : JobState → String
  | running => "running"
  | committing => "committing"
  | strategyDispatch => "strategy_dispatch"
  | cleanup => "cleanup"
  | committed => "committed"
  | aborting => "aborting"
  | rollback => "rollback"
  | aborted => "aborted"

/-- A call that finalizing a job makes. -/
inductive JobCall where
  /-- The details of a job are put on record. -/
  | putDetails (key : String)
  /-- The details of a job are got from the record. -/
  | getDetails (key : String)
  /-- A write method finishes the work of a job. -/
  | commitJob (method : WriteMethod) (properties : Entries String) (details : JobDetails)
  /-- The direct write method undoes the work of a job. -/
  | abortJob (properties : Entries String) (details : JobDetails)
  /-- What a job left behind is removed. -/
  | clean (key : String)

/-- What jobs are finalized with: the record of details, what each write method does to
finish and the direct one to undo the work, the cleanup, and the log for the states. -/
structure Finalizer (σ : Type) where
  /-- Gets the details of a job from the record. -/
  getDetails : String → Run Empty σ JobDetails
  /-- Finishes the work of a job by a write method. -/
  commitJob : WriteMethod → Entries String → JobDetails → Run Empty σ Unit
  /-- Undoes the work of a job. -/
  abortJob : Entries String → JobDetails → Run Empty σ Unit
  /-- Removes what a job left behind. -/
  clean : String → Run Empty σ Unit
  /-- The log for the states. -/
  channel : Channel := .shared

namespace Finalizer

/-- What jobs are finalized with where nothing else is asked for: records and work
directories are files below a parent directory. -/
def inFiles {σ : Type} (files : StatePart σ Files) (parent : Path)
    (commitJob : WriteMethod → Entries String → JobDetails → Run Empty σ Unit)
    (abortJob : Entries String → JobDetails → Run Empty σ Unit) : Finalizer σ where
  getDetails := ((DetailsStore.inFiles parent .shared).onPart files).get
  commitJob := commitJob
  abortJob := abortJob
  clean key := (WorkDir.clean parent .shared key).onPart files

variable {σ : Type} (f : Finalizer σ)

/-- The log line for the state of a job, with what else is to be said. -/
def stateFields (key : String) (state : JobState) (others : Entries Value) : Entries Value :=
  [("job_key", .text key), ("state", .text state.word)] ++ others

/-- Logs the state of a job. -/
def enter (key : String) (state : JobState) (others : Entries Value) : Run JobCall σ Unit :=
  Run.log f.channel .info "job_state_changed" (stateFields key state others)

/-- Calls for the details of a job. -/
def details (key : String) : Run JobCall σ JobDetails :=
  Run.calling (.getDetails key) (f.getDetails key)

/-- Logs that the cleanup has begun and removes what a job left behind. -/
def cleanup (key : String) : Run JobCall σ Unit := do
  f.enter key .cleanup []
  (Run.calling (.clean key) (f.clean key)).handling fun p =>
    Run.log f.channel .warning "work_dir_cleanup_failed"
      [("job_key", .text key), ("error", .text p.text)]

/-- Has the write method that the properties ask for finish the work of a job, and then
cleans up. -/
def finalize (properties : Entries String) (d : JobDetails) : Run JobCall σ Unit := do
  let key := d.outputTable.text
  let method ← Run.ofExcept (WriteMethod.ofProperties properties)
  let said : Entries Value := [("write_method", .text method.word)]
  f.enter key .strategyDispatch said
  (Run.calling (.commitJob method properties d) (f.commitJob method properties d)).always
    (f.cleanup key)
  f.enter key .committed said

/-- Commits a job. -/
def commit (context : JobContext) : Run JobCall σ JobState := do
  let key ← Run.ofExcept context.key
  (Span.jobOperation "commit" (some key.text) none).around do
    f.enter key.text .committing [("job_id", .ofText? context.jobId)]
    let d ← f.details key.text
    f.finalize context.properties d
    return .committed

/-- Has the direct write method undo the work of a job, and then cleans up. -/
def undo (properties : Entries String) (d : JobDetails) : Run JobCall σ Unit := do
  let key := d.outputTable.text
  f.enter key .rollback []
  (Run.calling (.abortJob properties d) (f.abortJob properties d)).always (f.cleanup key)
  f.enter key .aborted []

/-- Aborts a job. The status is the engine's and is only logged. -/
def abort (context : JobContext) (status : Option Int) : Run JobCall σ JobState := do
  let key ← Run.ofExcept context.key
  (Span.jobOperation "abort" (some key.text) none).around do
    f.enter key.text .aborting
      [("job_id", .ofText? context.jobId), ("status", (status.map Value.int).getD .null)]
    let d ← f.details key.text
    if d.outputTable ≠ key then
      Run.fail (Failure.jobMismatch key.text d.outputTable.text).problem
    else do
      f.undo context.properties d
      return .aborted

/-! ## What else the engine announces -/

/-- Sets up a job. The write methods do all that is needed themselves. -/
def setUpJob (_ : JobContext) : Run JobCall σ Unit := Run.done ()

/-- What the engine announces about a single task of a job. -/
inductive TaskNotice where
  /-- The task begins. -/
  | setUp
  /-- The work of the task is to be kept. -/
  | commit
  /-- The work of the task is to be dropped. -/
  | abort
deriving DecidableEq, Repr

/-- Whether the work of single tasks has to be committed. -/
def needsTaskCommit : Bool := false

/-- Takes notice of what the engine announces about a task. -/
def onTask (_ : TaskNotice) : Run JobCall σ Unit := Run.done ()

end Finalizer

end LinkedTables
