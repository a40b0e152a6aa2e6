import LinkedTables.Files.Tree
import LinkedTables.Job.Record
import LinkedTables.Job.WorkDir
import LinkedTables.Text.Utf8
import LinkedTables.Trace.Run

set_option autoImplicit false

/-! # Job details on record

While a job runs its details are put on record under a key, and when it ends they are got
from there; a later record for a key takes the place of an earlier one. Nothing is kept
beside the record, so each look at it shows what is there at the time.

There are two kinds of store, and both keep each record as the text of a JSON document. One
keeps the texts in memory. The other keeps them in files in the work directories of the
jobs, where a fault of the document or an error of the files comes to light when the record
is read. The files lie on a disk, which may refuse what is asked of it or break off half way;
then what was done stays.
-/

namespace LinkedTables

/-- A place where job details are put on record by key. -/
structure DetailsStore (σ : Type) where
  /-- Puts the details of a job on record. -/
  put : String → JobDetails → Run Empty σ Unit
  /-- Gets the details of a job from the record. -/
  get : String → Run Empty σ JobDetails

namespace DetailsStore

/-- The same store over a part of a larger state. -/
def onPart {σ τ : Type} (part : StatePart τ σ) (store : DetailsStore σ) : DetailsStore τ where
  put key d := (store.put key d).onPart part
  get key := (store.get key).onPart part

/-! ## In memory -/

/-- Reads the details for a key from memory. -/
def recalled (records : Entries String) (key : String) : Except Problem JobDetails :=
  match Entries.get? records key with
  | some record => (JobDetails.ofText record).orRefuse
  | none => .error (Failure.jobNotFound key none).problem

/-- The store that keeps records in memory. -/
def inMemory : DetailsStore (Entries String) where
  put key d := Run.access fun records => (.ok (), Entries.set records key d.toText)
  get key := Run.access fun records => (recalled records key, records)

/-! ## In files -/

/-- The problem that a file does not hold UTF-8. -/
def encodingProblem (e : Option Text.Utf8Error) : Problem :=
  .error .encoding ((e.map Text.Utf8Error.message).getD "")

/-- The details that a file's bytes spell. -/
def ofBytes (bytes : ByteArray) : Except Problem JobDetails :=
  match Text.decodeUtf8 bytes with
  | .error e => .error (encodingProblem e)
  | .ok s =>
    (JobDetails.ofText (String.ofList (Text.unifyLineEnds s.toList))).orRefuse

/-- Reads the details for a key from the files below a parent directory. That nothing is
there means that nothing is on record; other errors are not for the store to explain. -/
def readDetails (parent : Path) (files : Files) (key : String) : Except Problem JobDetails :=
  match files.load (WorkDir.detailsPath parent key) with
  | .ok bytes => ofBytes bytes
  | .error e =>
    if e.fault = .notFound then .error (.failure (.jobNotFound key none) (some e.problem))
    else .error e.problem

/-- Writes the details for a key, after the directories they lie in. The directories stay
even if the details cannot be written, and so does what was written of them. -/
def writeDetailsOn (disk : Disk) (parent : Path) (files : Files) (key : String) (d : JobDetails) :
    Except Problem Unit × Files :=
  match files.makeDirectories disk (WorkDir.path parent key) with
  | (files, some e) => (.error e.problem, files)
  | (files, none) =>
    match files.save disk (WorkDir.detailsPath parent key) d.toIndentedText.toUTF8 with
    | (files, none) => (.ok (), files)
    | (files, some e) => (.error e.problem, files)

/-- Writes the details for a key on a disk that refuses nothing. -/
def writeDetails (parent : Path) (files : Files) (key : String) (d : JobDetails) :
    Except Problem Unit × Files :=
  writeDetailsOn .sound parent files key d

/-- What log lines say of a job and a path. -/
def logNames (key : String) (path : Path) : Entries Value :=
  [("job_key", .text key), ("path", .text path.text)]

/-- The store that keeps records in the work directories below a parent directory on a disk. -/
def onDisk (disk : Disk) (parent : Path) (channel : Channel) : DetailsStore Files where
  put key d := do
    Run.access fun files => writeDetailsOn disk parent files key d
    Run.log channel .debug "job_details_written" (logNames key (WorkDir.detailsPath parent key))
  get key := Run.access fun files => (readDetails parent files key, files)

/-- The same store on a disk that refuses nothing. -/
def inFiles (parent : Path) (channel : Channel) : DetailsStore Files :=
  onDisk .sound parent channel

end DetailsStore

/-! ## Cleaning up -/

namespace WorkDir

/-- Removes the work directory of a job as far as possible. Whatever comes of it is logged,
and no error of the files is a problem for the job; only a path that no file could have
is. -/
def cleanOn (disk : Disk) (parent : Path) (channel : Channel) (key : String) :
    Run Empty Files Unit := do
  let directory := path parent key
  let outcome ← Run.access fun files =>
    match files.removeDirectory disk directory with
    | (files, none) => (.ok none, files)
    | (files, some e) =>
      (if e.fault = .nullCharacter then .error e.problem else .ok (some e), files)
  match outcome with
  | none => Run.log channel .info "work_dir_deleted" (DetailsStore.logNames key directory)
  | some e =>
    if e.fault = .notFound then
      Run.log channel .debug "work_dir_already_absent" (DetailsStore.logNames key directory)
    else
      Run.log channel .warning "work_dir_cleanup_failed"
        (DetailsStore.logNames key directory ++ [("error", .text e.message)])

/-- Removes the work directory of a job on a disk that refuses nothing. -/
def clean (parent : Path) (channel : Channel) (key : String) : Run Empty Files Unit :=
  cleanOn .sound parent channel key

end WorkDir

end LinkedTables
