import LinkedTables.Entries
import LinkedTables.Files.Path

set_option autoImplicit false

/-! # Work directories

Each job has a work directory of its own, named after the job's key, in a parent directory
that the job's properties may set. Characters of the key that could mean something in a
path are replaced, so that the name is always a single name, and keys that differ in such
characters only share a directory.
-/

namespace LinkedTables.WorkDir

/-- The property of a job that sets the parent of work directories. -/
def parentKey : String := "bq.work.dir.parent.path"

/-- What the names of work directories start with. -/
def nameStart : String := "bq-hive-"

/-- The file in a work directory that holds the details of the job. -/
def detailsFileName : String := "job_details.json"

/-- Whether a character of a key stands for itself in the name of a directory. -/
def isSafe (c : Char) : Bool :=
  ('A' ≤ c && c ≤ 'Z') || ('a' ≤ c && c ≤ 'z') || ('0' ≤ c && c ≤ '9') || c == '.' || c == '_'
    || c == '-'

/-- A character of a key in the name of a directory. -/
def safeChar (c : Char) : Char := if isSafe c then c else '_'

/-- The name of the work directory of a job. -/
def name (key : String) : String := nameStart ++ String.ofList (key.toList.map safeChar)

/-- The parent of work directories for the properties of a job; the system's directory for
temporary files stands in where none is set. -/
def parent (temporary : Path) (properties : Entries String) : Path :=
  let setting := (Entries.get? properties parentKey).getD ""
  if setting.isEmpty then temporary else Path.parse setting

/-- The work directory of a job. -/
def path (parent : Path) (key : String) : Path := parent.child (name key)

/-- The file that holds the details of a job. -/
def detailsPath (parent : Path) (key : String) : Path := (path parent key).child detailsFileName

example : (['s', '.', 'a', '/', 'é'].map safeChar) = ['s', '.', 'a', '_', '_'] := by decide

end LinkedTables.WorkDir
