import LinkedTables.Files.Path
import LinkedTables.Problem

set_option autoImplicit false

/-! # Faults of files

An operation on files fails because of what is at a path, or of what the path is, or for a
reason that the system has of its own, such as a lack of rights or of space. The faults of the
first two kinds are known one by one; those of the last are known by their number and name.
-/

namespace LinkedTables

/-- A reason that the operating system has of its own: one that does not tell what is at a
path, as the other faults do. -/
structure SystemError where
  /-- The number of the error. -/
  number : Nat
  /-- What the error is called. -/
  name : String
  /-- The error is none of those that tell what is at a path. -/
  apart : number ∉ [2, 17, 20, 21, 36, 40]
deriving DecidableEq, Repr

namespace SystemError

/-- The error as text, by its number and name. -/
def textOf (number : Nat) (name : String) : String :=
  "[Errno " ++ number.repr ++ "] " ++ name

/-- The error as text. -/
def text (e : SystemError) : String := textOf e.number e.name

/-- The kind of error that it is for those who call the operation: a lack of rights, too much
time taken, or any other. -/
def kind (e : SystemError) : ErrorKind :=
  match e.number with
  | 1 | 13 => .permission
  | 110 => .timeout
  | _ => .system

end SystemError

/-- Why an operation on files could not be done. -/
inductive FileFault where
  /-- Nothing is there. -/
  | notFound
  /-- Something is there already. -/
  | exists
  /-- Something other than a directory is where one is needed. -/
  | notADirectory
  /-- A directory is where a file is needed. -/
  | isADirectory
  /-- A name is too long. -/
  | nameTooLong
  /-- The path leads through too many links. -/
  | tooManyLinks
  /-- A link is where a directory should be removed. -/
  | linkInTheWay
  /-- A path with a null character is not one that a file could have. -/
  | nullCharacter
  /-- The system refuses the operation. -/
  | refused (e : SystemError)
  /-- The system breaks off the writing of a file. -/
  | brokenOff (e : SystemError)
deriving DecidableEq, Repr

/-- An operation that could not be done, with the path it was about. -/
structure FileError where
  /-- Why it could not be done. -/
  fault : FileFault
  /-- The path in question. -/
  path : Path
deriving DecidableEq, Repr

namespace FileFault

/-- The number of the error in the operating system, and what it is called there, where the
error tells of a path. -/
def code : FileFault → Option (Nat × String)
  | notFound => some (2, "No such file or directory")
  | .exists => some (17, "File exists")
  | notADirectory => some (20, "Not a directory")
  | isADirectory => some (21, "Is a directory")
  | nameTooLong => some (36, "File name too long")
  | tooManyLinks => some (40, "Too many levels of symbolic links")
  | refused e => some (e.number, e.name)
  | linkInTheWay => none
  | nullCharacter => none
  | brokenOff _ => none

/-- The message of a fault that does not tell of a path: it is found before the operating
system is asked, or only when the file is open. -/
def ownMessage : FileFault → String
  | nullCharacter => "embedded null byte"
  | brokenOff e => e.text
  | _ => "Cannot call rmtree on a symbolic link"

/-- The kind of error that it is for those who call the operation. -/
def kind : FileFault → ErrorKind
  | notFound => .fileNotFound
  | .exists => .fileExists
  | notADirectory => .notADirectory
  | isADirectory => .isADirectory
  | nullCharacter => .value
  | refused e => e.kind
  | brokenOff e => e.kind
  | _ => .system

end FileFault

namespace FileError

/-- The message of an error. -/
def message (e : FileError) : String :=
  match e.fault.code with
  | some (number, name) => SystemError.textOf number name ++ ": " ++ Text.quoted e.path.text
  | none => e.fault.ownMessage

/-- An error of an operation on files as a problem. -/
def problem (e : FileError) : Problem := .error e.fault.kind e.message

end FileError

end LinkedTables
