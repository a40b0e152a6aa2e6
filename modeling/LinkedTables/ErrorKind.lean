set_option autoImplicit false

/-! # Kinds of errors

What goes wrong outside the library is known by the kind of its error and by a message. The
kinds are those of the language and of the operating system that the library meets; each has
the name under which traces and answers show it.
-/

namespace LinkedTables

/-- The kinds of errors of other components. -/
inductive ErrorKind where
  /-- An error of no particular kind. -/
  | runtime
  /-- Something asked for does not exist. -/
  | lookup
  /-- A value is not one that is accepted. -/
  | value
  /-- An operation took too long. -/
  | timeout
  /-- The operating system refused an operation. -/
  | system
  /-- The operating system refused an operation for a lack of rights. -/
  | permission
  /-- The input ended. -/
  | endOfInput
  /-- A file is not there. -/
  | fileNotFound
  /-- A file is there that must not be. -/
  | fileExists
  /-- A directory was needed and something else found. -/
  | notADirectory
  /-- A directory was found where a file was needed. -/
  | isADirectory
  /-- Bytes are not the text they should be. -/
  | encoding
  /-- A value lacks a part asked of it. -/
  | attribute
  /-- A position lies outside a sequence. -/
  | position
deriving DecidableEq, Repr

namespace ErrorKind

/-- All kinds of errors. -/
def all : List ErrorKind :=
  [.runtime, .lookup, .value, .timeout, .system, .permission, .endOfInput, .fileNotFound,
    .fileExists, .notADirectory, .isADirectory, .encoding, .attribute, .position]

/-- The name of a kind of errors. -/
def word : ErrorKind → String
  | .runtime => "RuntimeError"
  | .lookup => "LookupError"
  | .value => "ValueError"
  | .timeout => "TimeoutError"
  | .system => "OSError"
  | .permission => "PermissionError"
  | .endOfInput => "EOFError"
  | .fileNotFound => "FileNotFoundError"
  | .fileExists => "FileExistsError"
  | .notADirectory => "NotADirectoryError"
  | .isADirectory => "IsADirectoryError"
  | .encoding => "UnicodeDecodeError"
  | .attribute => "AttributeError"
  | .position => "IndexError"

/-- The kind of errors with a name. -/
def ofWord? (s : String) : Option ErrorKind := all.find? fun k => k.word == s

@[simp] theorem ofWord?_word (k : ErrorKind) : ofWord? k.word = some k := by
  cases k <;> decide

end ErrorKind

end LinkedTables
