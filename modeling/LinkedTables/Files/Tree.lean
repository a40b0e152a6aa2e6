import LinkedTables.Entries
import LinkedTables.Files.Fault

set_option autoImplicit false

/-! # Files

The files that work directories are kept in, as a value: a directory holds files, links and
directories by name. A path is resolved name by name from the top, where two dots lead one
level up and a link leads wherever its own path leads; names and paths are limited in
length, and so is the number of links that may be followed.

Every operation gives the directory as it is afterwards, or says why it could not be done. An
operation that changes files is done on a disk (`Disk`), which may refuse any step of it. What
was done up to then stays: directories that were made, an old file that was emptied to be
written again, and the gaps that a removal has left.
-/

namespace LinkedTables

/-- What a directory can hold under a name. -/
inductive Node where
  /-- A file with its content. -/
  | file (content : ByteArray)
  /-- A link to another path. -/
  | link (target : String)
  /-- A directory. -/
  | directory (entries : List (String × Node))

/-- The content of the topmost directory. -/
abbrev Files := Entries Node

/-- What a disk refuses, at each place. Nothing is refused to those who only look: paths can be
followed, and files that are there can be read. -/
structure Disk where
  /-- Why no directory can be made there. -/
  making : List String → Option SystemError := fun _ => none
  /-- Why a file there cannot be opened to be written, or a directory to be emptied. -/
  opening : List String → Option SystemError := fun _ => none
  /-- After how many bytes the writing of a file there is broken off, and why. -/
  writing : List String → Option (Nat × SystemError) := fun _ => none
  /-- Why the entries of a directory there cannot be listed. -/
  listing : List String → Option SystemError := fun _ => none
  /-- Why what is there cannot be removed. -/
  removing : List String → Option SystemError := fun _ => none

/-- The disk that refuses nothing. -/
def Disk.sound : Disk := {}

@[simp] theorem Disk.making_sound (place : List String) : Disk.sound.making place = none := rfl

@[simp] theorem Disk.opening_sound (place : List String) : Disk.sound.opening place = none := rfl

@[simp] theorem Disk.writing_sound (place : List String) : Disk.sound.writing place = none := rfl

@[simp] theorem Disk.listing_sound (place : List String) : Disk.sound.listing place = none := rfl

@[simp] theorem Disk.removing_sound (place : List String) : Disk.sound.removing place = none := rfl

namespace Files

/-! ## Places

A place is a list of names that lead from the top through directories, without links. -/

/-- What is at a place below the top. -/
def at? (files : Files) : List String → Option Node
  | [] => none
  | [name] => Entries.get? files name
  | name :: names =>
    match Entries.get? files name with
    | some (.directory entries) => at? entries names
    | _ => none

/-- Puts a node at a place whose directory is there. -/
def putAt (files : Files) (node : Node) : List String → Files
  | [] => files
  | [name] => Entries.set files name node
  | name :: names =>
    match Entries.get? files name with
    | some (.directory entries) => Entries.set files name (.directory (putAt entries node names))
    | _ => files

/-- Removes what is at a place. -/
def removeAt (files : Files) : List String → Files
  | [] => files
  | [name] => Entries.erase files name
  | name :: names =>
    match Entries.get? files name with
    | some (.directory entries) => Entries.set files name (.directory (removeAt entries names))
    | _ => files

/-! ## Resolving paths -/

/-- The greatest length of a name in bytes. -/
def longestName : Nat := 255

/-- The greatest length of a path in bytes. -/
def longestPath : Nat := 4095

/-- The number of links that may be followed on the way to one file. -/
def mostLinks : Nat := 40

/-- Where a path leads. -/
inductive Target where
  /-- To the topmost directory. -/
  | top
  /-- To something at a place. -/
  | present (place : List String) (node : Node)
  /-- To nothing, in the directory at a place. -/
  | absent (place : List String)

/-- Follows names from a directory. What a link leads to is found by `onLink`, from the
directory of the link and the path that is left; a link at the end is followed only if
`followsLast` says so. -/
def walk (files : Files) (followsLast : Bool)
    (onLink : List String → Path → Except FileFault Target) :
    List String → List String → Except FileFault Target
  | [], [] => .ok .top
  | here, [] =>
    match files.at? here with
    | some node => .ok (.present here node)
    | none => .error .notFound
  | here, name :: names =>
    if name = ".." then walk files followsLast onLink here.dropLast names
    else if longestName < name.utf8ByteSize then .error .nameTooLong
    else
      let place := here ++ [name]
      match files.at? place, names with
      | some (.directory _), _ => walk files followsLast onLink place names
      | some (.link target), [] =>
        if followsLast then onLink here (Path.parse target)
        else .ok (.present place (.link target))
      | some (.link target), names =>
        onLink here ((Path.parse target).append ⟨0, names⟩)
      | some node, [] => .ok (.present place node)
      | some _, _ => .error .notADirectory
      | none, [] => .ok (.absent place)
      | none, _ => .error .notFound

/-- Follows a path from a directory, through at most the given number of links. -/
def resolveFrom (files : Files) (followsLast : Bool) :
    Nat → List String → Path → Except FileFault Target
  | 0, _, _ => .error .tooManyLinks
  | links + 1, here, path =>
    files.walk followsLast (resolveFrom files followsLast links)
      (if path.root = 0 then here else []) path.names

/-- Where a path leads from the top. -/
def resolve (files : Files) (followsLast : Bool) (path : Path) : Except FileFault Target :=
  if path.names.any fun name => name.toList.contains '\x00' then .error .nullCharacter
  else if longestPath < path.text.utf8ByteSize then .error .nameTooLong
  else files.resolveFrom followsLast (mostLinks + 1) [] path

/-! ## Operations -/

/-- The content of a file. -/
def load (files : Files) (path : Path) : Except FileError ByteArray :=
  match files.resolve true path with
  | .error fault => .error ⟨fault, path⟩
  | .ok (.present _ (.file content)) => .ok content
  | .ok (.absent _) => .error ⟨.notFound, path⟩
  | .ok _ => .error ⟨.isADirectory, path⟩

/-- Opens a file to be written, which may be there already, in a directory that is, and tells
its place. -/
def openFile (files : Files) (disk : Disk) (path : Path) : Except FileError (List String) :=
  match files.resolve true path with
  | .error fault => .error ⟨fault, path⟩
  | .ok (.present place (.file _)) | .ok (.absent place) =>
    match disk.opening place with
    | none => .ok place
    | some e => .error ⟨.refused e, path⟩
  | .ok _ => .error ⟨.isADirectory, path⟩

/-- Writes a file, which may be there already, into a directory that is. A file that is opened
to be written is empty; if the writing is broken off then, a beginning of the content is all
that is left in it. -/
def save (files : Files) (disk : Disk) (path : Path) (content : ByteArray) :
    Files × Option FileError :=
  match files.openFile disk path with
  | .error e => (files, some e)
  | .ok place =>
    match disk.writing place with
    | none => (files.putAt (.file content) place, none)
    | some (length, e) =>
      (files.putAt (.file (content.extract 0 length)) place, some ⟨.brokenOff e, path⟩)

/-- Makes one directory, where nothing is yet, in a directory that is there. A path that
ends in two dots leads to something that is there. -/
def makeDirectory (files : Files) (disk : Disk) (path : Path) : Except FileFault Files :=
  match files.resolve false path with
  | .error fault => .error fault
  | .ok (.absent place) =>
    match disk.making place with
    | none => .ok (files.putAt (.directory []) place)
    | some e => .error (.refused e)
  | .ok _ => .error .exists

/-- Whether a path leads to a directory; `none` if its names are too long to tell. -/
def isDirectory? (files : Files) (path : Path) : Option Bool :=
  match files.resolve true path with
  | .error .nameTooLong => none
  | .ok .top | .ok (.present _ (.directory _)) => some true
  | _ => some false

/-- Makes one directory unless it is there already. -/
def ensureDirectory (files : Files) (disk : Disk) (path : Path) : Except FileFault Files :=
  match files.makeDirectory disk path with
  | .ok files => .ok files
  | .error .notFound => .error .notFound
  | .error fault =>
    match files.isDirectory? path with
    | some true => .ok files
    | some false => .error fault
    | none => .error .nameTooLong

/-- Makes a directory and those it lies in, as far as they are not there yet. What was made
stays even if the rest cannot be done. The number is that of the names that may be missing. -/
def ensureDirectories (disk : Disk) : Nat → Files → Path → Files × Option FileError
  | missing, files, path =>
    match files.ensureDirectory disk path, missing with
    | .ok files, _ => (files, none)
    | .error .notFound, missing + 1 =>
      match ensureDirectories disk missing files path.parent with
      | (files, some e) => (files, some e)
      | (files, none) =>
        match files.ensureDirectory disk path with
        | .ok files => (files, none)
        | .error fault => (files, some ⟨fault, path⟩)
    | .error fault, _ => (files, some ⟨fault, path⟩)

/-- Makes a directory and those it lies in, as far as they are not there yet. -/
def makeDirectories (files : Files) (disk : Disk) (path : Path) : Files × Option FileError :=
  ensureDirectories disk path.names.length files path

/-- Puts a link where nothing is yet. -/
def makeLink (files : Files) (path : Path) (target : Path) : Except FileError Files :=
  match files.resolve false path with
  | .error fault => .error ⟨fault, path⟩
  | .ok (.absent place) => .ok (files.putAt (.link target.text) place)
  | .ok _ => .error ⟨.exists, path⟩

mutual

/-- Removes the entries of a directory at a place one after the other, in the order in which
they are listed, and ends at the first that cannot be removed. Gives the entries that are left,
and why they are. -/
def removeEntries (disk : Disk) (place : List String) (path : Path) :
    List (String × Node) → List (String × Node) × Option FileError
  | [] => ([], none)
  | (name, node) :: entries =>
    match removeNode disk (place ++ [name]) (path.child name) ⟨0, [name]⟩ node with
    | none => removeEntries disk place path entries
    | some (left, e) => ((name, left) :: entries, some e)

/-- Removes a node at a place; if that cannot be done, gives what is left of it, and why. A
directory is emptied before it is removed. Errors tell of the node by its name in the directory
that is being emptied, and only that a directory cannot be listed is told by its whole path. -/
def removeNode (disk : Disk) (place : List String) (path name : Path) :
    Node → Option (Node × FileError)
  | .directory entries =>
    match disk.opening place, disk.listing place with
    | some e, _ => some (.directory entries, ⟨.refused e, name⟩)
    | none, some e => some (.directory entries, ⟨.refused e, path⟩)
    | none, none =>
      match removeEntries disk place path entries, disk.removing place with
      | (left, some e), _ => some (.directory left, e)
      | (left, none), some e => some (.directory left, ⟨.refused e, name⟩)
      | (_, none), none => none
  | .file content => (disk.removing place).map fun e => (.file content, ⟨.refused e, name⟩)
  | .link target => (disk.removing place).map fun e => (.link target, ⟨.refused e, name⟩)

end

/-- Removes a directory with all that is in it, as far as the disk lets it. A link is not
removed, unless it leads nowhere and so counts as not there. The topmost directory is emptied
and stays. -/
def removeDirectory (files : Files) (disk : Disk) (path : Path) : Files × Option FileError :=
  match files.resolve false path with
  | .error fault => (files, some ⟨fault, path⟩)
  | .ok (.present place (.directory entries)) =>
    match removeNode disk place path path (.directory entries) with
    | none => (files.removeAt place, none)
    | some (left, e) => (files.putAt left place, some e)
  | .ok (.present _ (.file _)) => (files, some ⟨.notADirectory, path⟩)
  | .ok (.absent _) => (files, some ⟨.notFound, path⟩)
  | .ok .top => removeEntries disk [] path files
  | .ok (.present _ (.link _)) =>
    match files.resolve true path with
    | .error fault => (files, some ⟨fault, path⟩)
    | .ok (.absent _) => (files, some ⟨.notFound, path⟩)
    | .ok _ => (files, some ⟨.linkInTheWay, path⟩)

/-! ## Listing -/

mutual

/-- The texts of all places in a directory below a given text, those of directories with a
slash at the end. Links are not followed. -/
def listing (above : String) : List (String × Node) → List String
  | [] => []
  | (name, node) :: entries => nodeListing (above ++ name) node ++ listing above entries

/-- The text of a place, and those of the places in it. -/
def nodeListing (here : String) : Node → List String
  | .directory entries => (here ++ "/") :: listing (here ++ "/") entries
  | .file _ => [here]
  | .link _ => [here]

end

end Files

end LinkedTables
