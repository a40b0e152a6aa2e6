set_option autoImplicit false

/-! # Paths

A path is a sequence of names, either absolute or relative to wherever it is used. Reading
its text drops what makes no difference: repeated slashes, single dots and slashes at the
end. Two slashes at the very front are kept as they are, since systems may give them a
meaning of their own; three or more count as one.
-/

namespace LinkedTables

/-- A path in normal form. -/
structure Path where
  /-- The number of slashes at the front: none, one or two. -/
  root : Nat
  /-- The names in order; none is empty or a single dot or holds a slash. -/
  names : List String
deriving DecidableEq, Repr

namespace Path

/-- The number of slashes that a text keeps at its front. -/
def rootOf (cs : List Char) : Nat :=
  match (cs.takeWhile (· == '/')).length with
  | 0 => 0
  | 2 => 2
  | _ => 1

/-- Whether a piece between slashes is a name. -/
def isName (cs : List Char) : Bool := cs != [] && cs != ['.']

/-- The path with a given text. -/
def parse (s : String) : Path where
  root := rootOf s.toList
  names := ((s.toList.splitOn '/').filter isName).map String.ofList

/-- The text of a path. -/
def text (p : Path) : String :=
  if p.root = 0 ∧ p.names = [] then "."
  else String.ofList (List.replicate p.root '/') ++ String.intercalate "/" p.names

instance : ToString Path := ⟨text⟩

/-- A path and one more name. -/
def child (p : Path) (name : String) : Path := { p with names := p.names ++ [name] }

/-- A path followed by another; an absolute one starts over. -/
def append (p q : Path) : Path :=
  if q.root = 0 then { p with names := p.names ++ q.names } else q

/-- The path without its last name. -/
def parent (p : Path) : Path := { p with names := p.names.dropLast }

@[simp] theorem names_child (p : Path) (name : String) :
    (p.child name).names = p.names ++ [name] := rfl

@[simp] theorem parent_child (p : Path) (name : String) : (p.child name).parent = p := by
  simp [parent, child]

end Path

end LinkedTables
