set_option autoImplicit false

/-! # Faults of data

Data that does not have the shape asked for is refused with all its faults, each with the
place where it was found: the keys and positions that lead to it from the outside. A
`Checked` result is either the value read or the faults, and two checks that do not depend
on each other report the faults of both.
-/

namespace LinkedTables

/-- What can be wrong with a piece of data. -/
inductive FaultKind where
  /-- A member that must be there is not. -/
  | missing
  /-- A member that must not be there is. -/
  | extra
  /-- Not a text. -/
  | notText
  /-- An empty text where a name is needed. -/
  | emptyText
  /-- None of the values of an enumeration. -/
  | notInEnumeration
  /-- Not an object of texts, or not an object that describes a filter. -/
  | notDictionary
  /-- Not a list. -/
  | notList
  /-- Not a list of operands. -/
  | notOperands
  /-- Not an object that describes a record. -/
  | notRecord
  /-- Not a truth value, nor a whole number of usual size or a text that could stand for one. -/
  | notBool
  /-- A number or text that stands for no truth value. -/
  | unreadableBool
  /-- Not a JSON document. -/
  | notJson
  /-- An object that does not tell which of several records it describes. -/
  | missingTag
  /-- An object that claims to describe a record unknown here. -/
  | unknownTag
deriving DecidableEq, Repr

/-- One step into a piece of data. -/
inductive Step where
  /-- Into the member with a key. -/
  | key (name : String)
  /-- Into the item at a position. -/
  | index (i : Nat)
deriving DecidableEq, Repr

/-- A fault and the steps that lead to it. -/
structure Fault where
  /-- What is wrong. -/
  kind : FaultKind
  /-- The steps from the outside of the data to the fault. -/
  place : List Step
deriving DecidableEq, Repr

/-- The outcome of reading data: a value, or the faults found. -/
inductive Checked (α : Type) where
  /-- The data has the shape asked for. -/
  | valid (a : α)
  /-- The data was refused. -/
  | refused (faults : List Fault)

namespace Checked

variable {α β : Type}

/-- Applies a function to the value read. -/
def map (f : α → β) : Checked α → Checked β
  | valid a => valid (f a)
  | refused faults => refused faults

/-- Applies the first result to the second; the faults of both are kept, in order. -/
def apply : Checked (α → β) → Checked α → Checked β
  | valid f, valid a => valid (f a)
  | valid _, refused faults => refused faults
  | refused faults, valid _ => refused faults
  | refused first, refused second => refused (first ++ second)

instance : Applicative Checked where
  pure := valid
  seq f a := apply f (a ())

/-- The faults of a result. -/
def faults : Checked α → List Fault
  | valid _ => []
  | refused faults => faults

/-- The same result with its faults one step further in. -/
def under (step : Step) : Checked α → Checked α
  | valid a => valid a
  | refused faults => refused (faults.map fun f => { f with place := step :: f.place })

/-- A refusal with one fault at the place itself. -/
def fault (kind : FaultKind) : Checked α := refused [⟨kind, []⟩]

/-- The value read, if there is one. -/
def toOption : Checked α → Option α
  | valid a => some a
  | refused _ => none

@[simp] theorem faults_valid (a : α) : (valid a).faults = [] := rfl

@[simp] theorem toOption_valid (a : α) : (valid a).toOption = some a := rfl

@[simp] theorem toOption_under (step : Step) (r : Checked α) :
    (r.under step).toOption = r.toOption := by
  cases r <;> rfl

end Checked

end LinkedTables
