import LinkedTables.Failure
import LinkedTables.Schema.Fault

set_option autoImplicit false

/-! # Problems

What can end a computation early: a failure of the library itself, data refused with its
faults, an error of another component known by its kind and message, or an interruption.
A failure may have been caused by another problem, which it then keeps.

Interruptions are not ordinary problems: what handles, wraps or logs problems lets them
pass, and only what is done on every way out is done for them too.
-/

namespace LinkedTables

/-- What ended a computation early. -/
inductive Problem where
  /-- A failure of the library, with the problem that caused it, if one did. -/
  | failure (f : Failure) (cause : Option Problem)
  /-- Data was refused. -/
  | refused (faults : List Fault)
  /-- An error of another component. -/
  | error (kind : ErrorKind) (message : String)
  /-- An interruption from outside. -/
  | interrupt (message : String)

namespace Problem

/-- What stands for the text of a list of faults. The text itself, which is made by the checker
of data and not by the library, is not modelled; nothing is claimed of it but that it is not
empty. -/
def refusalText : String := "<validation>"

/-- The text of a problem. -/
def text : Problem → String
  | failure f _ => f.text
  | refused _ => refusalText
  | error _ message => message
  | interrupt message => message

/-- Whether a problem is a failure of the library itself. -/
def isFailure : Problem → Bool
  | failure _ _ => true
  | _ => false

/-- Whether a problem is an interruption. -/
def isInterrupt : Problem → Bool
  | interrupt _ => true
  | _ => false

/-- A problem as seen by the caller of a collaborator: failures and interruptions pass
unchanged, and anything else becomes the cause of a failure that is made from its text. -/
def wrapped (make : String → Failure) : Problem → Problem
  | failure f cause => failure f cause
  | interrupt message => interrupt message
  | p => failure (make p.text) (some p)

end Problem

/-- A failure that nothing else caused. -/
def Failure.problem (f : Failure) : Problem := .failure f none

/-- The error met in making a text of a value. -/
def NoText.problem (e : NoText) : Problem := .error e.kind e.message

/-- What is raised where a failure is to be: the failure, or the error met in making it. -/
def Problem.ofFailure : Except NoText Failure → Problem
  | .ok f => f.problem
  | .error e => e.problem

/-- A checked result as the outcome of a computation. -/
def Checked.orRefuse {α : Type} : Checked α → Except Problem α
  | .valid a => .ok a
  | .refused faults => .error (.refused faults)

@[simp] theorem Checked.orRefuse_valid {α : Type} (a : α) : (valid a).orRefuse = .ok a := rfl

end LinkedTables
