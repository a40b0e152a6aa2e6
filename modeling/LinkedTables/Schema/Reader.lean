import LinkedTables.Name
import LinkedTables.Schema.Fault
import LinkedTables.Value

set_option autoImplicit false

/-! # Reading data by shape

A reader takes a value to something definite or tells what is wrong with it. Nothing is
converted on the way, except that a truth value may be spelled as a number or a word.

A record is read from an object: first its fields in the order of their declaration, each
from the last member of its name, then every key that is no field is refused, once and in
the order of the object.
-/

namespace LinkedTables.Schema

variable {α β : Type}

/-- A text. -/
def text : Value → Checked String
  | .text s => .valid s
  | _ => .fault .notText

/-- A text that is not empty. -/
def name : Value → Checked Name
  | .text s =>
    match Name.ofText? s with
    | some n => .valid n
    | none => .fault .emptyText
  | _ => .fault .notText

/-- What another reader accepts, or the absent value. -/
def optional (read : Value → Checked α) : Value → Checked (Option α)
  | .null => .valid none
  | v => (read v).map some

/-- One of a fixed choice of words. -/
def word (ofWord? : String → Option α) : Value → Checked α
  | .text s =>
    match ofWord? s with
    | some a => .valid a
    | none => .fault .notInEnumeration
  | _ => .fault .notInEnumeration

/-- Reads the items of a list, from a given position on. -/
def itemsFrom (read : Value → Checked α) : Nat → List Value → Checked (List α)
  | _, [] => .valid []
  | i, v :: vs => List.cons <$> (read v).under (.index i) <*> itemsFrom read (i + 1) vs

/-- A list of items of one shape. -/
def list (read : Value → Checked α) : Value → Checked (List α)
  | .list vs => itemsFrom read 0 vs
  | _ => .fault .notList

/-- Reads the values of the members of an object, in order. -/
def memberTexts : List (String × Value) → Checked (List (String × String))
  | [] => .valid []
  | (k, v) :: es =>
    (fun s rest => (k, s) :: rest) <$> (text v).under (.key k) <*> memberTexts es

/-- An object of texts. -/
def texts : Value → Checked (Entries String)
  | .dict es => (memberTexts es).map Entries.merged
  | _ => .fault .notDictionary

/-! ## Truth values -/

/-- The words for truth, in lower case. -/
def trueWords : List String := ["1", "on", "t", "true", "y", "yes"]

/-- The words for falsehood, in lower case. -/
def falseWords : List String := ["0", "off", "f", "false", "n", "no"]

/-- The truth value that a word spells, in any case of the ASCII letters. -/
def boolOfWord? (s : String) : Option Bool :=
  let w := String.ofList (s.toList.map Char.toLower)
  if w ∈ trueWords then some true else if w ∈ falseWords then some false else none

/-- The truth value that a number stands for: only zero and one do. -/
def boolOfInt? (n : Int) : Option Bool :=
  if n = 0 then some false else if n = 1 then some true else none

/-- One more than the greatest number that a machine word with a sign holds. -/
def wordBound : Int := 9223372036854775808

/-- A truth value, or a number or a word that stands for one. Only whole numbers that a
machine word holds are taken for such; of doubles the least of these is not either. -/
def bool : Value → Checked Bool
  | .bool b => .valid b
  | .int n =>
    if -wordBound ≤ n ∧ n < wordBound then readable (boolOfInt? n) else .fault .notBool
  | .float x =>
    match x.toInt? with
    | some n =>
      if -wordBound < n ∧ n < wordBound then readable (boolOfInt? n) else .fault .notBool
    | none => .fault .notBool
  | .text s => readable (boolOfWord? s)
  | _ => .fault .notBool
where
  /-- A truth value that could be read, or the fault that it could not. -/
  readable : Option Bool → Checked Bool
    | some b => .valid b
    | none => .fault .unreadableBool

/-! ## Records -/

/-- A field that must be there. -/
def required (es : Entries Value) (key : String) (read : Value → Checked α) : Checked α :=
  match Entries.get? es key with
  | some v => (read v).under (.key key)
  | none => .refused [⟨.missing, [.key key]⟩]

/-- A field that has a value even if it is not there. -/
def field (es : Entries Value) (key : String) (default : α) (read : Value → Checked α) :
    Checked α :=
  match Entries.get? es key with
  | some v => (read v).under (.key key)
  | none => .valid default

/-- The keys of an object that are no fields, each where it first stands. -/
def otherKeys (es : Entries Value) (fields : List String) : List String :=
  ((es.map (·.1)).filter fun key => !fields.contains key).eraseDups

/-- Refuses every key that is no field. -/
def noOthers (es : Entries Value) (fields : List String) : Checked Unit :=
  match otherKeys es fields with
  | [] => .valid ()
  | others => .refused (others.map fun key => ⟨.extra, [.key key]⟩)

/-- The fields of a record, and nothing beside them. -/
def closed (fields : List String) (read : Entries Value → Checked α) (es : Entries Value) :
    Checked α :=
  (fun a _ => a) <$> read es <*> noOthers es fields

/-- A record with the given fields, from an object that has no other members. -/
def record (fields : List String) (read : Entries Value → Checked α) : Value → Checked α
  | .dict es => closed fields read es
  | _ => .fault .notRecord

end LinkedTables.Schema
