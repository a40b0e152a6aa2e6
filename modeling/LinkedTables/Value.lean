import LinkedTables.Entries
import LinkedTables.ErrorKind
import LinkedTables.Number.Layout
import LinkedTables.Text.Quoted

set_option autoImplicit false

/-! # Values

Data without a fixed shape: the constants of a filter, the cells of a query's answer, the
attributes of a log line, and every JSON document before it is read as something more
definite. A dictionary keeps its entries in order; one that was read from JSON may name a
key twice until it is `merged`. What is none of the kinds known here, such as a date, is an
`Object`, of which no more is known than how it is shown.

Inside messages a value has a display: texts are quoted, lists and dictionaries show their
members in order. On its own a text is shown as it is. Not every value can be shown: whole
numbers of more than `Text.mostDigits` digits cannot, objects may fail to be, and a list or a
dictionary fails with the first of its members that fails.
-/

namespace LinkedTables

/-- The error met in making a text of a value that has none. -/
structure NoText where
  /-- The kind of the error. -/
  kind : ErrorKind
  /-- The message of the error. -/
  message : String
deriving DecidableEq, Repr

/-- A value of a type of its own, which is no number, no text, no list, no dictionary with texts
as keys and has no operator. Making its display or its text may fail. -/
structure Object where
  /-- What its type is called in messages. -/
  typeName : String
  /-- Its written form inside messages. -/
  display : Except NoText String
  /-- Its text. -/
  text : Except NoText String

/-- A value without a fixed shape. -/
inductive Value where
  /-- The absent value. -/
  | null
  /-- A truth value. -/
  | bool (b : Bool)
  /-- A whole number of any size. -/
  | int (n : Int)
  /-- A number of double precision. -/
  | float (x : Binary64)
  /-- A text. -/
  | text (s : String)
  /-- A list of values. -/
  | list (items : List Value)
  /-- Values by key, in order. -/
  | dict (entries : List (String × Value))
  /-- A value of a type of its own. -/
  | object (o : Object)

namespace Value

instance : Inhabited Value := ⟨null⟩

/-- What the type of a value is called in messages. -/
def typeName : Value → String
  | null => "NoneType"
  | bool _ => "bool"
  | int _ => "int"
  | float _ => "float"
  | text _ => "str"
  | list _ => "list"
  | dict _ => "dict"
  | object o => o.typeName

/-! ## Display -/

/-- The error of a whole number with too many digits to be written. -/
def longNumber : NoText where
  kind := .value
  message := "Exceeds the limit (4300 digits) for integer string conversion; " ++
    "use sys.set_int_max_str_digits() to increase the limit"

mutual

/-- The error met in making the display of a value, if it has none. -/
def noDisplay? : Value → Option NoText
  | int n => if (Text.natDigits n.natAbs).length ≤ Text.mostDigits then none else some longNumber
  | list vs => noDisplayIn? vs
  | dict es => noDisplayAmong? es
  | object o => match o.display with
    | .ok _ => none
    | .error e => some e
  | _ => none

/-- The error met in making the displays of the items of a list. -/
def noDisplayIn? : List Value → Option NoText
  | [] => none
  | v :: vs => (noDisplay? v).or (noDisplayIn? vs)

/-- The error met in making the displays of the values of a dictionary. -/
def noDisplayAmong? : List (String × Value) → Option NoText
  | [] => none
  | (_, v) :: es => (noDisplay? v).or (noDisplayAmong? es)

end

/-- A comma and a blank between the members of a display. -/
def commaBlank : List Char := [',', ' ']

mutual

/-- The display of a value that has one; an object without display is left out. -/
def displayChars : Value → List Char
  | null => ['N', 'o', 'n', 'e']
  | bool true => ['T', 'r', 'u', 'e']
  | bool false => ['F', 'a', 'l', 's', 'e']
  | int n => Text.intDigits n
  | float x => x.plainText
  | text s => Text.quotedChars s.toList
  | list vs => '[' :: (displayItems vs ++ [']'])
  | dict es => '{' :: (displayEntries es ++ ['}'])
  | object o => match o.display with
    | .ok s => s.toList
    | .error _ => []

/-- The displays of the items of a list, separated by commas. -/
def displayItems : List Value → List Char
  | [] => []
  | [v] => displayChars v
  | v :: vs => displayChars v ++ commaBlank ++ displayItems vs

/-- The displays of the entries of a dictionary, separated by commas. -/
def displayEntries : List (String × Value) → List Char
  | [] => []
  | [(k, v)] => displayEntry k v
  | (k, v) :: es => displayEntry k v ++ commaBlank ++ displayEntries es

/-- The display of one entry of a dictionary. -/
def displayEntry (key : String) (v : Value) : List Char :=
  Text.quotedChars key.toList ++ [':', ' '] ++ displayChars v

end

/-- The display of a value: its written form inside messages. -/
def display (v : Value) : Except NoText String :=
  match v.noDisplay? with
  | some e => .error e
  | none => .ok (String.ofList v.displayChars)

/-- The error met in making the text of a value, if it has none. -/
def noText? : Value → Option NoText
  | text _ => none
  | object o => match o.text with
    | .ok _ => none
    | .error e => some e
  | v => v.noDisplay?

/-- The text of a value that has one: a text as it is, an object by its own text, any other
value by its display. -/
def shown : Value → String
  | text s => s
  | object o => match o.text with
    | .ok s => s
    | .error _ => ""
  | v => String.ofList v.displayChars

/-- A value has a display. -/
def HasDisplay (v : Value) : Prop := v.noDisplay? = none

/-- A value has a text. -/
def HasText (v : Value) : Prop := v.noText? = none

instance (v : Value) : Decidable v.HasDisplay := inferInstanceAs (Decidable (_ = none))

instance (v : Value) : Decidable v.HasText := inferInstanceAs (Decidable (_ = none))

theorem display_eq_ok {v : Value} (h : v.HasDisplay) :
    v.display = .ok (String.ofList v.displayChars) := by
  rw [display, show v.noDisplay? = none from h]

theorem display_eq_error {v : Value} {e : NoText} (h : v.noDisplay? = some e) :
    v.display = .error e := by
  rw [display, h]

@[simp] theorem shown_text (s : String) : (text s).shown = s := rfl

@[simp] theorem noText?_text (s : String) : (text s).noText? = none := rfl

theorem hasText_text (s : String) : (text s).HasText := rfl

/-! ## Depth -/

mutual

/-- How deep a value is nested: the greatest number of lists and dictionaries around one
member. A value without members has no depth. -/
def depth : Value → Nat
  | list vs => depthOfItems vs
  | dict es => depthOfEntries es
  | _ => 0

/-- The depth of a list with the given items. -/
def depthOfItems : List Value → Nat
  | [] => 0
  | v :: vs => max (depth v + 1) (depthOfItems vs)

/-- The depth of a dictionary with the given entries. -/
def depthOfEntries : List (String × Value) → Nat
  | [] => 0
  | (_, v) :: es => max (depth v + 1) (depthOfEntries es)

end

example : depth (.list [.list [], .null]) = 1 := by decide

/-! ## Repeated keys -/

mutual

/-- A value in which every dictionary names each key once, with its last value. -/
def merged : Value → Value
  | list vs => list (mergedItems vs)
  | dict es => dict (Entries.merged (mergedMembers es))
  | v => v

/-- `merged` for each item of a list. -/
def mergedItems : List Value → List Value
  | [] => []
  | v :: vs => merged v :: mergedItems vs

/-- `merged` for each value of a dictionary. -/
def mergedMembers : List (String × Value) → List (String × Value)
  | [] => []
  | (k, v) :: es => (k, merged v) :: mergedMembers es

end

end Value

/-- An optional text as a value. -/
def Value.ofText? : Option String → Value
  | some s => .text s
  | none => .null

/-- Texts by key as a dictionary. -/
def Value.ofTexts (es : Entries String) : Value := .dict (es.map fun e => (e.1, .text e.2))

end LinkedTables
