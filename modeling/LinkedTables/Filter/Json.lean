import LinkedTables.Filter.Basic
import LinkedTables.Json.Parser
import LinkedTables.Json.Printer
import LinkedTables.Problem

set_option autoImplicit false

/-! # Filters in JSON

Each node of a filter is an object whose member `kind` tells which of the three kinds of
node it is: a `function` with its `operator` and its `children`, a `column` with its
`name`, or a `constant` with its `type_name` and its `value`. The children, the type and
the value may be left out; no other members may be there. The constant's value is any
document.

`Filter.encode` writes a filter in this form and `Filter.decode` reads it back from bytes.
-/

namespace LinkedTables.Filter

/-! ## Writing -/

mutual

/-- A filter as a document. -/
def toValue : Filter → Value
  | call operator operands =>
    .dict [("kind", .text "function"), ("operator", .text operator),
      ("children", .list (toValues operands))]
  | column name => .dict [("kind", .text "column"), ("name", .text name)]
  | constant typeName v =>
    .dict [("kind", .text "constant"), ("type_name", .text typeName), ("value", v)]
  | foreign v => v

/-- The operands of a call as documents. -/
def toValues : List Filter → List Value
  | [] => []
  | f :: fs => toValue f :: toValues fs

end

/-- The text of a filter in JSON. -/
def encode (f : Filter) : String := Json.compact f.toValue

/-! ## Reading -/

/-- The kinds of nodes. -/
inductive NodeKind where
  /-- An operator applied to operands. -/
  | function
  /-- A column. -/
  | column
  /-- A constant. -/
  | constant
deriving DecidableEq, Repr

namespace NodeKind

/-- The word for a kind of node. -/
def word : NodeKind → String
  | function => "function"
  | column => "column"
  | constant => "constant"

/-- The kind of node that a word stands for. -/
def ofWord? (s : String) : Option NodeKind :=
  [function, column, constant].find? fun k => k.word == s

@[simp] theorem ofWord?_word (k : NodeKind) : ofWord? k.word = some k := by cases k <;> decide

end NodeKind

/-- Reads the kind of a node from the members of its object. -/
def readKind (es : Entries Value) : Checked NodeKind :=
  match Entries.get? es "kind" with
  | none => .fault .missingTag
  | some (.text s) =>
    match NodeKind.ofWord? s with
    | some kind => .valid kind
    | none => .fault .unknownTag
  | some _ => .fault .unknownTag

/-- Reads the members of a column. -/
def readColumn (es : Entries Value) : Checked Filter :=
  Schema.closed ["kind", "name"] (fun es =>
    (fun n => column n.text) <$> Schema.required es "name" Schema.name) es

/-- Reads the members of a constant. -/
def readConstant (es : Entries Value) : Checked Filter :=
  Schema.closed ["kind", "type_name", "value"] (fun es =>
    constant <$> Schema.field es "type_name" defaultType Schema.text
      <*> Schema.field es "value" Value.null (fun v => .valid v.merged)) es

/-- Reads the members of a call, whose operands, if there are any, have been read before. -/
def readCall (operands : Option (Checked (List Filter))) (es : Entries Value) :
    Checked Filter :=
  Schema.closed ["kind", "operator", "children"] (fun es =>
    (fun n fs => call n.text fs) <$> Schema.required es "operator" Schema.name
      <*> ((operands.getD (.valid [])).under (.key "children"))) es

mutual

/-- Reads a node from its document. -/
def read : Value → Checked Filter
  | .dict es =>
    match readKind es with
    | .refused faults => .refused faults
    | .valid .function => (readCall (readChildren es) es).under (.key "function")
    | .valid .column => (readColumn es).under (.key "column")
    | .valid .constant => (readConstant es).under (.key "constant")
  | _ => .fault .notDictionary

/-- Reads the operands from the last member that holds some. -/
def readChildren : List (String × Value) → Option (Checked (List Filter))
  | [] => none
  | (k, v) :: es =>
    match readChildren es with
    | some fs => some fs
    | none => if k = "children" then some (readOperands v) else none

/-- Reads a list of operands. -/
def readOperands : Value → Checked (List Filter)
  | .list vs => readNodes 0 vs
  | _ => .fault .notOperands

/-- Reads the nodes of a list from a given position on. -/
def readNodes : Nat → List Value → Checked (List Filter)
  | _, [] => .valid []
  | i, v :: vs => List.cons <$> (read v).under (.index i) <*> readNodes (i + 1) vs

end

/-- Reads a filter from the bytes of its JSON text. -/
def readBytes (bytes : ByteArray) : Checked Filter :=
  match Json.parseBytes? bytes with
  | some v => read v
  | none => .fault .notJson

/-- Decodes the bytes of a filter; faults of the bytes are the cause of one failure. -/
def decode (bytes : ByteArray) : Except Problem Filter :=
  match readBytes bytes with
  | .valid f => .ok f
  | .refused faults =>
    let cause := Problem.refused faults
    .error (.failure (.filterBytes (some cause.text)) (some cause))

end LinkedTables.Filter
