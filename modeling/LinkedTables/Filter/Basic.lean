import LinkedTables.Schema.Reader

set_option autoImplicit false

/-! # Partition filters

A filter is a tree of operator calls over columns and constants, by which the partitions
of a table are selected. A tree that comes from elsewhere may also hold values that are no
part of a filter; such a leaf is kept as `foreign`, and whatever has to understand the
filter refuses it.

In a well-formed filter no operator and no column has an empty name. `Filter.call?` and
`Filter.column?` build well-formed filters from well-formed parts; a call with a foreign
operand is not checked.
-/

namespace LinkedTables

/-- A filter over the columns of a table. -/
inductive Filter where
  /-- An operator applied to operands, in order. -/
  | call (operator : String) (operands : List Filter)
  /-- A column, by its name. -/
  | column (name : String)
  /-- A constant, with the name of its type. -/
  | constant (typeName : String) (value : Value)
  /-- A value that is no part of a filter. -/
  | foreign (value : Value)

namespace Filter

instance : Inhabited Filter := ⟨foreign .null⟩

/-- The type that constants have unless they say otherwise. -/
def defaultType : String := "string"

/-- Whether a filter is a foreign value. -/
def isForeign : Filter → Bool
  | foreign _ => true
  | _ => false

/-- A column with a name that is not empty. -/
def column? (name : String) : Checked Filter :=
  if name.isEmpty then .refused [⟨.emptyText, [.key "name"]⟩] else .valid (column name)

/-- A call of an operator whose name is not empty. -/
def call? (operator : String) (operands : List Filter) : Checked Filter :=
  if operator.isEmpty && !operands.any isForeign then
    .refused [⟨.emptyText, [.key "operator"]⟩]
  else .valid (call operator operands)

/-- The filter that a column has a value. -/
def equal (name : String) (value : Value) (typeName : String) : Filter :=
  call "=" [column name, constant typeName value]

/-- The filter that a column with a name that is not empty has a value. -/
def equal? (name : String) (value : Value) (typeName : String) : Checked Filter :=
  (column? name).map fun c => call "=" [c, constant typeName value]

mutual

/-- Whether a filter is free of foreign values and of empty names. -/
def wellFormed : Filter → Bool
  | call operator operands => !operator.isEmpty && allWellFormed operands
  | column name => !name.isEmpty
  | constant _ _ => true
  | foreign _ => false

/-- Whether all filters of a list are well-formed. -/
def allWellFormed : List Filter → Bool
  | [] => true
  | f :: fs => wellFormed f && allWellFormed fs

end

end Filter

end LinkedTables
