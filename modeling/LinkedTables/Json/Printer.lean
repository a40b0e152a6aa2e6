import LinkedTables.Value

set_option autoImplicit false

/-! # Writing JSON

A value is written on one line without blanks, or over several lines with an indentation
of two blanks per level, where empty lists and objects stay on their line. In texts the
quote, the backslash and the control characters below the blank are escaped, five of the
latter by a letter and the others by their code point; all other characters stand for
themselves. Doubles without a finite value are written as `null`. Objects of other types have
no JSON of their own; what is written for them is not modelled, and `null` stands in its place.
-/

namespace LinkedTables.Json

/-- One character of a text. -/
def escapedChar (c : Char) : List Char :=
  if c = '"' then ['\\', '"']
  else if c = '\\' then ['\\', '\\']
  else if c = '\x08' then ['\\', 'b']
  else if c = '\x0C' then ['\\', 'f']
  else if c = '\n' then ['\\', 'n']
  else if c = '\r' then ['\\', 'r']
  else if c = '\t' then ['\\', 't']
  else if c.toNat < 0x20 then '\\' :: 'u' :: Text.hexDigits 4 c.toNat
  else [c]

/-- A text between quotes. -/
def textChars (s : String) : List Char := '"' :: (s.toList.flatMap escapedChar ++ ['"'])

/-- A double, or `null` where JSON has no text for it. -/
def floatChars (x : Binary64) : List Char := (x.write? .json).getD ['n', 'u', 'l', 'l']

/-- The values that have no members. -/
def atomChars : Value → List Char
  | .bool true => ['t', 'r', 'u', 'e']
  | .bool false => ['f', 'a', 'l', 's', 'e']
  | .int n => Text.intDigits n
  | .float x => floatChars x
  | .text s => textChars s
  | _ => ['n', 'u', 'l', 'l']

/-! ## On one line -/

mutual

/-- A value on one line. -/
def compactChars : Value → List Char
  | .list vs => '[' :: (compactItems vs ++ [']'])
  | .dict es => '{' :: (compactMembers es ++ ['}'])
  | v => atomChars v

/-- The items of a list, separated by commas. -/
def compactItems : List Value → List Char
  | [] => []
  | [v] => compactChars v
  | v :: vs => compactChars v ++ ',' :: compactItems vs

/-- The members of an object, separated by commas. -/
def compactMembers : List (String × Value) → List Char
  | [] => []
  | [(k, v)] => textChars k ++ ':' :: compactChars v
  | (k, v) :: es => textChars k ++ ':' :: (compactChars v ++ ',' :: compactMembers es)

end

/-- The text of a value on one line. -/
def compact (v : Value) : String := String.ofList (compactChars v)

/-! ## Over several lines -/

/-- A new line at a level of indentation. -/
def newLine (level : Nat) : List Char := '\n' :: List.replicate (2 * level) ' '

mutual

/-- A value over several lines, whose first line starts at the given level. -/
def indentedChars (level : Nat) : Value → List Char
  | .list (v :: vs) =>
    '[' :: (indentedItems (level + 1) (v :: vs) ++ newLine level ++ [']'])
  | .dict ((k, v) :: es) =>
    '{' :: (indentedMembers (level + 1) ((k, v) :: es) ++ newLine level ++ ['}'])
  | .list [] => ['[', ']']
  | .dict [] => ['{', '}']
  | v => atomChars v

/-- The items of a list, each on a new line. -/
def indentedItems (level : Nat) : List Value → List Char
  | [] => []
  | [v] => newLine level ++ indentedChars level v
  | v :: vs => newLine level ++ indentedChars level v ++ ',' :: indentedItems level vs

/-- The members of an object, each on a new line. -/
def indentedMembers (level : Nat) : List (String × Value) → List Char
  | [] => []
  | [(k, v)] => newLine level ++ textChars k ++ ':' :: ' ' :: indentedChars level v
  | (k, v) :: es =>
    newLine level ++ textChars k ++ ':' :: ' ' ::
      (indentedChars level v ++ ',' :: indentedMembers level es)

end

/-- The text of a value over several lines. -/
def indented (v : Value) : String := String.ofList (indentedChars 0 v)

example : compactChars (.list [.int 1, .null]) = ['[', '1', ',', 'n', 'u', 'l', 'l', ']'] := by
  decide

end LinkedTables.Json
