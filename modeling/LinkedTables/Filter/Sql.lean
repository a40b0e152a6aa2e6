import LinkedTables.Filter.Basic
import LinkedTables.Problem

set_option autoImplicit false

/-! # Filters in SQL

A filter is rendered as a boolean expression with parentheses around every operator that
has a form of its own. Comparisons and the connectives stand between their operands;
negation, membership, ranges and null tests have their usual forms, each at its usual
number of operands; any other call is written as an application of its operator.

Operators are recognised in any letter case. Columns and the operators of applications are
written as they are. A constant that is no number, truth value or null is written as a
literal in single quotes, in which the backslash and the quote follow a backslash. A filter
with a constant that has no text, or with a foreign value, has no expression.
-/

namespace LinkedTables.Filter

/-! ## Literals -/

/-- One character of a literal. -/
def literalChar (c : Char) : List Char :=
  if c = '\\' ∨ c = '\'' then ['\\', c] else [c]

/-- A text as a literal. -/
def textLiteral (cs : List Char) : List Char := '\'' :: (cs.flatMap literalChar ++ ['\''])

/-- A constant that has a text. -/
def literalChars : Value → List Char
  | .null => ['N', 'U', 'L', 'L']
  | .bool true => ['T', 'R', 'U', 'E']
  | .bool false => ['F', 'A', 'L', 'S', 'E']
  | .int n => Text.intDigits n
  | .float x => x.plainText
  | v => textLiteral v.shown.toList

example : textLiteral ['a', '\'', '\\'] = ['\'', 'a', '\\', '\'', '\\', '\\', '\''] := by decide

/-! ## Forms -/

/-- How a call is written. -/
inductive Form where
  /-- The symbol between the operands. -/
  | chain (symbol : List Char)
  /-- The negation of one operand. -/
  | negation
  /-- The first operand among the others. -/
  | membership
  /-- The first operand between the second and the third. -/
  | range
  /-- A test for null, or with `true` for its opposite. -/
  | nullTest (negated : Bool)
  /-- The operator before its operands in parentheses. -/
  | application
deriving DecidableEq, Repr

/-- The lower case of a character as far as names of operators go: of the characters
outside ASCII only the sign of the kelvin has an ASCII letter as its lower case. -/
def foldChar (c : Char) : Char := if c = '\u212A' then 'k' else c.toLower

/-- The operators that stand between their operands, in lower case, with their symbols. -/
def chainSymbols : List (List Char × List Char) :=
  [(['='], ['=']), (['!', '='], ['!', '=']), (['<', '>'], ['<', '>']), (['<'], ['<']),
   (['<', '='], ['<', '=']), (['>'], ['>']), (['>', '='], ['>', '=']),
   (['l', 'i', 'k', 'e'], ['L', 'I', 'K', 'E']), (['a', 'n', 'd'], ['A', 'N', 'D']),
   (['o', 'r'], ['O', 'R'])]

/-- The form of an operator with a given number of operands. -/
def form (operator : String) (count : Nat) : Form :=
  let folded := operator.toList.map foldChar
  match chainSymbols.lookup folded with
  | some symbol => .chain symbol
  | none =>
    if folded = ['n', 'o', 't'] ∧ count = 1 then .negation
    else if folded = ['i', 'n'] ∧ 0 < count then .membership
    else if folded = ['b', 'e', 't', 'w', 'e', 'e', 'n'] ∧ count = 3 then .range
    else if folded = ['i', 's', 'n', 'u', 'l', 'l'] ∧ count = 1 then .nullTest false
    else if folded = ['i', 's', 'n', 'o', 't', 'n', 'u', 'l', 'l'] ∧ count = 1 then
      .nullTest true
    else .application

/-- A text in parentheses. -/
def parenthesized (cs : List Char) : List Char := '(' :: (cs ++ [')'])

/-- Texts with a comma and a blank between them. -/
def commaSeparated (parts : List (List Char)) : List Char := [',', ' '].intercalate parts

/-- A call in its form. -/
def applied (operator : String) (operands : List (List Char)) : List Char :=
  match form operator operands.length, operands with
  | .chain symbol, _ => parenthesized ((' ' :: (symbol ++ [' '])).intercalate operands)
  | .negation, [a] => parenthesized (['N', 'O', 'T', ' '] ++ a)
  | .membership, a :: others =>
    parenthesized (a ++ [' ', 'I', 'N', ' '] ++ parenthesized (commaSeparated others))
  | .range, [a, low, high] =>
    parenthesized (a ++ [' ', 'B', 'E', 'T', 'W', 'E', 'E', 'N', ' '] ++ low ++
      [' ', 'A', 'N', 'D', ' '] ++ high)
  | .nullTest false, [a] => parenthesized (a ++ [' ', 'I', 'S', ' ', 'N', 'U', 'L', 'L'])
  | .nullTest true, [a] =>
    parenthesized (a ++ [' ', 'I', 'S', ' ', 'N', 'O', 'T', ' ', 'N', 'U', 'L', 'L'])
  | _, _ => operator.toList ++ parenthesized (commaSeparated operands)

/-! ## Rendering -/

mutual

/-- The expression of a filter that has one; a foreign value leaves its place empty. -/
def sqlChars : Filter → List Char
  | call operator operands => applied operator (sqlParts operands)
  | column name => name.toList
  | constant _ v => literalChars v
  | foreign _ => []

/-- The expressions of the operands of a call. -/
def sqlParts : List Filter → List (List Char)
  | [] => []
  | f :: fs => sqlChars f :: sqlParts fs

end

/-- The problem that a foreign value has no operator to render. -/
def noOperator (v : Value) : Problem :=
  .error .attribute ("'" ++ v.typeName ++ "' object has no attribute 'operator'")

mutual

/-- Why a filter has no expression: its first leaf from left to right that has none. -/
def noSql? : Filter → Option Problem
  | call _ operands => noSqlIn? operands
  | column _ => none
  | constant _ v => v.noText?.map NoText.problem
  | foreign v => some (noOperator v)

/-- Why the operands of a call have no expressions. -/
def noSqlIn? : List Filter → Option Problem
  | [] => none
  | f :: fs => (noSql? f).or (noSqlIn? fs)

end

/-- Renders a filter. -/
def sql (f : Filter) : Except Problem String :=
  match f.noSql? with
  | some p => .error p
  | none => .ok (String.ofList f.sqlChars)

@[simp] theorem length_sqlParts (fs : List Filter) : (sqlParts fs).length = fs.length := by
  induction fs with
  | nil => rfl
  | cons f fs ih => simp [sqlParts, ih]

end LinkedTables.Filter
