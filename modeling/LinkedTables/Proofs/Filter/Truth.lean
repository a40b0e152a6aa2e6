import LinkedTables.Filter.PartitionId
import LinkedTables.Filter.Sql
import LinkedTables.Proofs.Partition.DashOrder

set_option autoImplicit false

/-! # The truth of a filter

A filter is true or false of a partition once its columns have texts. `truth?` reads a
call by its form, which is how the call is written in a query: comparisons, membership,
ranges and tests for null look at the texts of their operands, and negation and the
connectives at their truth. Texts are compared character by character. Calls of other
operators, and calls with operands that do not fit, have no truth value.

`Selects P` are the filters built from operators with a meaning, each at its usual number of
operands, with constants from a set `P`.
-/

namespace LinkedTables.Filter

/-! ## Truth -/

/-- The comparison of texts that a symbol stands for. -/
def comparison? : List Char → Option (String → String → Bool)
  | ['='] => some fun a b => decide (a = b)
  | ['!', '='] => some fun a b => decide (a ≠ b)
  | ['<', '>'] => some fun a b => decide (a ≠ b)
  | ['<'] => some fun a b => decide (a < b)
  | ['<', '='] => some fun a b => decide (a ≤ b)
  | ['>'] => some fun a b => decide (b < a)
  | ['>', '='] => some fun a b => decide (b ≤ a)
  | _ => none

/-- The symbol of conjunction. -/
def andSymbol : List Char := ['A', 'N', 'D']

/-- The symbol of disjunction. -/
def orSymbol : List Char := ['O', 'R']

/-- Whether the operands of a form are filters of their own. -/
def Form.joins : Form → Bool
  | .chain symbol => symbol = andSymbol || symbol = orSymbol
  | .negation => true
  | _ => false

/-- What a form says of the texts of its operands. -/
def tested : Form → List String → Option Bool
  | .chain symbol, [a, b] => (comparison? symbol).map fun holds => holds a b
  | .membership, a :: others => some (decide (a ∈ others))
  | .range, [a, low, high] => some (decide (low ≤ a) && decide (a ≤ high))
  | .nullTest negated, [_] => some negated
  | _, _ => none

/-- What a form says of the truth values of its operands. -/
def joined : Form → List Bool → Option Bool
  | .chain symbol, b :: bs =>
    if symbol = andSymbol then some ((b :: bs).all id)
    else if symbol = orSymbol then some ((b :: bs).any id)
    else none
  | .negation, [b] => some !b
  | _, _ => none

/-- The text of an operand, where the columns have the given texts. -/
def operandText? (columns : String → String) : Filter → Option String
  | column name => some (columns name)
  | constant _ (.text s) => some s
  | _ => none

mutual

/-- The truth value of a filter, where the columns have the given texts. -/
def truth? (columns : String → String) : Filter → Option Bool
  | call operator operands =>
    let form := form operator operands.length
    if form.joins then (truths? columns operands).bind (joined form)
    else (operands.mapM (operandText? columns)).bind (tested form)
  | _ => none

/-- The truth values of the operands of a call. -/
def truths? (columns : String → String) : List Filter → Option (List Bool)
  | [] => some []
  | f :: fs => do
    let b ← truth? columns f
    let bs ← truths? columns fs
    return b :: bs

end

/-! ## Filters that have a truth value -/

/-- Columns, and constants that are texts of a set. -/
inductive Operand (P : String → Prop) : Filter → Prop
  | column (name : String) : Operand P (.column name)
  | constant (typeName : String) {s : String} (h : P s) : Operand P (.constant typeName (.text s))

/-- An operator is a word, in whatever letter case. -/
def IsWord (operator word : String) : Prop :=
  operator.toList.map foldChar = word.toList.map foldChar

/-- The words for comparisons. -/
def comparisonWords : List String := ["=", "!=", "<>", "<", "<=", ">", ">="]

/-- Filters that are built from the operators with a meaning, each at its usual number of
operands, over columns and constants from a set. -/
inductive Selects (P : String → Prop) : Filter → Prop
  | comparison {operator word : String} {a b : Filter} (hw : word ∈ comparisonWords)
      (ho : IsWord operator word) (h : ∀ x ∈ [a, b], Operand P x) :
      Selects P (.call operator [a, b])
  | membership {operator : String} {a : Filter} {others : List Filter}
      (ho : IsWord operator "in") (h : ∀ x ∈ a :: others, Operand P x) :
      Selects P (.call operator (a :: others))
  | range {operator : String} {a low high : Filter}
      (ho : IsWord operator "between") (h : ∀ x ∈ [a, low, high], Operand P x) :
      Selects P (.call operator [a, low, high])
  | isNull {operator : String} {a : Filter}
      (ho : IsWord operator "isnull") (h : ∀ x ∈ [a], Operand P x) :
      Selects P (.call operator [a])
  | isNotNull {operator : String} {a : Filter}
      (ho : IsWord operator "isnotnull") (h : ∀ x ∈ [a], Operand P x) :
      Selects P (.call operator [a])
  | conjunction {operator : String} {f : Filter} {fs : List Filter}
      (ho : IsWord operator "and") (h : ∀ x ∈ f :: fs, Selects P x) :
      Selects P (.call operator (f :: fs))
  | disjunction {operator : String} {f : Filter} {fs : List Filter}
      (ho : IsWord operator "or") (h : ∀ x ∈ f :: fs, Selects P x) :
      Selects P (.call operator (f :: fs))
  | negation {operator : String} {f : Filter}
      (ho : IsWord operator "not") (h : ∀ x ∈ [f], Selects P x) :
      Selects P (.call operator [f])

/-! ## Forms of the words -/

/-- The form of a call does not depend on the letter case of its operator. -/
theorem form_of_isWord {operator word : String} (h : IsWord operator word) (count : Nat) :
    form operator count = form word count := by
  rw [IsWord] at h
  simp only [form, h]

/-- Each comparison has a form that compares two texts. -/
theorem form_comparison {word : String} (hw : word ∈ comparisonWords) :
    ∃ symbol holds, form word 2 = .chain symbol ∧ (Form.chain symbol).joins = false ∧
      comparison? symbol = some holds := by
  simp only [comparisonWords, List.mem_cons, List.not_mem_nil, or_false] at hw
  rcases hw with rfl | rfl | rfl | rfl | rfl | rfl | rfl <;> exact ⟨_, _, rfl, rfl, rfl⟩

end LinkedTables.Filter
