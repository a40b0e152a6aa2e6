import LinkedTables.Filter.Sql
import Mathlib.Tactic.SplitIfs

set_option autoImplicit false

/-! # Forms of calls

What the form of a call says of its operator and of the number of its operands. Every form
but application belongs to one word, which the operator is in some letter case: `FormOf`.
-/

namespace LinkedTables.Filter

/-- The word in lower case for the operators of a form. -/
def Form.word : Form → List Char
  | .chain symbol => symbol.map Char.toLower
  | .negation => ['n', 'o', 't']
  | .membership => ['i', 'n']
  | .range => ['b', 'e', 't', 'w', 'e', 'e', 'n']
  | .nullTest false => ['i', 's', 'n', 'u', 'l', 'l']
  | .nullTest true => ['i', 's', 'n', 'o', 't', 'n', 'u', 'l', 'l']
  | .application => []

/-- The operator of a call and the number of its operands fit a form. -/
inductive FormOf (operator : String) (count : Nat) : Form → Prop
  | chain {symbol : List Char} (hs : symbol ∈ chainSymbols.map (·.2))
      (ho : operator.toList.map foldChar = (Form.chain symbol).word) :
      FormOf operator count (.chain symbol)
  | negation (ho : operator.toList.map foldChar = Form.negation.word) (hc : count = 1) :
      FormOf operator count .negation
  | membership (ho : operator.toList.map foldChar = Form.membership.word) (hc : 0 < count) :
      FormOf operator count .membership
  | range (ho : operator.toList.map foldChar = Form.range.word) (hc : count = 3) :
      FormOf operator count .range
  | nullTest {negated : Bool}
      (ho : operator.toList.map foldChar = (Form.nullTest negated).word) (hc : count = 1) :
      FormOf operator count (.nullTest negated)
  | application (ho : chainSymbols.lookup (operator.toList.map foldChar) = none) :
      FormOf operator count .application

/-- A symbol in lower case is the word that it is looked up by. -/
theorem lookup_chainSymbols {word symbol : List Char}
    (h : chainSymbols.lookup word = some symbol) :
    symbol ∈ chainSymbols.map (·.2) ∧ word = (Form.chain symbol).word := by
  have hwords : ∀ p ∈ chainSymbols, p.1 = (Form.chain p.2).word := by decide
  obtain ⟨before, after, hs, -⟩ := List.lookup_eq_some_iff.mp h
  have hmem : (word, symbol) ∈ chainSymbols := by
    rw [hs]
    simp
  exact ⟨List.mem_map_of_mem hmem, hwords _ hmem⟩

theorem formOf_form (operator : String) (count : Nat) :
    FormOf operator count (form operator count) := by
  unfold form
  dsimp only
  split
  next symbol h =>
    obtain ⟨hs, ho⟩ := lookup_chainSymbols h
    exact .chain hs ho
  next h =>
    split_ifs with hnot hin hbetween hnull hnotnull
    · exact .negation hnot.1 hnot.2
    · exact .membership hin.1 hin.2
    · exact .range hbetween.1 hbetween.2
    · exact .nullTest hnull.1 hnull.2
    · exact .nullTest hnotnull.1 hnotnull.2
    · exact .application h

theorem sqlParts_eq_map (fs : List Filter) : sqlParts fs = fs.map sqlChars := by
  induction fs with
  | nil => rfl
  | cons f fs ih => rw [sqlParts, ih, List.map_cons]

end LinkedTables.Filter
