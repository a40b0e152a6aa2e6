set_option autoImplicit false

/-! # Names

A name is a text that is not empty: the parts of a table's address, a partition key, the
output table of a job.
-/

namespace LinkedTables

/-- A text that is not empty. -/
structure Name where
  /-- The text of the name. -/
  text : String
  /-- A name is not empty. -/
  nonempty : text ≠ ""
deriving DecidableEq

namespace Name

/-- The name with a given text, unless that is empty. -/
def ofText? (s : String) : Option Name := if h : s ≠ "" then some ⟨s, h⟩ else none

instance : ToString Name := ⟨text⟩

@[ext] theorem ext {a b : Name} (h : a.text = b.text) : a = b := by
  cases a; cases b; cases h; rfl

@[simp] theorem ofText?_text (n : Name) : ofText? n.text = some n := by
  simp [ofText?, n.nonempty]

theorem ofText?_eq_none_iff (s : String) : ofText? s = none ↔ s = "" := by
  by_cases h : s = "" <;> simp [ofText?, h]

end Name

end LinkedTables
