set_option autoImplicit false

/-! # Entries

Keyed data in the order in which it was given: properties, parameters, the members of a
JSON object. A list of entries may name a key twice, as a JSON object may; the last entry
for a key is the one that counts. `Entries.merged` removes the others and leaves each key
where it first stood.

What is under a key after `Entries.set` and `Entries.erase` is what one expects of them,
whether or not the list names a key twice: `get?_set` and `get?_erase`.
-/

namespace LinkedTables

/-- Values by key, in the order in which they were given. -/
abbrev Entries (α : Type) := List (String × α)

namespace Entries

variable {α : Type}

/-- The value of the last entry for a key. -/
def get? (es : Entries α) (key : String) : Option α := es.reverse.lookup key

/-- The entries without those for a key. -/
def erase (es : Entries α) (key : String) : Entries α := es.filter fun e => e.1 != key

/-- Puts a value under a key: in the place of the key's first entry, or else at the end. -/
def set : Entries α → String → α → Entries α
  | [], key, value => [(key, value)]
  | (k, v) :: es, key, value =>
    if k = key then (k, value) :: erase es key else (k, v) :: set es key value

/-- The entries with each key kept once, where it first stood, with its last value. -/
def merged (es : Entries α) : Entries α := es.foldl (fun acc e => acc.set e.1 e.2) []

/-! ## What is under a key -/

@[simp] theorem get?_nil (key : String) : get? ([] : Entries α) key = none := rfl

theorem get?_cons (k : String) (v : α) (es : Entries α) (key : String) :
    get? ((k, v) :: es) key = (get? es key).or (if key = k then some v else none) := by
  by_cases h : key = k
  · simp [get?, List.lookup_append, h]
  · simp [get?, List.lookup_append, List.lookup_cons, h, beq_eq_false_iff_ne.2 h]

@[simp] theorem get?_append_single (es : Entries α) (k key : String) (v : α) :
    get? (es ++ [(k, v)]) key = if key = k then some v else get? es key := by
  by_cases h : key = k
  · simp [get?, h]
  · simp [get?, List.lookup_cons, h, beq_eq_false_iff_ne.2 h]

theorem get?_erase (es : Entries α) (k key : String) :
    get? (erase es k) key = if key = k then none else get? es key := by
  induction es with
  | nil => simp [erase]
  | cons e es ih =>
    obtain ⟨k', v⟩ := e
    by_cases hk : k' = k
    · subst hk
      have he : erase ((k', v) :: es) k' = erase es k' := by simp [erase]
      rw [he, ih, get?_cons]
      by_cases h : key = k' <;> simp [h]
    · have he : erase ((k', v) :: es) k = (k', v) :: erase es k := by simp [erase, hk]
      rw [he, get?_cons, get?_cons, ih]
      by_cases h : key = k
      · subst h
        simp [Ne.symm hk]
      · simp [h]

theorem get?_set (es : Entries α) (k key : String) (v : α) :
    get? (set es k v) key = if key = k then some v else get? es key := by
  induction es with
  | nil => by_cases h : key = k <;> simp [set, get?_cons, h]
  | cons e es ih =>
    obtain ⟨k', v'⟩ := e
    by_cases hk : k' = k
    · subst hk
      rw [set, if_pos rfl, get?_cons, get?_cons, get?_erase]
      by_cases h : key = k' <;> simp [h]
    · rw [set, if_neg hk, get?_cons, get?_cons, ih]
      by_cases h : key = k
      · subst h
        simp [Ne.symm hk]
      · simp [h]

example : get? [("a", 1), ("b", 2), ("a", 3)] "a" = some 3 := by decide

example : merged [("a", 1), ("b", 2), ("a", 3)] = [("a", 3), ("b", 2)] := by decide

end Entries

end LinkedTables
