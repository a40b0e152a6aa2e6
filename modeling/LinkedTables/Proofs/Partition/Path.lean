import LinkedTables.Partition.Path

set_option autoImplicit false

/-! # Components of paths

No key and no value puts a slash into the path of a partition, since slashes are escaped. So
the components that a path was made of are found again between its slashes
(`components_path`).
-/

namespace LinkedTables.PartitionPath

/-- The components of a relative path, which stand between its slashes. -/
def components (relative : String) : List (List Char) := relative.toList.splitOn '/'

/-- The characters that are escaped are ASCII characters. -/
theorem toNat_lt_of_isEscaped {c : Char} (h : isEscaped c = true) : c.toNat < 128 := by
  have hmarks : ∀ mark ∈ escapedMarks, mark.toNat < 128 := by
    simp [escapedMarks]
  rw [isEscaped, Bool.or_eq_true, Bool.and_eq_true, decide_eq_true_eq, decide_eq_true_eq,
    List.contains_iff_mem] at h
  rcases h with ⟨-, hcontrol⟩ | hmark
  · omega
  · exact hmarks c hmark

/-- The digits of base sixteen with capital letters. -/
def capitalDigits : List Char :=
  ['0', '1', '2', '3', '4', '5', '6', '7', '8', '9', 'A', 'B', 'C', 'D', 'E', 'F']

theorem capitalHexDigit_mem : ∀ n < 16, capitalHexDigit n ∈ capitalDigits := by decide

/-- Of the characters that are escaped, only the percent sign is written. -/
theorem eq_or_of_mem_escapedChar {c d : Char} (h : d ∈ escapedChar c) :
    d = '%' ∨ isEscaped d = false := by
  have hdigits : ∀ d ∈ capitalDigits, isEscaped d = false := by
    simp [capitalDigits, isEscaped, escapedMarks]
  rw [escapedChar] at h
  split at h
  next hc =>
    have hlt := toNat_lt_of_isEscaped hc
    rw [List.mem_cons, List.mem_cons, List.mem_singleton] at h
    rcases h with rfl | rfl | rfl
    · exact .inl rfl
    · exact .inr (hdigits _ (capitalHexDigit_mem _ (by omega)))
    · exact .inr (hdigits _ (capitalHexDigit_mem _ (by omega)))
  next hc =>
    cases List.mem_singleton.mp h
    exact .inr (Bool.eq_false_iff.mpr hc)

theorem eq_or_of_mem_escapedChars {cs : List Char} {d : Char} (h : d ∈ escapedChars cs) :
    d = '%' ∨ isEscaped d = false := by
  cases cs with
  | nil =>
      -- The name of the default partition is written as it is.
      have hname : ∀ d ∈ defaultName.toList, isEscaped d = false := by
        simp [defaultName, isEscaped, escapedMarks]
      exact .inr (hname d h)
  | cons c cs =>
      rw [escapedChars] at h
      obtain ⟨c', -, hd⟩ := List.mem_flatMap.mp h
      exact eq_or_of_mem_escapedChar hd

theorem not_mem_escapedChars {mark : Char} (h : isEscaped mark = true) (hne : mark ≠ '%')
    (cs : List Char) : mark ∉ escapedChars cs := by
  intro hmem
  rcases eq_or_of_mem_escapedChars hmem with hpercent | hplain
  · exact hne hpercent
  · cases h.symm.trans hplain

theorem slash_not_mem_component (key value : String) : '/' ∉ component key value := by
  rw [component, List.mem_append, List.mem_cons, not_or, not_or]
  have hslash : ∀ cs, '/' ∉ escapedChars cs := not_mem_escapedChars (by decide) (by decide)
  exact ⟨hslash _, by decide, hslash _⟩

/-- **A path has one component for each key,** in the order of the keys. -/
theorem components_path {values : Entries String} (h : values ≠ []) :
    components (path values) = values.map fun e => component e.1 e.2 := by
  rw [components, path, String.toList_ofList]
  apply List.splitOn_intercalate
  · intro part hpart
    obtain ⟨e, -, rfl⟩ := List.mem_map.mp hpart
    exact slash_not_mem_component e.1 e.2
  · exact fun hnil => h (List.map_eq_nil_iff.mp hnil)

end LinkedTables.PartitionPath
