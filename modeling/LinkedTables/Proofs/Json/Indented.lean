import LinkedTables.Proofs.Json.Reading
import LinkedTables.Proofs.Json.Writing
import LinkedTables.Text.Utf8

set_option autoImplicit false

/-! # Values written over several lines

What is written for a value over several lines spells the same value as what is written on
one line: the line ends and the indentation are blanks, and they stand only where blanks may
(`spells_indentedChars`). All line ends are single line feeds, so such a text comes through
the reading of a text file as it is (`parse?_indented`).
-/

namespace LinkedTables

namespace Json

/-! ## Blanks -/

theorem blanks_newLine (level : Nat) : Blanks (newLine level) := by
  intro c hc
  rw [newLine, List.mem_cons, List.mem_replicate] at hc
  rcases hc with rfl | ⟨-, rfl⟩ <;> rfl

theorem blanks_single : Blanks [' '] := by
  intro c hc
  rw [List.mem_singleton.mp hc]
  rfl

/-! ## Values -/

mutual

/-- **What is written over several lines spells the value**, up to doubles without a finite
value. -/
theorem spells_indentedChars :
    ∀ (v : Value) (level : Nat), v.Writable → Spells (indentedChars level v) v.finitePart
  | .null, _, _ => .atom .null
  | .bool true, _, _ => .atom .truth
  | .bool false, _, _ => .atom .falsehood
  | .int _, _, .int h => .atom (atom_intDigits h)
  | .float x, _, _ => .atom (atom_floatChars x)
  | .text s, _, _ => .text (quoted_textChars s)
  | .list [], _, _ => .emptyList blanks_nil
  | .list (v :: vs), level, .list h => by
      obtain ⟨ws, cs, hw, heq, hs⟩ := spells_indentedItems (v :: vs) (level + 1)
        (blanks_newLine level) (by simp) h
      rw [indentedChars, List.append_assoc, heq]
      exact .list hw hs
  | .dict [], _, _ => .emptyDict blanks_nil
  | .dict ((k, v) :: es), level, .dict h => by
      obtain ⟨ws, cs, hw, heq, hs⟩ := spells_indentedMembers ((k, v) :: es) (level + 1)
        (blanks_newLine level) (by simp) h
      rw [indentedChars, List.append_assoc, heq]
      exact .dict hw hs

/-- The items of a list with the line end and the bracket after them: blanks, and then what
spells the items. -/
theorem spells_indentedItems : ∀ (vs : List Value) (level : Nat) {us : List Char}, Blanks us →
    vs ≠ [] → (∀ v ∈ vs, v.Writable) →
    ∃ ws cs, Blanks ws ∧ indentedItems level vs ++ (us ++ [']']) = ws ++ cs ∧
      SpellsItems cs (Value.finiteItems vs)
  | [], _, _, _, hne, _ => absurd rfl hne
  | [v], level, us, hu, _, h => by
      have hv := spells_indentedChars v level (h v (by simp))
      refine ⟨newLine level, _, blanks_newLine level, ?_, .last hv hu⟩
      rw [indentedItems, List.append_assoc]
  | v :: u :: vs, level, us, hu, _, h => by
      have hv := spells_indentedChars v level (h v (by simp))
      obtain ⟨ws, cs, hw, heq, hs⟩ := spells_indentedItems (u :: vs) level hu (by simp)
        fun w hw => h w (List.mem_cons_of_mem v hw)
      refine ⟨newLine level, _, blanks_newLine level, ?_, .more hv blanks_nil hw hs⟩
      rw [indentedItems.eq_3 _ _ _ (by simp), List.append_assoc, List.append_assoc,
        List.cons_append, heq]
      rfl

/-- The members of an object with the line end and the brace after them: blanks, and then
what spells the members. -/
theorem spells_indentedMembers : ∀ (es : List (String × Value)) (level : Nat) {us : List Char},
    Blanks us → es ≠ [] → (∀ e ∈ es, e.2.Writable) →
    ∃ ws cs, Blanks ws ∧ indentedMembers level es ++ (us ++ ['}']) = ws ++ cs ∧
      SpellsMembers cs (Value.finiteMembers es)
  | [], _, _, _, hne, _ => absurd rfl hne
  | [(k, v)], level, us, hu, _, h => by
      have hv := spells_indentedChars v level (h (k, v) (by simp))
      refine ⟨newLine level, _, blanks_newLine level, ?_,
        .last (quoted_textChars k) blanks_nil blanks_single hv hu⟩
      rw [indentedMembers]
      simp
  | (k, v) :: e :: es, level, us, hu, _, h => by
      have hv := spells_indentedChars v level (h (k, v) (by simp))
      obtain ⟨ws, cs, hw, heq, hs⟩ := spells_indentedMembers (e :: es) level hu (by simp)
        fun w hw => h w (List.mem_cons_of_mem (k, v) hw)
      refine ⟨newLine level, _, blanks_newLine level, ?_,
        .more (quoted_textChars k) blanks_nil blanks_single hv blanks_nil hw hs⟩
      rw [indentedMembers.eq_3 _ _ _ _ (by simp)]
      simp [heq]

end

/-! ## Line ends -/

theorem return_not_mem_escapedChar (c : Char) : '\r' ∉ escapedChar c := by
  have hcontrol : ∀ n < 32, '\r' ∉ Text.hexDigits 4 n := by decide
  rw [escapedChar]
  split_ifs with hquote hslash hback hfeed hline hreturn htab hsmall
  iterate 7 decide
  · simp [hcontrol c.toNat hsmall]
  · simpa using Ne.symm hreturn

theorem return_not_mem_textChars (s : String) : '\r' ∉ textChars s := by
  simp [textChars, return_not_mem_escapedChar]

theorem Digits.return_not_mem {ds : List Char} (h : Digits ds) : '\r' ∉ ds :=
  fun hr => absurd (h.2 '\r' hr) (by decide)

theorem Whole.return_not_mem {ds : List Char} (h : Whole ds) : '\r' ∉ ds := by
  rcases h with rfl | ⟨h, -⟩
  · decide
  · exact h.return_not_mem

theorem Part.return_not_mem {ps : List Char} {part : Option (List Char)} (h : Part ps part) :
    '\r' ∉ ps := by
  cases h with
  | absent => simp
  | present h => simpa using h.return_not_mem

theorem Power.return_not_mem {es : List Char} {power : Option Int} (h : Power es power) :
    '\r' ∉ es := by
  cases h with
  | absent => simp
  | present he hs h =>
      have hdigits := h.return_not_mem
      rcases he with rfl | rfl <;> cases hs <;> simpa using hdigits

theorem Number.return_not_mem {negative : Bool} {cs : List Char} {v : Value}
    (h : Number negative cs v) : '\r' ∉ cs := by
  cases h with
  | whole hds => exact hds.return_not_mem
  | double hds hp he _ =>
      simp [hds.return_not_mem, hp.return_not_mem, he.return_not_mem]

theorem Atom.return_not_mem {cs : List Char} {v : Value} (h : Atom cs v) : '\r' ∉ cs := by
  cases h with
  | number h => exact h.return_not_mem
  | negative h => simpa using h.return_not_mem
  | _ => decide

theorem return_not_mem_newLine (level : Nat) : '\r' ∉ newLine level := by
  simp [newLine]

mutual

theorem return_not_mem_indentedChars :
    ∀ (v : Value) (level : Nat), v.Writable → '\r' ∉ indentedChars level v
  | .null, _, _ => Atom.null.return_not_mem
  | .bool true, _, _ => Atom.truth.return_not_mem
  | .bool false, _, _ => Atom.falsehood.return_not_mem
  | .int _, _, .int h => (atom_intDigits h).return_not_mem
  | .float x, _, _ => (atom_floatChars x).return_not_mem
  | .text s, _, _ => return_not_mem_textChars s
  | .list [], _, _ => by simp [indentedChars]
  | .list (v :: vs), level, .list h => by
      have hitems := return_not_mem_indentedItems (v :: vs) (level + 1) h
      simp [indentedChars, hitems, return_not_mem_newLine]
  | .dict [], _, _ => by simp [indentedChars]
  | .dict ((k, v) :: es), level, .dict h => by
      have hmembers := return_not_mem_indentedMembers ((k, v) :: es) (level + 1) h
      simp [indentedChars, hmembers, return_not_mem_newLine]

theorem return_not_mem_indentedItems : ∀ (vs : List Value) (level : Nat),
    (∀ v ∈ vs, v.Writable) → '\r' ∉ indentedItems level vs
  | [], _, _ => List.not_mem_nil
  | [v], level, h => by
      have hv := return_not_mem_indentedChars v level (h v (by simp))
      simp [indentedItems, hv, return_not_mem_newLine]
  | v :: u :: vs, level, h => by
      have hv := return_not_mem_indentedChars v level (h v (by simp))
      have hitems := return_not_mem_indentedItems (u :: vs) level
        fun w hw => h w (List.mem_cons_of_mem v hw)
      rw [indentedItems.eq_3 _ _ _ (by simp)]
      simp [hv, hitems, return_not_mem_newLine]

theorem return_not_mem_indentedMembers : ∀ (es : List (String × Value)) (level : Nat),
    (∀ e ∈ es, e.2.Writable) → '\r' ∉ indentedMembers level es
  | [], _, _ => List.not_mem_nil
  | [(k, v)], level, h => by
      have hv := return_not_mem_indentedChars v level (h (k, v) (by simp))
      simp [indentedMembers, hv, return_not_mem_newLine, return_not_mem_textChars]
  | (k, v) :: e :: es, level, h => by
      have hv := return_not_mem_indentedChars v level (h (k, v) (by simp))
      have hmembers := return_not_mem_indentedMembers (e :: es) level
        fun w hw => h w (List.mem_cons_of_mem (k, v) hw)
      rw [indentedMembers.eq_3 _ _ _ _ (by simp)]
      simp [hv, hmembers, return_not_mem_newLine, return_not_mem_textChars]

end

theorem unifyLineEnds_of_not_mem {cs : List Char} (h : '\r' ∉ cs) :
    Text.unifyLineEnds cs = cs := by
  induction cs with
  | nil => rfl
  | cons c cs ih =>
      rw [List.mem_cons, not_or] at h
      rw [Text.unifyLineEnds.eq_2 _ _ (fun _ hc => absurd hc.symm h.1), if_neg (Ne.symm h.1),
        ih h.2]

theorem unifyLineEnds_indented {v : Value} (hv : v.Writable) :
    Text.unifyLineEnds (indented v).toList = (indented v).toList := by
  rw [indented, String.toList_ofList]
  exact unifyLineEnds_of_not_mem (return_not_mem_indentedChars v 0 hv)

/-! ## Documents -/

/-- **A document written over several lines reads back**, also through a text file. -/
theorem parse?_indented {v : Value} (hv : v.Writable) (hd : v.depth ≤ greatestDepth) :
    parse? (String.ofList (Text.unifyLineEnds (indented v).toList)) = some v.finitePart := by
  rw [unifyLineEnds_indented hv, String.ofList_toList]
  exact parse?_of_spells (spells_indentedChars v 0 hv) (by rwa [Value.depth_finitePart])

/-- A document written on one line reads back as well. -/
theorem parse?_compact {v : Value} (hv : v.Writable) (hd : v.depth ≤ greatestDepth) :
    parse? (compact v) = some v.finitePart :=
  parse?_of_spells (spells_compactChars v hv) (by rwa [Value.depth_finitePart])

end Json

end LinkedTables
