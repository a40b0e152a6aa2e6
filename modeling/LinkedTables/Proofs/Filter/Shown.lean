import LinkedTables.Proofs.Entries
import LinkedTables.Proofs.Filter.Documents
import LinkedTables.Proofs.Filter.Leaves
import LinkedTables.Proofs.Text.Digits

set_option autoImplicit false

/-! # Filters that can be shown

A leaf can be told of in a refusal only if it has a display. JSON knows no objects and no whole
numbers of more than `Json.mostDigits` digits, and a filter that is described by a document
holds no foreign value. So every leaf of a filter that was decoded from JSON has a display
(`Filter.shown_of_decode`); only other decoders can bring a filter that is refused for a leaf
without one.
-/

namespace LinkedTables

/-! ## Values with a display -/

namespace Value

theorem noDisplayIn?_eq_none_iff {vs : List Value} :
    noDisplayIn? vs = none ↔ ∀ v ∈ vs, v.HasDisplay := by
  induction vs with
  | nil => simp [noDisplayIn?]
  | cons v vs ih =>
      rw [noDisplayIn?, Option.or_eq_none_iff, ih, List.forall_mem_cons]
      rfl

theorem noDisplayAmong?_eq_none_iff {es : List (String × Value)} :
    noDisplayAmong? es = none ↔ ∀ e ∈ es, e.2.HasDisplay := by
  induction es with
  | nil => simp [noDisplayAmong?]
  | cons e es ih =>
      obtain ⟨k, v⟩ := e
      rw [noDisplayAmong?, Option.or_eq_none_iff, ih, List.forall_mem_cons]
      rfl

/-- A list has a display if all its items have one. -/
theorem hasDisplay_list_iff {vs : List Value} :
    (list vs).HasDisplay ↔ ∀ v ∈ vs, v.HasDisplay := noDisplayIn?_eq_none_iff

/-- A dictionary has a display if all its values have one. -/
theorem hasDisplay_dict_iff {es : List (String × Value)} :
    (dict es).HasDisplay ↔ ∀ e ∈ es, e.2.HasDisplay := noDisplayAmong?_eq_none_iff

theorem hasDisplay_int {n : Int} (h : (Text.natDigits n.natAbs).length ≤ Text.mostDigits) :
    (int n).HasDisplay := if_pos h

mutual

/-- Leaving out repeated keys keeps the display. -/
theorem HasDisplay.merged : ∀ {v : Value}, v.HasDisplay → v.merged.HasDisplay
  | .list vs, h => by
      rw [Value.merged, hasDisplay_list_iff]
      exact hasDisplay_mergedItems vs (hasDisplay_list_iff.mp h)
  | .dict es, h => by
      rw [Value.merged, hasDisplay_dict_iff]
      have hmembers := hasDisplay_mergedMembers es (hasDisplay_dict_iff.mp h)
      exact fun e he => hmembers e (Entries.mem_of_mem_merged he)
  | .null, h | .bool _, h | .int _, h | .float _, h | .text _, h | .object _, h => h

theorem hasDisplay_mergedItems : ∀ vs : List Value, (∀ v ∈ vs, v.HasDisplay) →
    ∀ v ∈ mergedItems vs, v.HasDisplay
  | [], _ => by simp [mergedItems]
  | v :: vs, h => by
      obtain ⟨hv, hvs⟩ := List.forall_mem_cons.mp h
      exact List.forall_mem_cons.mpr ⟨hv.merged, hasDisplay_mergedItems vs hvs⟩

theorem hasDisplay_mergedMembers : ∀ es : List (String × Value),
    (∀ e ∈ es, e.2.HasDisplay) → ∀ e ∈ mergedMembers es, e.2.HasDisplay
  | [], _ => by simp [mergedMembers]
  | (k, v) :: es, h => by
      obtain ⟨hv, hes⟩ := List.forall_mem_cons.mp h
      exact List.forall_mem_cons.mpr ⟨hv.merged, hasDisplay_mergedMembers es hes⟩

end

end Value

/-! ## Values of documents -/

namespace Json

/-- The digits of a number are those with which it is written. -/
theorem Whole.natDigits_eq {ds : List Char} (h : Whole ds) :
    Text.natDigits (Binary64.digitsOf ds) = ds := by
  obtain rfl | ⟨⟨hne, hdigits⟩, hzero, -⟩ := h
  · decide
  · cases ds with
    | nil => exact absurd rfl hne
    | cons d ds =>
        have hd : d ≠ '0' := fun heq => hzero (congrArg some heq)
        rw [← Text.digitsValue_eq_digitsOf hdigits, Text.natDigits_digitsValue hdigits hd]

theorem Whole.length_le {ds : List Char} (h : Whole ds) : ds.length ≤ mostDigits := by
  obtain rfl | ⟨-, -, hle⟩ := h
  · decide
  · exact hle

theorem Number.hasDisplay {negative : Bool} {cs : List Char} {v : Value}
    (h : Number negative cs v) : v.HasDisplay := by
  cases h with
  | @whole _ h =>
      refine Value.hasDisplay_int ?_
      have habs (n : Nat) : (signed negative n).natAbs = n := by
        cases negative <;> simp [signed]
      rw [habs, h.natDigits_eq]
      exact h.length_le
  | double => rfl

theorem Atom.hasDisplay {cs : List Char} {v : Value} (h : Atom cs v) : v.HasDisplay := by
  cases h with
  | number h | negative h => exact h.hasDisplay
  | _ => rfl

mutual

/-- A value that is spelled in JSON has a display. -/
theorem Spells.hasDisplay {cs : List Char} {v : Value} : Spells cs v → v.HasDisplay
  | .atom h => h.hasDisplay
  | .text _ => rfl
  | .emptyList _ => rfl
  | .list _ h => Value.hasDisplay_list_iff.mpr h.hasDisplay
  | .emptyDict _ => rfl
  | .dict _ h => Value.hasDisplay_dict_iff.mpr h.hasDisplay

theorem SpellsItems.hasDisplay {cs : List Char} {vs : List Value} :
    SpellsItems cs vs → ∀ v ∈ vs, v.HasDisplay
  | .last hv _ => List.forall_mem_singleton.mpr hv.hasDisplay
  | .more hv _ _ h => List.forall_mem_cons.mpr ⟨hv.hasDisplay, h.hasDisplay⟩

theorem SpellsMembers.hasDisplay {cs : List Char} {es : List (String × Value)} :
    SpellsMembers cs es → ∀ e ∈ es, e.2.HasDisplay
  | .last _ _ _ hv _ => List.forall_mem_singleton.mpr hv.hasDisplay
  | .more _ _ _ hv _ _ h => List.forall_mem_cons.mpr ⟨hv.hasDisplay, h.hasDisplay⟩

end

theorem Document.hasDisplay {cs : List Char} {v : Value} : Document cs v → v.HasDisplay
  | .mk _ h _ => h.hasDisplay

end Json

/-! ## Filters of documents -/

namespace Filter

/-- All leaves of a filter have a display. -/
def Shown (f : Filter) : Prop := ∀ leaf ∈ f.leaves, leaf.noDisplay? = none

theorem TellsValue.hasDisplay {es : Entries Value} {v : Value}
    (hes : ∀ e ∈ es, e.2.HasDisplay) : TellsValue es v → v.HasDisplay
  | .absent _ => rfl
  | .present h => (hes _ (Entries.mem_of_get? h)).merged

mutual

theorem Describes.shown {v : Value} {f : Filter} (hv : v.HasDisplay) : Describes v f → f.Shown
  | .call _ _ _ hc _ => hc.shown (Value.hasDisplay_dict_iff.mp hv)
  | .column _ _ _ _ => List.forall_mem_singleton.mpr rfl
  | .constant _ _ ht _ =>
      List.forall_mem_singleton.mpr (ht.hasDisplay (Value.hasDisplay_dict_iff.mp hv))

theorem TellsOperands.shown {es : List (String × Value)} {fs : List Filter}
    (hes : ∀ e ∈ es, e.2.HasDisplay) :
    TellsOperands es fs → ∀ leaf ∈ leavesIn fs, leaf.noDisplay? = none
  | .absent _ => by simp [leavesIn]
  | .present h hs => hs.shown (Value.hasDisplay_list_iff.mp (hes _ (Entries.mem_of_get? h)))

theorem DescribesAll.shown {vs : List Value} {fs : List Filter}
    (hvs : ∀ v ∈ vs, v.HasDisplay) :
    DescribesAll vs fs → ∀ leaf ∈ leavesIn fs, leaf.noDisplay? = none
  | .nil => by simp [leavesIn]
  | .cons h hs => by
      obtain ⟨hv, hvs⟩ := List.forall_mem_cons.mp hvs
      exact List.forall_mem_append.mpr ⟨h.shown hv, hs.shown hvs⟩

end

/-- Every leaf of a filter that was decoded from JSON has a display. -/
theorem shown_of_decode {bytes : ByteArray} {f : Filter} (h : decode bytes = .ok f) :
    f.Shown := by
  obtain ⟨s, v, -, hdocument, -, hf⟩ := ((decode_eq_ok_iff bytes).1 f).mp h
  exact hf.shown hdocument.hasDisplay

/-- A filter whose leaves all have a display is told of if it is refused. -/
theorem Shown.not_untold {f : Filter} (h : f.Shown) : ¬ f.Untold := by
  rintro ⟨before, leaf, after, e, hleaves, -, -, he⟩
  have hleaf : leaf ∈ f.leaves := hleaves ▸ List.mem_append_right before List.mem_cons_self
  cases (h leaf hleaf).symm.trans he

end Filter

end LinkedTables
