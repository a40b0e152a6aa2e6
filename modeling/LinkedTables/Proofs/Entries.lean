import LinkedTables.Entries

set_option autoImplicit false

/-! # Entries that are kept

Whatever is found under a key is one of the entries, and `Entries.merged` only leaves entries
out. Entries that name each key once are not changed by it, since every entry is then put at
the end of those before it.
-/

namespace LinkedTables

namespace Entries

variable {α : Type}

theorem mem_of_get? {es : Entries α} {key : String} {value : α}
    (h : es.get? key = some value) : (key, value) ∈ es := by
  induction es with
  | nil => cases h
  | cons e es ih =>
      obtain ⟨k, v⟩ := e
      rw [get?_cons, Option.or_eq_some_iff] at h
      obtain h | ⟨-, h⟩ := h
      · exact List.mem_cons_of_mem _ (ih h)
      · obtain ⟨rfl, rfl⟩ : key = k ∧ v = value := by simpa using h
        exact List.mem_cons_self

theorem mem_of_mem_set {es : Entries α} {key : String} {value : α} {e : String × α}
    (h : e ∈ es.set key value) : e = (key, value) ∨ e ∈ es := by
  induction es with
  | nil => exact .inl (List.mem_singleton.mp h)
  | cons e' es ih =>
      obtain ⟨k, v⟩ := e'
      rw [set] at h
      split at h
      · rename_i hk
        obtain rfl | h := List.mem_cons.mp h
        · exact .inl (by rw [hk])
        · exact .inr (List.mem_cons_of_mem _ (List.mem_filter.mp h).1)
      · obtain rfl | h := List.mem_cons.mp h
        · exact .inr List.mem_cons_self
        · exact (ih h).imp_right (List.mem_cons_of_mem _)

theorem mem_of_mem_foldl_set {acc es : Entries α} {e : String × α}
    (h : e ∈ es.foldl (fun acc e => acc.set e.1 e.2) acc) : e ∈ acc ∨ e ∈ es := by
  induction es generalizing acc with
  | nil => exact .inl h
  | cons e' es ih =>
      obtain h | h := ih h
      · obtain rfl | h := mem_of_mem_set h
        · exact .inr List.mem_cons_self
        · exact .inl h
      · exact .inr (List.mem_cons_of_mem _ h)

theorem mem_of_mem_merged {es : Entries α} {e : String × α} (h : e ∈ es.merged) : e ∈ es :=
  (mem_of_mem_foldl_set h).resolve_left List.not_mem_nil

theorem set_of_not_mem {es : Entries α} {key : String} (h : key ∉ es.map (·.1)) (value : α) :
    es.set key value = es ++ [(key, value)] := by
  induction es with
  | nil => rfl
  | cons e es ih =>
      obtain ⟨k, v⟩ := e
      simp only [List.map_cons, List.mem_cons, not_or] at h
      rw [set, if_neg (Ne.symm h.1), ih h.2, List.cons_append]

theorem foldl_set_of_nodup {acc es : Entries α} (h : ((acc ++ es).map (·.1)).Nodup) :
    es.foldl (fun acc e => acc.set e.1 e.2) acc = acc ++ es := by
  induction es generalizing acc with
  | nil => simp
  | cons e es ih =>
      have hnew : e.1 ∉ acc.map (·.1) := by
        rw [List.map_append, List.map_cons] at h
        intro hmem
        exact (List.nodup_append.mp h).2.2 e.1 hmem e.1 (by simp) rfl
      rw [List.foldl_cons, set_of_not_mem hnew, ih (by simpa using h), List.append_assoc]
      rfl

theorem merged_of_nodup {es : Entries α} (h : (es.map (·.1)).Nodup) : merged es = es :=
  @foldl_set_of_nodup α [] es h

end Entries

end LinkedTables
