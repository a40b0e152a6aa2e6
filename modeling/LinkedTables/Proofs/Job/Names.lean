import LinkedTables.Job.WorkDir
import Mathlib.Data.List.Forall2

set_option autoImplicit false

/-! # Names of work directories

The name of a work directory keeps the letters, digits, dots, underscores and hyphens of the
key and has an underscore for every other character. So it is always one name, and never the
two dots that lead one level up; but keys that differ only where one has an underscore or a
character that cannot be kept, and the other one as well, have the same name
(`name_eq_iff_alike`).
-/

namespace LinkedTables.WorkDir

/-- A character that the name of a work directory has an underscore for. -/
def Blurred (c : Char) : Prop := c = '_' ∨ isSafe c = false

instance (c : Char) : Decidable (Blurred c) := inferInstanceAs (Decidable (_ ∨ _))

/-- Keys that differ at most in characters that both become underscores. -/
def Alike (key key' : String) : Prop :=
  List.Forall₂ (fun c c' => c = c' ∨ Blurred c ∧ Blurred c') key.toList key'.toList

theorem safeChar_of_blurred {c : Char} (h : Blurred c) : safeChar c = '_' := by
  rcases h with rfl | h
  · rfl
  · simp [safeChar, h]

theorem safeChar_of_not_blurred {c : Char} (h : ¬ Blurred c) : safeChar c = c := by
  rw [Blurred, not_or, Bool.not_eq_false] at h
  rw [safeChar, if_pos h.2]

theorem blurred_safeChar_iff {c : Char} : safeChar c = '_' ↔ Blurred c := by
  refine ⟨fun h => ?_, safeChar_of_blurred⟩
  by_contra hb
  rw [safeChar_of_not_blurred hb] at h
  exact hb (.inl h)

theorem safeChar_eq_iff {c c' : Char} :
    safeChar c = safeChar c' ↔ c = c' ∨ Blurred c ∧ Blurred c' := by
  constructor
  · intro h
    by_cases hb : Blurred c
    · exact .inr ⟨hb, blurred_safeChar_iff.mp (h ▸ safeChar_of_blurred hb)⟩
    · have hb' : ¬ Blurred c' := fun hb' =>
        hb (blurred_safeChar_iff.mp (h.trans (safeChar_of_blurred hb')))
      rw [safeChar_of_not_blurred hb, safeChar_of_not_blurred hb'] at h
      exact .inl h
  · rintro (rfl | ⟨hb, hb'⟩)
    · rfl
    · rw [safeChar_of_blurred hb, safeChar_of_blurred hb']

theorem toList_name (key : String) :
    (name key).toList = nameStart.toList ++ key.toList.map safeChar := by
  simp [name]

theorem safeChar_ascii (c : Char) : (safeChar c).val ≤ 127 ∧ safeChar c ≠ '\x00' := by
  rw [safeChar]
  split
  · next h =>
      simp only [isSafe, Bool.or_eq_true, Bool.and_eq_true, decide_eq_true_eq, beq_iff_eq,
        Char.le_def] at h
      constructor
      · rcases h with ((((⟨-, h⟩ | ⟨-, h⟩) | ⟨-, h⟩) | rfl) | rfl) | rfl
        · exact UInt32.le_trans h (by decide)
        · exact UInt32.le_trans h (by decide)
        · exact UInt32.le_trans h (by decide)
        · decide
        · decide
        · decide
      · rintro rfl
        revert h
        decide
  · decide

theorem utf8ByteSize_ofList_safeChar (cs : List Char) :
    (String.ofList (cs.map safeChar)).utf8ByteSize = cs.length := by
  induction cs with
  | nil => rfl
  | cons c cs ih =>
      have hsize : (safeChar c).utf8Size = 1 := if_pos (safeChar_ascii c).1
      rw [List.map_cons, String.ofList_cons, String.utf8ByteSize_append,
        String.utf8ByteSize_singleton, hsize, ih, List.length_cons, Nat.add_comm]

/-- The name of a work directory takes one byte for each character of the key. -/
theorem utf8ByteSize_name (key : String) : (name key).utf8ByteSize = 8 + key.length := by
  have hstart : nameStart.utf8ByteSize = 8 := by decide
  rw [name, String.utf8ByteSize_append, hstart, utf8ByteSize_ofList_safeChar, String.length_toList]

theorem nul_not_mem_name (key : String) : '\x00' ∉ (name key).toList := by
  rw [toList_name, List.mem_append, List.mem_map, not_or]
  exact ⟨by decide, fun ⟨c, _, hc⟩ => (safeChar_ascii c).2 hc⟩

/-- **Keys have the same work directory if and only if they are alike.** -/
theorem name_eq_iff_alike {key key' : String} : name key = name key' ↔ Alike key key' := by
  rw [← String.toList_inj, toList_name, toList_name, List.append_cancel_left_eq,
    ← List.forall₂_eq_eq_eq, List.forall₂_map_left_iff, List.forall₂_map_right_iff, Alike]
  exact ⟨fun h => h.imp fun _ _ => safeChar_eq_iff.mp,
    fun h => h.imp fun _ _ => safeChar_eq_iff.mpr⟩

theorem path_eq_iff {parent : Path} {key key' : String} :
    path parent key = path parent key' ↔ name key = name key' := by
  simp [path, Path.child]

theorem detailsPath_eq_iff {parent : Path} {key key' : String} :
    detailsPath parent key = detailsPath parent key' ↔ name key = name key' := by
  simp [detailsPath, path, Path.child]

theorem name_ne_up (key : String) : name key ≠ ".." := by
  intro h
  have hlist : nameStart.toList ++ key.toList.map safeChar = "..".toList := by
    rw [← toList_name, h]
  have hstart : nameStart.toList = ['b', 'q', '-', 'h', 'i', 'v', 'e', '-'] := by decide
  simp [hstart] at hlist

end LinkedTables.WorkDir
