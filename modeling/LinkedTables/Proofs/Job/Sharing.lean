import LinkedTables.Proofs.Job.Directories

set_option autoImplicit false

/-! # Keys that share a work directory

Two keys share their work directory and their record exactly if they are alike: what is put
on record for one is then got for the other. Keys that are not alike have nothing to do with
each other: no put and no cleanup for one touches the record of the other
(`shared_iff_alike`).
-/

namespace LinkedTables.WorkDir

open Files

/-- **Storage is shared by alike keys, and by no others.** What can be got for a key is what
its work directory holds on record. Alike keys have the same paths, so that details that were
put on record for one are got for the other. For keys that are not alike, whatever is put on
record or removed for one leaves the record of the other as it is. -/
theorem shared_iff_alike {parents : Path → Prop} {top : List String} {names : String → Prop}
    {files : Files} (h : Tidy parents top names files) {parent : Path} (hp : parents parent)
    {key key' : String} (hn : names (name key)) (hn' : names (name key')) :
    (path parent key = path parent key' ↔ Alike key key') ∧
    (detailsPath parent key = detailsPath parent key' ↔ Alike key key') ∧
    (∀ d, DetailsStore.readDetails parent files key' = .ok d → ∃ content,
      record? top files (name key') = some content ∧ DetailsStore.ofBytes content = .ok d) ∧
    (Alike key key' → ∀ d, (DetailsStore.writeDetails parent files key d).1 = .ok () →
      DetailsStore.readDetails parent (DetailsStore.writeDetails parent files key d).2 key' =
        .ok d.settled) ∧
    (¬ Alike key key' →
      (∀ d, record? top (DetailsStore.writeDetails parent files key d).2 (name key') =
        record? top files (name key')) ∧
      ∀ channel, record? top (clean parent channel key files).state (name key') =
        record? top files (name key')) := by
  refine ⟨path_eq_iff.trans name_eq_iff_alike, detailsPath_eq_iff.trans name_eq_iff_alike,
    fun d hd => ?_, fun halike d hput => ?_, fun hnot => ⟨fun d => ?_, fun channel => ?_⟩⟩
  · obtain ⟨content, hload, hread⟩ := exists_load hd
    exact ⟨content, h.record?_of_load hp hn' hload, hread⟩
  · have hpath : detailsPath parent key = detailsPath parent key' :=
      detailsPath_eq_iff.mpr (name_eq_iff_alike.mpr halike)
    have hload := load_of_writeDetails hput
    rw [hpath] at hload
    rw [DetailsStore.readDetails, hload]
    exact DetailsStore.ofBytes_toIndentedText d
  · have hname : name key' ≠ name key := fun hname => hnot (name_eq_iff_alike.mp hname.symm)
    obtain ⟨-, -, hsame⟩ | ⟨-, hsome⟩ := h.record?_writeDetails hp hn d
    · exact hsame _
    · exact (hsome _).trans (if_neg hname)
  · have hname : name key' ≠ name key := fun hname => hnot (name_eq_iff_alike.mp hname.symm)
    exact (h.record?_clean hp hn channel).1 _ hname

/-- Details that were put on record for `a/b` are got for `a_b`, and the key `a` has another
work directory than the key `b`. -/
theorem shared_iff_alike_from_nothing :
    let parents : Path → Prop := fun p => p = ⟨0, ["w"]⟩
    let d : JobDetails := ⟨⟨"a/b", by decide⟩, none, .direct, [], []⟩
    Tidy parents ["w"] (fun _ => True) [] ∧ parents ⟨0, ["w"]⟩ ∧
      DetailsStore.readDetails ⟨0, ["w"]⟩ (DetailsStore.writeDetails ⟨0, ["w"]⟩ [] "a/b" d).2
        "a_b" = .ok d ∧
      path ⟨0, ["w"]⟩ "a" ≠ path ⟨0, ["w"]⟩ "b" := by
  intro parents d
  have hfiles : Tidy parents ["w"] (fun _ => True) [] := by
    refine ⟨?_, fun place target hl => ?_⟩
    · rintro parent rfl
      exact ⟨_, .into (by decide) (by simp [stands?_empty]) (.done _ _)⟩
    · rw [stands?_empty] at hl
      cases hl
  have halike : Alike "a/b" "a_b" := by
    rw [← name_eq_iff_alike]
    decide
  have hnot : ¬ Alike "a" "b" := by
    rw [← name_eq_iff_alike]
    decide
  exact ⟨hfiles, rfl, (shared_iff_alike hfiles rfl trivial trivial).2.2.2.1 halike d rfl,
    fun h => hnot ((shared_iff_alike hfiles rfl trivial trivial).1.mp h)⟩

/-- Two keys that are not the same have the same details file. -/
theorem details_file_shared : "a/b" ≠ "a_b" ∧ "a/b" ≠ "" ∧ "a_b" ≠ "" ∧
    ∀ parent, detailsPath parent "a/b" = detailsPath parent "a_b" := by
  have hname : name "a/b" = name "a_b" := by decide
  exact ⟨by decide, by decide, by decide, fun parent => detailsPath_eq_iff.mpr hname⟩

end LinkedTables.WorkDir
