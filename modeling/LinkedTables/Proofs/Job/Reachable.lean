import LinkedTables.Proofs.Job.Separate

set_option autoImplicit false

/-! # Work directories that can be reached

Where the parent directory is there, and nothing but work directories and details files stands
where these should stand, nothing is in the way of putting details on record and getting them
(`Clear`). By a path that a file could have this is always done (`Clear.writeDetails`,
`Clear.load_cases`), and it leaves nothing in the way of the next one.
-/

namespace LinkedTables.WorkDir

open Files

/-- The path of a parent directory leads to a place, by directories and links that are there. -/
def LeadsTo (files : Files) (parent : Path) (top : List String) : Prop :=
  ∃ links, Leads files (fun _ => True) mostLinks [] parent.names links top

/-- A file could have the path to the details for a key. -/
structure Usable (parent : Path) (key : String) : Prop where
  noFault : (detailsPath parent key).fault? = none
  short : (name key).utf8ByteSize ≤ longestName

/-- The parent directory is there, and in it nothing stands in the way of work directories and
of the details files in them. -/
structure Clear (parents : Path → Prop) (top : List String) (files : Files) : Prop where
  reach : ∀ parent, parents parent → LeadsTo files parent top
  directory : ∀ n, files.stands? (top ++ [n]) = none ∨
    files.stands? (top ++ [n]) = some (.directory [])
  details : ∀ n node, files.stands? (top ++ [n, detailsFileName]) = some node →
    ∃ content, node = .file content

variable {parents : Path → Prop} {parent : Path} {top : List String} {files files' : Files}
  {key : String} {followsLast : Bool}

theorem LeadsTo.isDirectory (h : LeadsTo files parent top) : files.IsDirectory top := by
  obtain ⟨links, hleads⟩ := h
  exact hleads.isDirectory (isDirectory_nil files)

theorem LeadsTo.of_keepsWays (h : LeadsTo files parent top) (hk : KeepsWays files files') :
    LeadsTo files' parent top := by
  obtain ⟨links, hleads⟩ := h
  exact ⟨links, hleads.of_keepsWays hk⟩

theorem Usable.passable (h : Usable parent key) : Passable (name key) :=
  ⟨name_ne_up key, h.short⟩

/-- A path below the parent is walked from where the parent is. -/
theorem LeadsTo.exists_resolve_eq (h : LeadsTo files parent top) {path : Path}
    {rest : List String} (hne : rest ≠ []) (hpath : path.names = parent.names ++ rest)
    (hf : path.fault? = none) :
    ∃ links, ∀ followsLast, files.resolve followsLast path =
      files.walk followsLast (files.resolveFrom followsLast links) top rest := by
  obtain ⟨links, hleads⟩ := h
  refine ⟨links, fun followsLast => ?_⟩
  rw [resolve_of_no_fault hf, hpath, hleads.walk_append (.inl hne)]

/-! ## Putting details on record -/

section

variable (h : Clear parents top files) (hp : parents parent) (hu : Usable parent key)
include h hp hu

theorem Clear.makeDirectories_eq :
    files.makeDirectories .sound (path parent key) =
      (if files.stands? (top ++ [name key]) = none then
        files.putAt (.directory []) (top ++ [name key]) else files, none) := by
  obtain ⟨links, hr⟩ := (h.reach parent hp).exists_resolve_eq (List.cons_ne_nil _ _)
    (names_path parent key) (Path.no_fault_of_child hu.noFault)
  have hensure : files.ensureDirectory .sound (path parent key) =
      .ok (if files.stands? (top ++ [name key]) = none then
        files.putAt (.directory []) (top ++ [name key]) else files) := by
    rcases h.directory (name key) with hs | hs
    · simp only [ensureDirectory, makeDirectory, hr, walk_absent_end hu.passable hs,
        Disk.making_sound, hs, if_true]
    · obtain ⟨es, hend⟩ := walk_directory_end hu.passable hs
      simp [ensureDirectory, makeDirectory, isDirectory?, hr, hend, hs]
  rw [makeDirectories, ensureDirectories_of_ok _ hensure]

/-- The work directory is made, and that is in nobody's way. -/
theorem Clear.make :
    Clear parents top (files.makeDirectories .sound (path parent key)).1 ∧
      (files.makeDirectories .sound (path parent key)).1.stands? (top ++ [name key]) =
        some (.directory []) := by
  have hg := grown_makeDirectories files .sound (path parent key)
  have hstands := stands?_make (h.reach parent hp).isDirectory (name key)
  rw [h.makeDirectories_eq hp hu] at hg ⊢
  rcases h.directory (name key) with hs | hs
  · simp only [if_pos hs] at hg ⊢
    refine ⟨⟨fun other ho => (h.reach other ho).of_keepsWays hg.keepsWays, fun n => ?_,
      fun n node hnode => ?_⟩, ?_⟩
    · rw [hstands]
      split
      · exact .inr (if_pos rfl)
      · exact h.directory n
    · rw [hstands] at hnode
      split at hnode
      · rw [if_neg (List.cons_ne_nil _ _)] at hnode
        cases hnode
      · exact h.details n node hnode
    · rw [hstands, if_pos rfl, if_pos rfl]
  · simp only [hs]
    exact ⟨h, hs⟩

/-- The details file is written, and that is in nobody's way. -/
theorem Clear.save (hs : files.stands? (top ++ [name key]) = some (.directory []))
    (content : ByteArray) :
    ∃ saved, files.save .sound (detailsPath parent key) content = (saved, none) ∧
      Clear parents top saved := by
  have hd : files.IsDirectory (top ++ [name key]) := isDirectory_concat_iff.mpr hs
  obtain ⟨links, hr⟩ := (h.reach parent hp).exists_resolve_eq (List.cons_ne_nil _ _)
    (names_detailsPath parent key) hu.noFault
  have hsave : files.save .sound (detailsPath parent key) content =
      (files.putAt (.file content) (top ++ [name key, detailsFileName]), none) := by
    have hfile := h.details (name key)
    rw [details_place] at hfile ⊢
    rw [save_sound, hr, walk_directory hu.passable hs]
    cases hin : files.stands? ((top ++ [name key]) ++ [detailsFileName]) with
    | none => rw [walk_absent_end passable_detailsFileName hin]
    | some node =>
        obtain ⟨old, rfl⟩ := hfile node hin
        rw [walk_file_end passable_detailsFileName hin]
  refine ⟨_, hsave, fun other ho => ?_, fun n => ?_, fun n node hnode => ?_⟩
  · exact (h.reach other ho).of_keepsWays (keepsWays_of_save hsave)
  · rw [stands?_save hd]
    split
    · next hn =>
        subst hn
        simpa using .inr hs
    · exact h.directory n
  · rw [stands?_save hd] at hnode
    split at hnode
    · rw [if_pos rfl] at hnode
      exact ⟨content, (Option.some.inj hnode).symm⟩
    · exact h.details n node hnode

/-- **Details are put on record** where nothing is in the way. -/
theorem Clear.writeDetails (d : JobDetails) :
    (DetailsStore.writeDetails parent files key d).1 = .ok () ∧
      Clear parents top (DetailsStore.writeDetails parent files key d).2 := by
  obtain ⟨hmade, hs⟩ := h.make hp hu
  have hnone : (files.makeDirectories .sound (path parent key)).2 = none := by
    rw [h.makeDirectories_eq hp hu]
  rw [DetailsStore.writeDetails, DetailsStore.writeDetailsOn]
  generalize files.makeDirectories .sound (path parent key) = made at hmade hs hnone
  obtain ⟨made, e?⟩ := made
  obtain rfl : e? = none := hnone
  obtain ⟨saved, hsave, hclear⟩ := hmade.save hp hu hs d.toIndentedText.toUTF8
  simp only [hsave]
  exact ⟨trivial, hclear⟩

/-- Details are read, or nothing is there. -/
theorem Clear.load_cases :
    (∃ content, files.load (detailsPath parent key) = .ok content) ∨
      ∃ e, files.load (detailsPath parent key) = .error e ∧ e.fault = .notFound := by
  obtain ⟨links, hr⟩ := (h.reach parent hp).exists_resolve_eq (List.cons_ne_nil _ _)
    (names_detailsPath parent key) hu.noFault
  rw [load, hr]
  rcases h.directory (name key) with hs | hs
  · rw [walk_absent_beyond hu.passable hs (List.cons_ne_nil _ _)]
    exact .inr ⟨_, rfl, rfl⟩
  · have hfile := h.details (name key)
    rw [details_place] at hfile
    rw [walk_directory hu.passable hs]
    cases hin : files.stands? ((top ++ [name key]) ++ [detailsFileName]) with
    | none =>
        rw [walk_absent_end passable_detailsFileName hin]
        exact .inr ⟨_, rfl, rfl⟩
    | some node =>
        obtain ⟨content, rfl⟩ := hfile node hin
        rw [walk_file_end passable_detailsFileName hin]
        exact .inl ⟨content, rfl⟩

end

/-! ## What is on record -/

/-- What is on record below a parent that can be reached is read, or there is another error
than that nothing is there. -/
theorem LeadsTo.load_of_record? (h : LeadsTo files parent top) {content : ByteArray}
    (hr : record? top files (name key) = some content) :
    files.load (detailsPath parent key) = .ok content ∨
      ∃ e, files.load (detailsPath parent key) = .error e ∧ e.fault ≠ .notFound := by
  have hfile := record?_eq_some_iff.mp hr
  cases hf : (detailsPath parent key).fault? with
  | some fault =>
      have hload : files.load (detailsPath parent key) =
          .error ⟨fault, detailsPath parent key⟩ := by
        rw [load, resolve_of_fault hf]
      refine .inr ⟨_, hload, ?_⟩
      rcases fault?_eq_some hf with rfl | rfl <;> simp
  | none =>
      obtain ⟨links, hresolve⟩ :=
        h.exists_resolve_eq (List.cons_ne_nil _ _) (names_detailsPath parent key) hf
      rw [load, hresolve]
      by_cases hlong : longestName < (name key).utf8ByteSize
      · rw [walk_nameTooLong (name_ne_up key) hlong]
        exact .inr ⟨_, rfl, by simp⟩
      · have hpass : Passable (name key) := ⟨name_ne_up key, Nat.not_lt.mp hlong⟩
        rw [details_place] at hfile
        have hdir : files.IsDirectory (top ++ [name key]) :=
          isDirectory_of_stands? (by rw [hfile]; simp)
        rw [walk_directory hpass (isDirectory_concat_iff.mp hdir),
          walk_file_end passable_detailsFileName hfile]
        exact .inl rfl

end LinkedTables.WorkDir
