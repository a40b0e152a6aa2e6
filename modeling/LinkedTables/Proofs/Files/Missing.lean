import LinkedTables.Proofs.Files.Making

set_option autoImplicit false

/-! # Missing directories

A directory that is not there is made together with those it lies in. Until then nothing is
found below it (`resolve_beyond`), and making a directory in it comes to the same as making
it first (`makeDirectories_child`). If it cannot be made, nothing is found below it either
and no directory can be made in it (`resolve_unmakeable`, `makeDirectories_unmakeable`).
-/

namespace LinkedTables.Files

variable {files made : Files} {disk : Disk} {followsLast : Bool} {path parent : Path}
  {rest place : List String} {n : String} {links : Nat} {free : List String → Prop}

/-! ## What was made -/

theorem nowhere_of_makeDirectory (h : files.makeDirectory disk path = .ok made) :
    Nowhere (files.resolve false path) := by
  obtain ⟨place, hr, -⟩ := exists_absent_of_makeDirectory h
  exact .inl ⟨place, hr⟩

theorem nowhere_of_ensureDirectory (h : files.ensureDirectory disk path = .error .notFound) :
    Nowhere (files.resolve false path) := by
  obtain ⟨_, -, heq⟩ | ⟨hmade, -⟩ | ⟨_, -, -, ⟨-, heq⟩ | ⟨-, fault, hf, heq⟩⟩ :=
    ensureDirectory_cases files disk path
  · cases heq.symm.trans h
  · rw [makeDirectory] at hmade
    split at hmade
    · next hr => exact .inr (Except.error.inj hmade ▸ hr)
    · next place hr => exact .inl ⟨place, hr⟩
    · cases hmade
  · cases heq.symm.trans h
  · exact absurd (Except.error.inj (heq.symm.trans h)) hf

/-- A directory that was made was not there, and one that was there was not made. -/
theorem eq_or_nowhere_of_makeDirectories (h : files.makeDirectories disk path = (made, none)) :
    made = files ∨ Nowhere (files.resolve false path) := by
  rw [makeDirectories] at h
  obtain ⟨made', hmade, heq⟩ | ⟨-, heq⟩ | ⟨_, -, -, ⟨-, heq⟩ | ⟨-, fault, hf, heq⟩⟩ :=
    ensureDirectory_cases files disk path
  · exact .inr (nowhere_of_makeDirectory hmade)
  · exact .inr (nowhere_of_ensureDirectory heq)
  · rw [ensureDirectories_of_ok _ heq] at h
    exact .inl (congrArg Prod.fst h).symm
  · rw [ensureDirectories_of_error _ hf heq] at h
    cases h

/-! ## Below a directory that is still to be made -/

theorem no_fault_of_nowhere (h : Nowhere (files.resolve followsLast path)) :
    path.fault? = none := by
  cases hf : path.fault? with
  | none => rfl
  | some fault =>
      rw [resolve_of_fault hf] at h
      refine absurd h (not_nowhere_error ?_)
      rcases fault?_eq_some hf with rfl | rfl <;> decide

/-- **Nothing is found below a directory that is missing.** -/
theorem resolve_beyond (hnow : Nowhere (files.resolve false parent)) (hne : rest ≠ [])
    (hpath : path.names = parent.names ++ rest) (hf : path.fault? = none) :
    files.resolve followsLast path = .error .notFound := by
  rw [resolve_of_no_fault (no_fault_of_nowhere hnow)] at hnow
  rw [resolve_of_no_fault hf, hpath]
  exact walk_beyond hne (isDirectory_nil files) hnow

/-- To make a directory below a missing one, that one is made first. -/
theorem makeDirectories_child (hnow : Nowhere (files.resolve false parent))
    (hmade : files.makeDirectories disk parent = (made, none))
    (hf : (parent.child n).fault? = none) :
    files.makeDirectories disk (parent.child n) =
      ensureDirectories disk 0 made (parent.child n) := by
  have hr := @resolve_beyond files false _ _ [n] hnow (by simp) (Path.names_child parent n) hf
  have hensure : files.ensureDirectory disk (parent.child n) = .error .notFound := by
    simp only [ensureDirectory, makeDirectory, hr]
  have hlength : (parent.child n).names.length = parent.names.length + 1 := by simp
  rw [makeDirectories, hlength, ensureDirectories_succ hensure, Path.parent_child,
    ← makeDirectories, hmade]

/-! ## Below a directory that cannot be made -/

/-- A directory that is there is not made. -/
theorem ensureDirectory_of_leads (hf : path.fault? = none)
    (h : Leads files free mostLinks [] path.names links place) :
    files.ensureDirectory disk path = .ok files := by
  have hdir := h.isDirectory (isDirectory_nil files)
  have hthere : files.isDirectory? path = some true := by
    have hr : files.walk true (files.resolveFrom true mostLinks) [] (path.names ++ []) =
        files.walk true (files.resolveFrom true links) place [] := h.walk_append (.inr rfl)
    rw [List.append_nil] at hr
    rw [isDirectory?, resolve_of_no_fault hf, hr]
    obtain rfl | ⟨front, last, rfl⟩ := List.eq_nil_or_concat' place
    · rw [walk]
    · obtain ⟨es, hat⟩ := stands?_eq_directory_iff.mp (isDirectory_concat_iff.mp hdir)
      rw [walk.eq_2 _ _ _ _ (by simp), hat]
  -- From a directory that is there one can go on, at least up.
  have hnot : ¬ Nowhere (files.resolve false path) := by
    intro hnow
    rw [resolve_of_no_fault hf] at hnow
    have hup := @walk_beyond files true _ _ [".."] _ (by simp) (isDirectory_nil files) hnow
    rw [h.walk_append (.inl (by simp)), walk_up] at hup
    exact not_nowhere_walk_nil hdir.dropLast (.inr hup)
  obtain ⟨_, hmade, -⟩ | ⟨-, heq⟩ | ⟨_, -, -, ⟨-, heq⟩ | ⟨hno, -⟩⟩ :=
    ensureDirectory_cases files disk path
  · exact absurd (nowhere_of_makeDirectory hmade) hnot
  · exact absurd (nowhere_of_ensureDirectory heq) hnot
  · exact heq
  · exact absurd hthere hno

/-- A directory that is there need not be made. -/
theorem makeDirectories_of_leads (hf : path.fault? = none)
    (h : Leads files free mostLinks [] path.names links place) :
    files.makeDirectories disk path = (files, none) := by
  rw [makeDirectories, ensureDirectories_of_ok _ (ensureDirectory_of_leads hf h)]

/-- **Nothing is found below a directory that cannot be made.** -/
theorem resolve_unmakeable {e : FileError} {found : Target}
    (hmade : files.makeDirectories disk parent = (files, some e)) (hne : rest ≠ [])
    (hpath : path.names = parent.names ++ rest)
    (hf : path.fault? = none → parent.fault? = none) :
    files.resolve followsLast path ≠ .ok found := by
  intro hr
  have hfault := no_fault_of_resolve hr
  rw [resolve_of_no_fault hfault, hpath] at hr
  obtain ⟨links', place, hleads⟩ := exists_leads_of_walk hne hr
  rw [makeDirectories_of_leads (hf hfault) hleads] at hmade
  cases congrArg Prod.snd hmade

/-- **No directory can be made below one that cannot be made.** -/
theorem makeDirectories_unmakeable {e : FileError}
    (hmade : files.makeDirectories disk parent = (files, some e)) :
    ∃ e, files.makeDirectories disk (parent.child n) = (files, some e) := by
  have hr (followsLast : Bool) (found : Target) :
      files.resolve followsLast (parent.child n) ≠ .ok found :=
    resolve_unmakeable hmade (List.cons_ne_nil n []) (Path.names_child parent n)
      Path.no_fault_of_child
  obtain ⟨_, hmade', -⟩ | ⟨-, heq⟩ | ⟨_, -, -, ⟨hthere, -⟩ | ⟨-, fault, hf, heq⟩⟩ :=
    ensureDirectory_cases files disk (parent.child n)
  · obtain ⟨_, hfound, -⟩ := exists_absent_of_makeDirectory hmade'
    exact absurd hfound (hr false _)
  · have hlength : (parent.child n).names.length = parent.names.length + 1 := by simp
    refine ⟨e, ?_⟩
    rw [makeDirectories, hlength, ensureDirectories_succ heq, Path.parent_child,
      ← makeDirectories, hmade]
  · rw [isDirectory?] at hthere
    split at hthere
    · cases hthere
    · next hfound => exact absurd hfound (hr true _)
    · next hfound => exact absurd hfound (hr true _)
    · cases hthere
  · exact ⟨_, by rw [makeDirectories, ensureDirectories_of_error _ hf heq]⟩

end LinkedTables.Files
