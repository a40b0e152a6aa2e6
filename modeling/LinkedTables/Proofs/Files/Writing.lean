import LinkedTables.Proofs.Files.Making

set_option autoImplicit false

/-! # Writing files

A file is opened and then written. It is opened where a file is or nothing, unless the disk
refuses (`found_of_openFile`), and up to then nothing is changed. An open file holds what was
written of the new content, which is all of it or a beginning (`save_cases`), and nothing of the
old one any more; this is found then by the same path (`load_of_openFile`).
-/

namespace LinkedTables.Files

variable {files files' : Files} {disk : Disk} {path : Path} {here names place : List String}
  {links : Nat} {content : ByteArray}

/-- A path leads to a place where a file can be written: one is there, or nothing is. -/
def Fillable (result : Except FileFault Target) (place : List String) : Prop :=
  result = .ok (.absent place) ∨ ∃ old, result = .ok (.present place (.file old))

/-- A file is opened where a file is, or where nothing is in a directory. -/
theorem found_of_openFile (h : files.openFile disk path = .ok place) :
    Fillable (files.resolve true path) place := by
  rw [openFile] at h
  split at h
  · cases h
  · next old hr =>
      split at h
      · cases h
        exact .inr ⟨old, hr⟩
      · cases h
  · next hr =>
      split at h
      · cases h
        exact .inl hr
      · cases h
  · cases h

theorem exists_resolve_of_openFile (h : files.openFile disk path = .ok place) :
    ∃ found, files.resolve true path = .ok found := by
  rcases found_of_openFile h with hr | ⟨old, hr⟩
  · exact ⟨_, hr⟩
  · exact ⟨_, hr⟩

theorem no_fault_of_openFile (h : files.openFile disk path = .ok place) : path.fault? = none := by
  rcases found_of_openFile h with hr | ⟨old, hr⟩ <;> exact no_fault_of_resolve hr

/-- **What saving comes to:** the file cannot be opened and nothing is changed, or it is opened,
and then it is written or the writing is broken off. -/
theorem save_cases (files : Files) (disk : Disk) (path : Path) (content : ByteArray) :
    (∃ e, files.openFile disk path = .error e ∧
      files.save disk path content = (files, some e)) ∨
    ∃ place, files.openFile disk path = .ok place ∧
      (disk.writing place = none ∧
          files.save disk path content = (files.putAt (.file content) place, none) ∨
        ∃ length e, disk.writing place = some (length, e) ∧
          files.save disk path content =
            (files.putAt (.file (content.extract 0 length)) place, some ⟨.brokenOff e, path⟩)) := by
  rw [save]
  cases ho : files.openFile disk path with
  | error e => exact .inl ⟨e, rfl, rfl⟩
  | ok place =>
      refine .inr ⟨place, rfl, ?_⟩
      cases hw : disk.writing place with
      | none => exact .inl ⟨rfl, by simp only [hw]⟩
      | some broken => exact .inr ⟨broken.1, broken.2, rfl, by simp only [hw]⟩

/-- What was saved stands where the file was opened. -/
theorem exists_place_of_save {saved : Files}
    (h : files.save disk path content = (saved, none)) :
    ∃ place, files.openFile disk path = .ok place ∧ saved = files.putAt (.file content) place := by
  obtain ⟨e, -, heq⟩ | ⟨place, ho, ⟨-, heq⟩ | ⟨length, e, -, heq⟩⟩ :=
    save_cases files disk path content
  · cases heq.symm.trans h
  · cases heq.symm.trans h
    exact ⟨place, ho, rfl⟩
  · cases heq.symm.trans h

/-- Saving on a disk that refuses nothing. -/
theorem save_sound (files : Files) (path : Path) (content : ByteArray) :
    files.save .sound path content =
      match files.resolve true path with
      | .error fault => (files, some ⟨fault, path⟩)
      | .ok (.present place (.file _)) => (files.putAt (.file content) place, none)
      | .ok (.absent place) => (files.putAt (.file content) place, none)
      | .ok _ => (files, some ⟨.isADirectory, path⟩) := by
  rw [save, openFile]
  rcases files.resolve true path with fault | _ | ⟨place, content | target | es⟩ | place <;> rfl

/-- On a disk that refuses nothing, a file that cannot be saved changes nothing. -/
theorem eq_of_save_sound {e : FileError}
    (h : files.save .sound path content = (files', some e)) : files' = files := by
  obtain ⟨e, -, heq⟩ | ⟨place, -, ⟨-, heq⟩ | ⟨length, e, hw, -⟩⟩ :=
    save_cases files .sound path content
  · exact (congrArg Prod.fst (heq.symm.trans h)).symm
  · cases congrArg Prod.snd (heq.symm.trans h)
  · cases hw

/-! ## What is written is read -/

theorem not_fillable_error {fault : FileFault} : ¬ Fillable (.error fault) place := by
  rintro (h | ⟨_, h⟩) <;> cases h

theorem not_fillable_walk_nil {onLink : List String → Path → Except FileFault Target}
    (hd : files.IsDirectory here) : ¬ Fillable (files.walk true onLink here []) place := by
  obtain rfl | ⟨front, last, rfl⟩ := List.eq_nil_or_concat' here
  · rw [walk]
    rintro (h | ⟨_, h⟩) <;> cases h
  · obtain ⟨es, hat⟩ := stands?_eq_directory_iff.mp (isDirectory_concat_iff.mp hd)
    rw [walk.eq_2 _ _ _ _ (by simp), hat]
    rintro (h | ⟨_, h⟩) <;> cases h

/-- A file is at a place to which a walk led before, and directories and links are where they
were: then the walk leads to the file. -/
theorem walk_fillable (hk : KeepsWays files files')
    (hs : files'.stands? place = some (.file content))
    (links : Nat) (here names : List String) (hd : files.IsDirectory here)
    (h : Fillable (files.walk true (files.resolveFrom true links) here names) place) :
    files'.walk true (files'.resolveFrom true links) here names =
      .ok (.present place (.file content)) := by
  match names with
  | [] => exact absurd h (not_fillable_walk_nil hd)
  | name :: names =>
      by_cases hn : name = ".."
      · subst hn
        rw [walk_up] at h ⊢
        exact walk_fillable hk hs links _ names hd.dropLast h
      by_cases hlong : longestName < name.utf8ByteSize
      · rw [walk_nameTooLong hn hlong] at h
        exact absurd h not_fillable_error
      have hp : Passable name := ⟨hn, Nat.not_lt.mp hlong⟩
      rcases files.stands?_cases (here ++ [name]) with
        hstands | ⟨old, hstands⟩ | ⟨target, hstands⟩ | hstands
      · by_cases hend : names = []
        · rw [hend, walk_absent_end hp hstands] at h
          obtain h | ⟨_, h⟩ := h <;> cases h
          rw [hend, walk_file_end hp hs]
        · rw [walk_absent_beyond hp hstands hend] at h
          exact absurd h not_fillable_error
      · by_cases hend : names = []
        · rw [hend, walk_file_end hp hstands] at h
          obtain h | ⟨_, h⟩ := h <;> cases h
          rw [hend, walk_file_end hp hs]
        · rw [walk_file_beyond hp hstands hend] at h
          exact absurd h not_fillable_error
      · rw [walk_link hp hstands (.inr rfl)] at h
        rw [walk_link hp (hk _ _ (by simp) hstands) (.inr rfl)]
        cases links with
        | zero => exact absurd h not_fillable_error
        | succ links =>
            rw [resolveFrom_append] at h ⊢
            exact walk_fillable hk hs links _ _ (isDirectory_start hd _) h
      · rw [walk_directory hp hstands] at h
        rw [walk_directory hp (hk _ _ (by simp) hstands)]
        exact walk_fillable hk hs links _ names (isDirectory_concat_iff.mpr hstands) h
termination_by (links, names.length)

/-- Where a path leads to a file or to nothing, a file that is put there stands there, and is in
nobody's way. -/
theorem Fillable.putAt (h : Fillable (files.resolve true path) place) (content : ByteArray) :
    stands? (files.putAt (.file content) place) place = some (.file content) ∧
      KeepsWays files (files.putAt (.file content) place) := by
  have hplace : ∃ front name, place = front ++ [name] ∧ files.IsDirectory front ∧
      ∀ node, (∀ content, node ≠ .file content) → files.stands? place ≠ some node := by
    rcases h with hr | ⟨old, hr⟩
    · obtain ⟨front, name, rfl, hd, hs⟩ := holds_of_resolve hr
      exact ⟨front, name, rfl, hd, by simp [hs]⟩
    · have hs : files.stands? place = some (.file old) :=
        stands?_eq_file_iff.mpr (holds_of_resolve hr)
      obtain rfl | ⟨front, name, rfl⟩ := List.eq_nil_or_concat' place
      · cases hs
      · have hstands : files.stands? (front ++ [name]) ≠ none := hs ▸ Option.some_ne_none _
        refine ⟨front, name, rfl, isDirectory_of_stands? hstands, fun node hnode heq => ?_⟩
        exact hnode old (Option.some.inj (heq.symm.trans hs))
  obtain ⟨front, name, rfl, hd, hfree⟩ := hplace
  refine ⟨by rw [stands?_putAt rfl hd, if_pos rfl], fun q node hnode hq => ?_⟩
  -- Nothing stands below the place, and what stands at it is no directory and no link.
  have hne : q ≠ front ++ [name] := fun heq => hfree node hnode (heq ▸ hq)
  have hbelow : ¬ front ++ [name] <+: q := by
    rintro ⟨_ | ⟨next, below⟩, rfl⟩
    · exact hne (List.append_nil _)
    · rw [List.append_assoc, List.singleton_append,
        stands?_below (hfree (.directory []) (by simp))] at hq
      cases hq
  rw [stands?_putAt rfl hd, if_neg hne, if_neg hbelow, hq]

/-- **What is in a file that was opened by a path** is found by it. -/
theorem load_of_openFile (h : files.openFile disk path = .ok place) (content : ByteArray) :
    (files.putAt (.file content) place).load path = .ok content := by
  have hfound := found_of_openFile h
  obtain ⟨hs, hk⟩ := hfound.putAt content
  have hf := no_fault_of_openFile h
  rw [resolve_of_no_fault hf] at hfound
  rw [load, resolve_of_no_fault hf,
    walk_fillable hk hs mostLinks [] path.names (isDirectory_nil files) hfound]

theorem keepsWays_of_save (h : files.save disk path content = (files', none)) :
    KeepsWays files files' := by
  obtain ⟨place, ho, rfl⟩ := exists_place_of_save h
  exact ((found_of_openFile ho).putAt content).2

/-- **What was saved is loaded.** -/
theorem load_of_save (h : files.save disk path content = (files', none)) :
    files'.load path = .ok content := by
  obtain ⟨place, ho, rfl⟩ := exists_place_of_save h
  exact load_of_openFile ho content

end LinkedTables.Files
