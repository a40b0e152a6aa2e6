import LinkedTables.Proofs.Job.Once

set_option autoImplicit false

/-! # Work directories by themselves

Once the parent directory is there, whatever is done by the path of a work directory depends
on what stands in that directory and on nothing else, and it changes nothing else. Each
operation comes down to one function of what stands at the work directory and at its details
file (`madeAs`, `savedAs`, `loadedAs`, `removedAs`), which says whether it can be done.
-/

namespace LinkedTables

open Files

namespace WorkDir

/-- Work directories whose parent directory is there, and is reached by paths that do not
lead through any of them. -/
structure Settled (parents : Path → Prop) (top : List String) (names : String → Prop)
    (files : Files) : Prop extends Orderly parents top names files where
  there : ∀ parent, parents parent →
    ∃ links, Leads files (Outside top names) mostLinks [] parent.names links top

/-! ## What can be done in a work directory -/

section

variable (path : Path) (n : String)

/-- Why a name in the parent directory cannot be reached by a path at all. -/
def barred? : Option FileFault :=
  match path.fault? with
  | some fault => some fault
  | none => if longestName < n.utf8ByteSize then some .nameTooLong else none

/-- Why a work directory cannot be made where something stands, or does. -/
def madeAs (directory : Option Node) : Option FileFault :=
  match barred? path n, directory with
  | some fault, _ => some fault
  | none, none | none, some (.directory _) => none
  | none, _ => some .exists

/-- Why details cannot be written into a work directory. -/
def savedAs (directory details : Option Node) : Option FileError :=
  match barred? path n, directory, details with
  | some fault, _, _ => some ⟨fault, path⟩
  | none, some (.directory _), some (.directory _) => some ⟨.isADirectory, path⟩
  | none, some (.directory _), _ => none
  | none, none, _ => some ⟨.notFound, path⟩
  | none, _, _ => some ⟨.notADirectory, path⟩

/-- The details that are read from a work directory. -/
def loadedAs (directory details : Option Node) : Except FileError ByteArray :=
  match barred? path n, directory, details with
  | some fault, _, _ => .error ⟨fault, path⟩
  | none, some (.directory _), some (.file content) => .ok content
  | none, some (.directory _), none => .error ⟨.notFound, path⟩
  | none, some (.directory _), _ => .error ⟨.isADirectory, path⟩
  | none, none, _ => .error ⟨.notFound, path⟩
  | none, _, _ => .error ⟨.notADirectory, path⟩

/-- Why a work directory cannot be removed. -/
def removedAs (directory : Option Node) : Option FileError :=
  match barred? path n, directory with
  | some fault, _ => some ⟨fault, path⟩
  | none, some (.directory _) => none
  | none, none => some ⟨.notFound, path⟩
  | none, _ => some ⟨.notADirectory, path⟩

end

variable {parents : Path → Prop} {parent : Path} {top : List String} {names : String → Prop}
  {files : Files} {key : String} {followsLast : Bool}

theorem barred?_eq_some {path : Path} {n : String} {fault : FileFault}
    (h : barred? path n = some fault) : fault = .nullCharacter ∨ fault = .nameTooLong := by
  rw [barred?] at h
  split at h
  · next hf => exact Option.some.inj h ▸ fault?_eq_some hf
  · split_ifs at h
    exact .inr (Option.some.inj h).symm

theorem madeAs_ne_notFound {path : Path} {n : String} {directory : Option Node} :
    madeAs path n directory ≠ some .notFound := by
  intro h
  unfold madeAs at h
  split at h
  · next hbar =>
      obtain rfl := Option.some.inj h
      rcases barred?_eq_some hbar with hf | hf <;> cases hf
  all_goals cases h

/-- A path below the parent is refused, or walked from the place of the parent. -/
theorem Settled.resolve_cases (h : Settled parents top names files) (hp : parents parent)
    {path : Path} {rest : List String} (hpath : path.names = parent.names ++ name key :: rest) :
    (∃ fault, barred? path (name key) = some fault ∧
      ∀ followsLast, files.resolve followsLast path = .error fault) ∨
    (barred? path (name key) = none ∧ Passable (name key) ∧ ∃ links, ∀ followsLast,
      files.resolve followsLast path =
        files.walk followsLast (files.resolveFrom followsLast links) top (name key :: rest)) := by
  obtain ⟨links, hleads⟩ := h.there parent hp
  cases hf : path.fault? with
  | some fault =>
      exact .inl ⟨fault, by simp [barred?, hf], fun _ => resolve_of_fault hf⟩
  | none =>
      have hwalk (followsLast : Bool) : files.resolve followsLast path =
          files.walk followsLast (files.resolveFrom followsLast links) top (name key :: rest) := by
        rw [resolve_of_no_fault hf, hpath, hleads.walk_append (.inl (List.cons_ne_nil _ _))]
      by_cases hl : longestName < (name key).utf8ByteSize
      · refine .inl ⟨.nameTooLong, by simp [barred?, hf, hl], fun followsLast => ?_⟩
        rw [hwalk, walk_nameTooLong (name_ne_up key) hl]
      · exact .inr ⟨by simp [barred?, hf, hl], ⟨name_ne_up key, Nat.not_lt.mp hl⟩, links, hwalk⟩

/-- A place below the parent that no link stands at holds nothing, a file or a directory. -/
theorem Settled.stands?_cases (h : Settled parents top names files) (hn : names (name key))
    (rest : List String) :
    files.stands? (top ++ name key :: rest) = none ∨
      (∃ content, files.stands? (top ++ name key :: rest) = some (.file content)) ∨
      files.stands? (top ++ name key :: rest) = some (.directory []) := by
  rcases files.stands?_cases (top ++ name key :: rest) with hs | hs | ⟨target, hs⟩ | hs
  · exact .inl hs
  · exact .inr (.inl hs)
  · exact absurd hs (h.toTidy.not_link hn rest target)
  · exact .inr (.inr hs)

/-! ## What is done -/

theorem Settled.ensureDirectory_eq (h : Settled parents top names files)
    (hp : parents parent) (hn : names (name key)) :
    files.ensureDirectory .sound (path parent key) =
      match madeAs (path parent key) (name key) (files.stands? (top ++ [name key])) with
      | some fault => .error fault
      | none =>
        if files.stands? (top ++ [name key]) = none then
          .ok (files.putAt (.directory []) (top ++ [name key]))
        else .ok files := by
  rcases h.resolve_cases hp (names_path parent key) with
    ⟨fault, hbar, hr⟩ | ⟨hbar, hpass, links, hr⟩
  · rcases barred?_eq_some hbar with rfl | rfl <;>
      simp only [ensureDirectory, makeDirectory, isDirectory?, hr, madeAs, hbar]
  · rcases h.stands?_cases hn [] with hs | ⟨content, hs⟩ | hs
    · simp only [ensureDirectory, makeDirectory, hr, walk_absent_end hpass hs, Disk.making_sound,
        madeAs, hbar, hs, if_true]
    · simp only [ensureDirectory, makeDirectory, isDirectory?, hr, walk_file_end hpass hs, madeAs,
        hbar, hs]
    · obtain ⟨es, hend⟩ := walk_directory_end hpass hs
      simp [ensureDirectory, makeDirectory, isDirectory?, hr, hend, madeAs, hbar, hs]

theorem Settled.ensureDirectory_ne (h : Settled parents top names files) (hp : parents parent)
    (hn : names (name key)) :
    files.ensureDirectory .sound (path parent key) ≠ .error .notFound := by
  rw [h.ensureDirectory_eq hp hn]
  cases hm : madeAs (path parent key) (name key) (files.stands? (top ++ [name key])) with
  | some fault =>
      intro heq
      exact madeAs_ne_notFound (Except.error.inj heq ▸ hm)
  | none =>
      simp only
      split <;> exact fun heq => by cases heq

theorem Settled.makeDirectories_eq (h : Settled parents top names files) (hp : parents parent)
    (hn : names (name key)) :
    files.makeDirectories .sound (path parent key) =
      match madeAs (path parent key) (name key) (files.stands? (top ++ [name key])) with
      | some fault => (files, some ⟨fault, path parent key⟩)
      | none =>
        if files.stands? (top ++ [name key]) = none then
          (files.putAt (.directory []) (top ++ [name key]), none)
        else (files, none) := by
  have hensure := h.ensureDirectory_eq hp hn
  rw [makeDirectories]
  cases hm : madeAs (path parent key) (name key) (files.stands? (top ++ [name key])) with
  | some fault =>
      rw [hm] at hensure
      exact ensureDirectories_of_error _ (fun hf => madeAs_ne_notFound (hf ▸ hm)) hensure
  | none =>
      rw [hm] at hensure
      by_cases hs : files.stands? (top ++ [name key]) = none
      · simp only [if_pos hs] at hensure ⊢
        exact ensureDirectories_of_ok _ hensure
      · simp only [if_neg hs] at hensure ⊢
        exact ensureDirectories_of_ok _ hensure

/-- Where the path of a details file leads, by what stands at the work directory and at the
file in it. -/
theorem Settled.resolve_details_cases (h : Settled parents top names files)
    (hp : parents parent) (hn : names (name key)) :
    (∃ fault, barred? (detailsPath parent key) (name key) = some fault ∧
      files.resolve true (detailsPath parent key) = .error fault) ∨
    barred? (detailsPath parent key) (name key) = none ∧
      (files.stands? (top ++ [name key]) = none ∧
        files.resolve true (detailsPath parent key) = .error .notFound ∨
      (∃ content, files.stands? (top ++ [name key]) = some (.file content) ∧
        files.resolve true (detailsPath parent key) = .error .notADirectory) ∨
      files.stands? (top ++ [name key]) = some (.directory []) ∧
        (files.stands? (top ++ [name key, detailsFileName]) = none ∧
          files.resolve true (detailsPath parent key) =
            .ok (.absent (top ++ [name key, detailsFileName])) ∨
        (∃ content, files.stands? (top ++ [name key, detailsFileName]) = some (.file content) ∧
          files.resolve true (detailsPath parent key) =
            .ok (.present (top ++ [name key, detailsFileName]) (.file content))) ∨
        files.stands? (top ++ [name key, detailsFileName]) = some (.directory []) ∧
          ∃ es, files.resolve true (detailsPath parent key) =
            .ok (.present (top ++ [name key, detailsFileName]) (.directory es)))) := by
  rcases h.resolve_cases hp (names_detailsPath parent key) with
    ⟨fault, hbar, hr⟩ | ⟨hbar, hpass, links, hr⟩
  · exact .inl ⟨fault, hbar, hr true⟩
  refine .inr ⟨hbar, ?_⟩
  rcases h.stands?_cases hn [] with hs | ⟨content, hs⟩ | hs
  · refine .inl ⟨hs, ?_⟩
    rw [hr, walk_absent_beyond hpass hs (List.cons_ne_nil _ _)]
  · refine .inr (.inl ⟨content, hs, ?_⟩)
    rw [hr, walk_file_beyond hpass hs (List.cons_ne_nil _ _)]
  · refine .inr (.inr ⟨hs, ?_⟩)
    have hin := h.stands?_cases hn [detailsFileName]
    rw [hr, walk_directory hpass hs]
    rw [details_place] at hin ⊢
    rcases hin with hf | ⟨content, hf⟩ | hf
    · exact .inl ⟨hf, walk_absent_end passable_detailsFileName hf⟩
    · exact .inr (.inl ⟨content, hf, walk_file_end passable_detailsFileName hf⟩)
    · obtain ⟨es, hend⟩ := walk_directory_end passable_detailsFileName hf
      exact .inr (.inr ⟨hf, es, hend _ _⟩)

theorem Settled.load_eq (h : Settled parents top names files) (hp : parents parent)
    (hn : names (name key)) :
    files.load (detailsPath parent key) =
      loadedAs (detailsPath parent key) (name key) (files.stands? (top ++ [name key]))
        (files.stands? (top ++ [name key, detailsFileName])) := by
  rcases h.resolve_details_cases hp hn with ⟨fault, hbar, hr⟩ |
    ⟨hbar, ⟨hs, hr⟩ | ⟨content, hs, hr⟩ | ⟨hs, ⟨hf, hr⟩ | ⟨content, hf, hr⟩ | ⟨hf, es, hr⟩⟩⟩
  · simp only [load, hr, loadedAs, hbar]
  · simp only [load, hr, loadedAs, hbar, hs]
  · simp only [load, hr, loadedAs, hbar, hs]
  all_goals simp only [load, hr, loadedAs, hbar, hs, hf]

theorem Settled.save_eq (h : Settled parents top names files) (hp : parents parent)
    (hn : names (name key)) (content : ByteArray) :
    files.save .sound (detailsPath parent key) content =
      match savedAs (detailsPath parent key) (name key) (files.stands? (top ++ [name key]))
        (files.stands? (top ++ [name key, detailsFileName])) with
      | some e => (files, some e)
      | none => (files.putAt (.file content) (top ++ [name key, detailsFileName]), none) := by
  rcases h.resolve_details_cases hp hn with ⟨fault, hbar, hr⟩ |
    ⟨hbar, ⟨hs, hr⟩ | ⟨old, hs, hr⟩ | ⟨hs, ⟨hf, hr⟩ | ⟨old, hf, hr⟩ | ⟨hf, es, hr⟩⟩⟩
  · simp only [save_sound, hr, savedAs, hbar]
  · simp only [save_sound, hr, savedAs, hbar, hs]
  · simp only [save_sound, hr, savedAs, hbar, hs]
  all_goals simp only [save_sound, hr, savedAs, hbar, hs, hf]

theorem Settled.removeDirectory_eq (h : Settled parents top names files)
    (hp : parents parent) (hn : names (name key)) :
    files.removeDirectory .sound (path parent key) =
      match removedAs (path parent key) (name key) (files.stands? (top ++ [name key])) with
      | some e => (files, some e)
      | none => (files.removeAt (top ++ [name key]), none) := by
  rcases h.resolve_cases hp (names_path parent key) with
    ⟨fault, hbar, hr⟩ | ⟨hbar, hpass, links, hr⟩
  · simp only [removedAs, hbar, removeDirectory_sound, hr]
  · rcases h.stands?_cases hn [] with hs | ⟨content, hs⟩ | hs
    · simp only [removedAs, hbar, hs, removeDirectory_sound, hr, walk_absent_end hpass hs]
    · simp only [removedAs, hbar, hs, removeDirectory_sound, hr, walk_file_end hpass hs]
    · obtain ⟨es, hend⟩ := walk_directory_end hpass hs
      simp only [removedAs, hbar, hs, removeDirectory_sound, hr, hend]

/-! ## What stays -/

/-- The parent directory stays where it is as long as what is outside of the work directories
stays. -/
theorem Settled.of_outside {files' : Files} (h : Settled parents top names files)
    (ho : Orderly parents top names files')
    (hkept : ∀ q node, Outside top names q → files.stands? q = some node →
      files'.stands? q = some node) : Settled parents top names files' where
  toOrderly := ho
  there := by
    intro parent hp
    obtain ⟨links, hleads⟩ := h.there parent hp
    exact ⟨links, Route.mono (fun here n hs => ⟨hs.1, hkept _ _ hs.2.2 hs.2.1, hs.2.2⟩)
      (fun here n target ht hl => ⟨hkept _ _ ht.2 hl, ht⟩) hleads⟩

theorem Settled.grown {files' : Files} (h : Settled parents top names files)
    (hg : Grown files files') : Settled parents top names files' := by
  refine h.of_outside ⟨h.toTidy.grown hg, fun n content d hn hrecord => ?_⟩
    fun q node _ hq => hg.stands?_of_some hq
  rw [record?_grown hg] at hrecord
  exact h.own n content d hn hrecord

theorem Settled.writeDetails (h : Settled parents top names files) (hp : parents parent)
    {d : JobDetails} (hn : names (name d.outputTable.text)) :
    Settled parents top names
      (DetailsStore.writeDetails parent files d.outputTable.text d).2 := by
  refine h.of_outside (h.toOrderly.writeDetails hp hn) fun q node hout hq => ?_
  have hg := grown_makeDirectories files .sound (path parent d.outputTable.text)
  rw [DetailsStore.writeDetails, DetailsStore.writeDetailsOn]
  split
  · next made e hmade =>
      rw [hmade] at hg
      exact hg.stands?_of_some hq
  · next made hmade =>
      rw [hmade] at hg
      split
      · next saved hsaved =>
          obtain ⟨hd, -, rfl⟩ := (h.grown hg).toTidy.eq_putAt_of_save hp hn hsaved
          have hbelow : ¬ top ++ [name d.outputTable.text, detailsFileName] <+: q := fun hq =>
            hout _ hn ((prefix_work_iff.mpr rfl).trans hq)
          have hne : q ≠ top ++ [name d.outputTable.text, detailsFileName] := fun heq =>
            hbelow (heq ▸ List.prefix_rfl)
          rw [stands?_put_details hd, if_neg hne, if_neg hbelow]
          exact hg.stands?_of_some hq
      · next hsaved =>
          rw [eq_of_save_sound hsaved]
          exact hg.stands?_of_some hq

theorem Settled.clean (h : Settled parents top names files) (hp : parents parent)
    (hn : names (name key)) (channel : Channel) :
    Settled parents top names (clean parent channel key files).state := by
  rcases h.toTidy.clean_cases hp hn channel with ⟨-, heq⟩ | ⟨-, heq⟩
  · rw [heq]
    refine h.of_outside ⟨h.toTidy.remove hn, fun n content d hn' hrecord => ?_⟩
      fun q node hout hq => ?_
    · rw [record?_remove] at hrecord
      split at hrecord
      · cases hrecord
      · exact h.own n content d hn' hrecord
    · rw [stands?_removeAt, if_neg (hout _ hn), hq]
  · rwa [heq]

/-! ## Two trees of files with the same work directory -/

/-- The same stands in the work directory of a name. -/
def Same (top : List String) (n : String) (files files' : Files) : Prop :=
  ∀ rest, files.stands? (top ++ n :: rest) = files'.stands? (top ++ n :: rest)

theorem place_eq_iff {m n : String} {rest rest' : List String} :
    top ++ m :: rest = top ++ n :: rest' ↔ m = n ∧ rest = rest' := by
  simp

theorem prefix_place_iff {m n : String} {rest rest' : List String} :
    top ++ n :: rest' <+: top ++ m :: rest ↔ n = m ∧ rest' <+: rest := by
  rw [List.prefix_append_right_inj, List.cons_prefix_cons]

theorem Settled.isDirectory (h : Settled parents top names files) (hp : parents parent) :
    files.IsDirectory top := by
  obtain ⟨links, hleads⟩ := h.there parent hp
  exact hleads.isDirectory (isDirectory_nil files)

theorem stands?_make (hd : files.IsDirectory top) (n m : String) (rest : List String) :
    stands? (files.putAt (.directory []) (top ++ [n])) (top ++ m :: rest) =
      if m = n then (if rest = [] then some (.directory []) else none)
      else files.stands? (top ++ m :: rest) := by
  rw [stands?_putAt rfl hd]
  by_cases hm : m = n
  · subst hm
    simp
  · rw [if_neg hm, if_neg (fun heq => hm (place_eq_iff.mp heq).1),
      if_neg (fun hp => hm (prefix_place_iff.mp hp).1.symm)]

theorem stands?_save {n : String} {content : ByteArray} (hd : files.IsDirectory (top ++ [n]))
    (m : String) (rest : List String) :
    stands? (files.putAt (.file content) (top ++ [n, detailsFileName])) (top ++ m :: rest) =
      if m = n then
        (if rest = [detailsFileName] then some (.file content)
        else if [detailsFileName] <+: rest then none else files.stands? (top ++ m :: rest))
      else files.stands? (top ++ m :: rest) := by
  rw [stands?_put_details hd]
  by_cases hm : m = n
  · subst hm
    simp
  · rw [if_neg hm, if_neg (fun heq => hm (place_eq_iff.mp heq).1),
      if_neg (fun hp => hm (prefix_place_iff.mp hp).1.symm)]

theorem stands?_remove (files : Files) (n m : String) (rest : List String) :
    stands? (files.removeAt (top ++ [n])) (top ++ m :: rest) =
      if m = n then none else files.stands? (top ++ m :: rest) := by
  rw [stands?_removeAt]
  by_cases hm : m = n
  · rw [if_pos hm, if_pos (prefix_work_iff.mpr hm.symm)]
  · rw [if_neg hm, if_neg (fun hp => hm (prefix_work_iff.mp hp).symm)]

section

variable {files' : Files} {n : String}

/-- In the same work directory the same directories can be made, with the same result. -/
theorem Settled.make_same (h : Settled parents top names files)
    (h' : Settled parents top names files') (hp : parents parent) (hn : names (name key))
    (hsame : Same top (name key) files files') :
    (files.makeDirectories .sound (path parent key)).2 =
        (files'.makeDirectories .sound (path parent key)).2 ∧
      Same top (name key) (files.makeDirectories .sound (path parent key)).1
        (files'.makeDirectories .sound (path parent key)).1 := by
  rw [h.makeDirectories_eq hp hn, h'.makeDirectories_eq hp hn, ← hsame []]
  cases madeAs (path parent key) (name key) (files.stands? (top ++ [name key])) with
  | some e => exact ⟨rfl, hsame⟩
  | none =>
      by_cases hs : files.stands? (top ++ [name key]) = none
      · simp only [if_pos hs]
        refine ⟨trivial, fun rest => ?_⟩
        rw [stands?_make (h.isDirectory hp), stands?_make (h'.isDirectory hp), if_pos rfl,
          if_pos rfl]
      · simp only [if_neg hs]
        exact ⟨trivial, hsame⟩

/-- Making a work directory leaves the others alone. -/
theorem Settled.make_other (h : Settled parents top names files) (hp : parents parent)
    (hn : names (name key)) (hne : n ≠ name key) :
    Same top n (files.makeDirectories .sound (path parent key)).1 files := by
  rw [h.makeDirectories_eq hp hn]
  cases madeAs (path parent key) (name key) (files.stands? (top ++ [name key])) with
  | some e => exact fun _ => rfl
  | none =>
      by_cases hs : files.stands? (top ++ [name key]) = none
      · simp only [if_pos hs]
        exact fun rest => by rw [stands?_make (h.isDirectory hp), if_neg hne]
      · simp only [if_neg hs]
        exact fun _ => rfl

/-- Into the same work directory the same can be written, with the same result. -/
theorem Settled.save_same (h : Settled parents top names files)
    (h' : Settled parents top names files') (hp : parents parent) (hn : names (name key))
    (hsame : Same top (name key) files files') (content : ByteArray) :
    (∃ e, files.save .sound (detailsPath parent key) content = (files, some e) ∧
      files'.save .sound (detailsPath parent key) content = (files', some e)) ∨
    ∃ saved saved', files.save .sound (detailsPath parent key) content = (saved, none) ∧
      files'.save .sound (detailsPath parent key) content = (saved', none) ∧
      Same top (name key) saved saved' := by
  have heq := h.save_eq hp hn content
  have heq' := h'.save_eq hp hn content
  rw [← hsame [], ← hsame [detailsFileName]] at heq'
  cases hs : savedAs (detailsPath parent key) (name key) (files.stands? (top ++ [name key]))
      (files.stands? (top ++ [name key, detailsFileName])) with
  | some e =>
      rw [hs] at heq heq'
      exact .inl ⟨e, heq, heq'⟩
  | none =>
      rw [hs] at heq heq'
      refine .inr ⟨_, _, heq, heq', fun rest => ?_⟩
      rw [stands?_save (h.toTidy.eq_putAt_of_save hp hn heq).1,
        stands?_save (h'.toTidy.eq_putAt_of_save hp hn heq').1, hsame rest]

/-- Writing into a work directory leaves the others alone. -/
theorem Settled.save_other {saved : Files} (h : Settled parents top names files)
    (hp : parents parent) (hn : names (name key)) (hne : n ≠ name key) {content : ByteArray}
    (hs : files.save .sound (detailsPath parent key) content = (saved, none)) :
    Same top n saved files := by
  obtain ⟨hd, -, rfl⟩ := h.toTidy.eq_putAt_of_save hp hn hs
  exact fun rest => by rw [stands?_save hd, if_neg hne]

/-- **Into the same work directory** the same details can be put, with the same result. -/
theorem Settled.writeDetails_same (h : Settled parents top names files)
    (h' : Settled parents top names files') (hp : parents parent) (hn : names (name key))
    (hsame : Same top (name key) files files') (d : JobDetails) :
    (DetailsStore.writeDetails parent files key d).1 =
        (DetailsStore.writeDetails parent files' key d).1 ∧
      Same top (name key) (DetailsStore.writeDetails parent files key d).2
        (DetailsStore.writeDetails parent files' key d).2 := by
  obtain ⟨herror, hmade⟩ := h.make_same h' hp hn hsame
  have hg := h.grown (grown_makeDirectories files .sound (path parent key))
  have hg' := h'.grown (grown_makeDirectories files' .sound (path parent key))
  rw [DetailsStore.writeDetails, DetailsStore.writeDetails, DetailsStore.writeDetailsOn,
    DetailsStore.writeDetailsOn]
  generalize files.makeDirectories .sound (path parent key) = made at herror hmade hg
  generalize files'.makeDirectories .sound (path parent key) = made' at herror hmade hg'
  obtain ⟨made, e?⟩ := made
  obtain ⟨made', e?'⟩ := made'
  obtain rfl : e? = e?' := herror
  cases e? with
  | some e => exact ⟨rfl, hmade⟩
  | none =>
      obtain ⟨e, hs, hs'⟩ | ⟨saved, saved', hs, hs', hsaved⟩ :=
        hg.save_same hg' hp hn hmade d.toIndentedText.toUTF8
      · simp only [hs, hs']
        exact ⟨trivial, hmade⟩
      · simp only [hs, hs']
        exact ⟨trivial, hsaved⟩

/-- **Putting details into a work directory** leaves the others alone. -/
theorem Settled.writeDetails_other (h : Settled parents top names files) (hp : parents parent)
    (hn : names (name key)) (hne : n ≠ name key) (d : JobDetails) :
    Same top n (DetailsStore.writeDetails parent files key d).2 files := by
  have hmade := h.make_other hp hn hne
  have hg := h.grown (grown_makeDirectories files .sound (path parent key))
  rw [DetailsStore.writeDetails, DetailsStore.writeDetailsOn]
  split
  · next made e heq => rwa [heq] at hmade
  · next made heq =>
      rw [heq] at hmade hg
      split
      · next saved hs => exact fun rest => (hg.save_other hp hn hne hs rest).trans (hmade rest)
      · next hs =>
          rw [eq_of_save_sound hs]
          exact hmade

/-- **From the same work directory** the same is read. -/
theorem Settled.load_same (h : Settled parents top names files)
    (h' : Settled parents top names files') (hp : parents parent) (hn : names (name key))
    (hsame : Same top (name key) files files') :
    files.load (detailsPath parent key) = files'.load (detailsPath parent key) := by
  rw [h.load_eq hp hn, h'.load_eq hp hn, ← hsame [], ← hsame [detailsFileName]]

theorem Settled.removeDirectory_same (h : Settled parents top names files)
    (h' : Settled parents top names files') (hp : parents parent) (hn : names (name key))
    (hsame : Same top (name key) files files') :
    (∃ e, files.removeDirectory .sound (path parent key) = (files, some e) ∧
      files'.removeDirectory .sound (path parent key) = (files', some e)) ∨
    ∃ removed removed', files.removeDirectory .sound (path parent key) = (removed, none) ∧
      files'.removeDirectory .sound (path parent key) = (removed', none) ∧
      Same top (name key) removed removed' := by
  have heq := h.removeDirectory_eq hp hn
  have heq' := h'.removeDirectory_eq hp hn
  rw [← hsame []] at heq'
  cases hs : removedAs (path parent key) (name key) (files.stands? (top ++ [name key])) with
  | some e =>
      rw [hs] at heq heq'
      exact .inl ⟨e, heq, heq'⟩
  | none =>
      rw [hs] at heq heq'
      refine .inr ⟨_, _, heq, heq', fun rest => ?_⟩
      rw [stands?_remove, stands?_remove, if_pos rfl, if_pos rfl]

/-- **Removing a work directory** leaves the others alone. -/
theorem Settled.clean_other (h : Settled parents top names files) (hp : parents parent)
    (hn : names (name key)) (hne : n ≠ name key) (channel : Channel) :
    Same top n (WorkDir.clean parent channel key files).state files := by
  rcases h.toTidy.clean_cases hp hn channel with ⟨-, heq⟩ | ⟨-, heq⟩
  · rw [heq]
    exact fun rest => by rw [stands?_remove, if_neg hne]
  · rw [heq]
    exact fun _ => rfl

end

end WorkDir

end LinkedTables
