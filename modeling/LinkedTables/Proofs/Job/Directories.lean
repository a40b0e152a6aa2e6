import LinkedTables.Job.Store
import LinkedTables.Proofs.Files.Removing
import LinkedTables.Proofs.Files.Writing
import LinkedTables.Proofs.Job.Names
import LinkedTables.Proofs.Job.Records

set_option autoImplicit false

/-! # Work directories in the files

Work directories lie in a parent directory, which is reached by a path, or by several paths,
and which need not be there yet. `Tidy` says of some names of work directories that they are
all at one place in the files: the paths of the parent can lead to that place only, and no
link stands in the work directories of these names, so that whatever is read, written or
removed by such a name is read, written or removed there.

What a work directory holds on record is the content of one file in it (`record?`). Putting
details on record changes that of one work directory only, and so does removing it.
-/

namespace LinkedTables

open Files

namespace WorkDir

/-! ## Names and texts of paths -/

theorem passable_detailsFileName : Passable detailsFileName := by
  constructor <;> decide

theorem names_path (parent : Path) (key : String) :
    (path parent key).names = parent.names ++ [name key] := rfl

theorem names_detailsPath (parent : Path) (key : String) :
    (detailsPath parent key).names = parent.names ++ [name key, detailsFileName] := by
  rw [detailsPath, Path.names_child, names_path, List.append_assoc]
  rfl

/-- The place of a details file is one below that of its work directory. -/
theorem details_place (top : List String) (n : String) :
    top ++ [n, detailsFileName] = (top ++ [n]) ++ [detailsFileName] := by
  rw [List.append_assoc]
  rfl

/-! ## Work directories at one place -/

/-- A place that is in none of the work directories. -/
def Outside (top : List String) (names : String → Prop) (place : List String) : Prop :=
  ∀ n, names n → ¬ top ++ [n] <+: place

/-- The work directories of some names are all at one place, whichever path of the parent is
used, and no link stands in them. -/
structure Tidy (parents : Path → Prop) (top : List String) (names : String → Prop)
    (files : Files) : Prop where
  way : ∀ parent, parents parent → ∃ links, Aims files mostLinks [] parent.names links top
  plain : ∀ place target, files.stands? place = some (.link target) → Outside top names place

/-- The file in a work directory that holds the details of the job. -/
def record? (top : List String) (files : Files) (n : String) : Option ByteArray :=
  match files.stands? (top ++ [n, detailsFileName]) with
  | some (.file content) => some content
  | _ => none

theorem record?_eq_some_iff {top : List String} {files : Files} {n : String}
    {content : ByteArray} :
    record? top files n = some content ↔
      files.stands? (top ++ [n, detailsFileName]) = some (.file content) := by
  rw [record?]
  split
  · next h => rw [h]; simp
  · next h => simpa using h content

variable {parents : Path → Prop} {top : List String} {names : String → Prop}
  {files files' : Files} {parent : Path} {key : String} {followsLast : Bool}

theorem Tidy.not_link (h : Tidy parents top names files) (hn : names (name key))
    (rest : List String) (target : String) :
    files.stands? (top ++ name key :: rest) ≠ some (.link target) := by
  intro hl
  refine h.plain _ _ hl _ hn ⟨rest, ?_⟩
  rw [List.append_assoc]
  rfl

/-- Whatever is found below the parent is found where the parent's path leads. -/
theorem Tidy.leads (h : Tidy parents top names files) (hp : parents parent) {path : Path}
    {rest : List String} (hne : rest ≠ []) (hpath : path.names = parent.names ++ rest)
    {found : Target} (hr : files.resolve followsLast path = .ok found) :
    ∃ links, Leads files (fun _ => True) mostLinks [] parent.names links top ∧
      files.walk followsLast (files.resolveFrom followsLast links) top rest = .ok found := by
  obtain ⟨links, haims⟩ := h.way parent hp
  rw [resolve_of_no_fault (no_fault_of_resolve hr), hpath] at hr
  have hleads := haims.leads_of_walk hne hr
  rw [hleads.walk_append (.inl hne)] at hr
  exact ⟨links, hleads, hr⟩

/-- What is found by the path of a work directory is there, or nothing is. -/
theorem Tidy.resolve_path (h : Tidy parents top names files) (hp : parents parent)
    (hn : names (name key)) {found : Target}
    (hr : files.resolve followsLast (path parent key) = .ok found) :
    (∃ node, found = .present (top ++ [name key]) node) ∨ found = .absent (top ++ [name key]) := by
  obtain ⟨links, -, hw⟩ := h.leads hp (List.cons_ne_nil _ _) (names_path parent key) hr
  exact found_of_walk_single (name_ne_up key) (h.not_link hn []) hw

/-- What is found by the path of a details file is in the work directory, or nothing is. -/
theorem Tidy.resolve_detailsPath (h : Tidy parents top names files) (hp : parents parent)
    (hn : names (name key)) {found : Target}
    (hr : files.resolve followsLast (detailsPath parent key) = .ok found) :
    files.IsDirectory (top ++ [name key]) ∧
      ((∃ node, found = .present (top ++ [name key, detailsFileName]) node) ∨
        found = .absent (top ++ [name key, detailsFileName])) := by
  obtain ⟨links, -, hw⟩ := h.leads hp (List.cons_ne_nil _ _) (names_detailsPath parent key) hr
  have hdir : files.stands? (top ++ [name key]) = some (.directory []) := by
    rcases directory_or_link_of_walk (name_ne_up key) (List.cons_ne_nil _ _) hw with
      hd | ⟨target, hl⟩
    · exact hd
    · exact absurd hl (h.not_link hn [] target)
  have hnolink := h.not_link hn [detailsFileName]
  rw [walk_directory (passable_of_walk (name_ne_up key) hw) hdir] at hw
  rw [details_place] at hnolink ⊢
  exact ⟨isDirectory_concat_iff.mpr hdir,
    found_of_walk_single passable_detailsFileName.1 hnolink hw⟩

/-! ## Reading, writing and removing -/

theorem exists_load {d : JobDetails} (h : DetailsStore.readDetails parent files key = .ok d) :
    ∃ content, files.load (detailsPath parent key) = .ok content ∧
      DetailsStore.ofBytes content = .ok d := by
  rw [DetailsStore.readDetails] at h
  split at h
  · next content hl => exact ⟨content, hl, h⟩
  · split at h <;> cases h

/-- What is read for a key is what its work directory holds on record. -/
theorem Tidy.record?_of_load (h : Tidy parents top names files) (hp : parents parent)
    (hn : names (name key)) {content : ByteArray}
    (hl : files.load (detailsPath parent key) = .ok content) :
    record? top files (name key) = some content := by
  rw [load] at hl
  split at hl
  · cases hl
  · next place found hr =>
      cases hl
      obtain ⟨node, hnode⟩ | habsent := (h.resolve_detailsPath hp hn hr).2
      · cases hnode
        exact record?_eq_some_iff.mpr (stands?_eq_file_iff.mpr (holds_of_resolve hr))
      · cases habsent
  · cases hl
  · cases hl

/-- Details are written into the file for them, in a work directory that is there. -/
theorem Tidy.eq_putAt_of_save (h : Tidy parents top names files) (hp : parents parent)
    (hn : names (name key)) {disk : Disk} {content : ByteArray}
    (hs : files.save disk (detailsPath parent key) content = (files', none)) :
    files.IsDirectory (top ++ [name key]) ∧
      files.stands? (top ++ [name key, detailsFileName]) ≠ some (.directory []) ∧
      files' = files.putAt (.file content) (top ++ [name key, detailsFileName]) := by
  obtain ⟨place, ho, rfl⟩ := exists_place_of_save hs
  rcases found_of_openFile ho with hr | ⟨old, hr⟩
  · obtain ⟨hd, ⟨node, hnode⟩ | habsent⟩ := h.resolve_detailsPath hp hn hr
    · cases hnode
    · cases habsent
      obtain ⟨_, _, -, -, hnone⟩ := holds_of_resolve hr
      exact ⟨hd, by rw [hnone]; simp, rfl⟩
  · obtain ⟨hd, ⟨node, hnode⟩ | habsent⟩ := h.resolve_detailsPath hp hn hr
    · cases hnode
      exact ⟨hd, by rw [stands?_eq_file_iff.mpr (holds_of_resolve hr)]; simp, rfl⟩
    · cases habsent

/-- What is removed for a key is its work directory. -/
theorem Tidy.eq_removeAt (h : Tidy parents top names files) (hp : parents parent)
    (hn : names (name key))
    (hs : files.removeDirectory .sound (path parent key) = (files', none)) :
    files' = files.removeAt (top ++ [name key]) := by
  rw [removeDirectory_sound] at hs
  cases hr : files.resolve false (path parent key) with
  | error fault => rw [hr] at hs; cases hs
  | ok found =>
      rw [hr] at hs
      obtain ⟨node, rfl⟩ | rfl := h.resolve_path hp hn hr
      · cases node with
        | directory es => exact (congrArg Prod.fst hs).symm
        | file content => cases hs
        | link target =>
            have hl := stands?_eq_link_iff.mpr (holds_of_resolve hr)
            exact absurd hl (h.not_link hn [] target)
      · cases hs

/-! ## What stays -/

/-- Work directories stay at their place as long as no link comes up and the links outside
of them stay. -/
theorem Tidy.of_links (h : Tidy parents top names files)
    (hnew : ∀ q target, files'.stands? q = some (.link target) →
      files.stands? q = some (.link target))
    (hkept : ∀ q target, Outside top names q → files.stands? q = some (.link target) →
      files'.stands? q = some (.link target)) : Tidy parents top names files' where
  way parent hp := by
    obtain ⟨links, haims⟩ := h.way parent hp
    refine ⟨links, Route.mono (fun here name hs target hl => ?_) (fun here name target _ hl => ?_)
      haims⟩
    · exact hs target (hnew _ _ hl)
    · exact ⟨hkept _ _ (h.plain _ _ hl) hl, trivial⟩
  plain q target hl := h.plain q target (hnew q target hl)

theorem prefix_work_iff {top rest : List String} {n m : String} :
    top ++ [n] <+: top ++ m :: rest ↔ n = m := by
  rw [List.prefix_append_right_inj, List.cons_prefix_cons]
  simp

theorem Tidy.grown (h : Tidy parents top names files) (hg : Grown files files') :
    Tidy parents top names files' := by
  refine h.of_links (fun q target hl => ?_) (fun q target _ hl => hg.stands?_of_some hl)
  rw [← hg.stands?_eq (by simp [hl])]
  exact hl

theorem record?_grown (hg : Grown files files') (n : String) :
    record? top files' n = record? top files n := by
  rw [record?, record?]
  rcases hg (top ++ [n, detailsFileName]) with hq | ⟨hnone, hq⟩
  · rw [hq]
  · rw [hq, hnone]

section

variable {content : ByteArray} {n : String}

theorem stands?_put_details (hd : files.IsDirectory (top ++ [n])) (q : List String) :
    stands? (files.putAt (.file content) (top ++ [n, detailsFileName])) q =
      if q = top ++ [n, detailsFileName] then some (.file content)
      else if top ++ [n, detailsFileName] <+: q then none else files.stands? q := by
  have hput := @stands?_putAt files (top ++ [n]) detailsFileName (.file content) rfl hd q
  rwa [List.append_assoc] at hput

theorem Tidy.put_details (h : Tidy parents top names files) (hn : names n)
    (hd : files.IsDirectory (top ++ [n])) :
    Tidy parents top names (files.putAt (.file content) (top ++ [n, detailsFileName])) := by
  have hin : top ++ [n] <+: top ++ [n, detailsFileName] := prefix_work_iff.mpr rfl
  refine h.of_links (fun q target hl => ?_) (fun q target hout hl => ?_)
  · rw [stands?_put_details hd] at hl
    split_ifs at hl
    · cases hl
    · exact hl
  · have hbelow : ¬ top ++ [n, detailsFileName] <+: q := fun hq => hout n hn (hin.trans hq)
    have hne : q ≠ top ++ [n, detailsFileName] := fun heq => hbelow (heq ▸ List.prefix_rfl)
    rw [stands?_put_details hd, if_neg hne, if_neg hbelow, hl]

theorem record?_put_details (hd : files.IsDirectory (top ++ [n])) (m : String) :
    record? top (files.putAt (.file content) (top ++ [n, detailsFileName])) m =
      if m = n then some content else record? top files m := by
  rw [record?, stands?_put_details hd]
  by_cases hm : m = n
  · rw [if_pos (by rw [hm]), if_pos hm]
  · have hbelow : ¬ top ++ [n, detailsFileName] <+: top ++ [m, detailsFileName] := by
      rw [List.prefix_append_right_inj, List.cons_prefix_cons]
      exact fun hq => hm hq.1.symm
    have hne : top ++ [m, detailsFileName] ≠ top ++ [n, detailsFileName] := by
      simpa using hm
    rw [if_neg hne, if_neg hbelow, if_neg hm, record?]

theorem Tidy.remove (h : Tidy parents top names files) (hn : names n) :
    Tidy parents top names (files.removeAt (top ++ [n])) := by
  refine h.of_links (fun q target hl => ?_) (fun q target hout hl => ?_)
  · rw [stands?_removeAt] at hl
    split_ifs at hl
    exact hl
  · rw [stands?_removeAt, if_neg (hout n hn), hl]

theorem record?_remove (files : Files) (m : String) :
    record? top (files.removeAt (top ++ [n])) m = if m = n then none else record? top files m := by
  rw [record?, stands?_removeAt]
  by_cases hm : m = n
  · rw [if_pos (prefix_work_iff.mpr hm.symm), if_pos hm]
  · rw [if_neg (fun hq => hm (prefix_work_iff.mp hq).symm), if_neg hm, record?]

end

/-! ## Putting details on record and removing them -/

theorem Tidy.writeDetails (h : Tidy parents top names files) (hp : parents parent)
    (hn : names (name key)) (d : JobDetails) :
    Tidy parents top names (DetailsStore.writeDetails parent files key d).2 := by
  rw [DetailsStore.writeDetails, DetailsStore.writeDetailsOn]
  have hg := grown_makeDirectories files .sound (path parent key)
  split
  · next made e hmade => exact h.grown (by rwa [hmade] at hg)
  · next made hmade =>
      rw [hmade] at hg
      split
      · next saved hsaved =>
          obtain ⟨hd, -, rfl⟩ := (h.grown hg).eq_putAt_of_save hp hn hsaved
          exact (h.grown hg).put_details hn hd
      · next hsaved =>
          rw [eq_of_save_sound hsaved]
          exact h.grown hg

/-- **Putting details on record** puts them into one work directory; and if that cannot be
done, no record is changed. -/
theorem Tidy.record?_writeDetails (h : Tidy parents top names files) (hp : parents parent)
    (hn : names (name key)) (d : JobDetails) :
    (∃ p, (DetailsStore.writeDetails parent files key d).1 = .error p ∧
      ∀ m, record? top (DetailsStore.writeDetails parent files key d).2 m =
        record? top files m) ∨
    ((DetailsStore.writeDetails parent files key d).1 = .ok () ∧
      ∀ m, record? top (DetailsStore.writeDetails parent files key d).2 m =
        if m = name key then some d.toIndentedText.toUTF8 else record? top files m) := by
  rw [DetailsStore.writeDetails, DetailsStore.writeDetailsOn]
  have hg := grown_makeDirectories files .sound (path parent key)
  split
  · next made e hmade =>
      rw [hmade] at hg
      exact .inl ⟨_, rfl, record?_grown hg⟩
  · next made hmade =>
      rw [hmade] at hg
      split
      · next saved hsaved =>
          obtain ⟨hd, -, rfl⟩ := (h.grown hg).eq_putAt_of_save hp hn hsaved
          refine .inr ⟨rfl, fun m => ?_⟩
          rw [record?_put_details hd, record?_grown hg]
      · next hsaved =>
          rw [eq_of_save_sound hsaved]
          exact .inl ⟨_, rfl, record?_grown hg⟩

theorem cleanOn_state (disk : Disk) (parent : Path) (channel : Channel) (key : String)
    (files : Files) :
    (cleanOn disk parent channel key files).state =
      (files.removeDirectory disk (path parent key)).1 := by
  rw [cleanOn, Run.bind_apply, Run.access]
  rcases files.removeDirectory disk (path parent key) with ⟨left, _ | e⟩
  · rfl
  · by_cases hnull : e.fault = .nullCharacter
    · simp [hnull]
    · simp only [if_neg hnull]
      split <;> rfl

theorem clean_state (parent : Path) (channel : Channel) (key : String) (files : Files) :
    (clean parent channel key files).state =
      (files.removeDirectory .sound (path parent key)).1 :=
  cleanOn_state .sound parent channel key files

/-- Either the work directory is removed or nothing is changed. -/
theorem Tidy.clean_cases (h : Tidy parents top names files) (hp : parents parent)
    (hn : names (name key)) (channel : Channel) :
    (files.removeDirectory .sound (path parent key)).2 = none ∧
        (WorkDir.clean parent channel key files).state = files.removeAt (top ++ [name key]) ∨
      (files.removeDirectory .sound (path parent key)).2 ≠ none ∧
        (WorkDir.clean parent channel key files).state = files := by
  rw [clean_state]
  rcases hr : files.removeDirectory .sound (path parent key) with ⟨left, _ | e⟩
  · exact .inl ⟨rfl, h.eq_removeAt hp hn hr⟩
  · exact .inr ⟨by simp, eq_of_removeDirectory_sound hr⟩

theorem Tidy.clean (h : Tidy parents top names files) (hp : parents parent)
    (hn : names (name key)) (channel : Channel) :
    Tidy parents top names (WorkDir.clean parent channel key files).state := by
  rcases h.clean_cases hp hn channel with ⟨-, heq⟩ | ⟨-, heq⟩
  · rw [heq]
    exact h.remove hn
  · rwa [heq]

/-- **Removing a work directory** changes no other record, and leaves none behind. -/
theorem Tidy.record?_clean (h : Tidy parents top names files) (hp : parents parent)
    (hn : names (name key)) (channel : Channel) :
    (∀ m, m ≠ name key → record? top (WorkDir.clean parent channel key files).state m =
      record? top files m) ∧
    ((files.removeDirectory .sound (path parent key)).2 = none →
      record? top (WorkDir.clean parent channel key files).state (name key) = none) := by
  rcases h.clean_cases hp hn channel with ⟨-, heq⟩ | ⟨hsome, heq⟩
  · rw [heq]
    exact ⟨fun m hm => (record?_remove files m).trans (if_neg hm),
      fun _ => (record?_remove files _).trans (if_pos rfl)⟩
  · rw [heq]
    exact ⟨fun _ _ => rfl, fun hnone => absurd hnone hsome⟩

/-! ## Removing what can be read -/

/-- The work directory for a key is there and can be reached. -/
structure Reached (parent : Path) (top : List String) (files : Files) (key : String) : Prop where
  leads : ∃ links, Leads files (fun _ => True) mostLinks [] parent.names links top
  noFault : (path parent key).fault? = none
  passable : Passable (name key)
  stands : files.stands? (top ++ [name key]) = some (.directory [])

theorem exists_resolved_of_load {path : Path} {content : ByteArray}
    (h : files.load path = .ok content) : ∃ found, files.resolve true path = .ok found := by
  rw [load] at h
  cases hr : files.resolve true path with
  | error fault => rw [hr] at h; cases h
  | ok found => exact ⟨found, rfl⟩

/-- What can be read is in a work directory that can be reached. -/
theorem Tidy.reached_of_load (h : Tidy parents top names files) (hp : parents parent)
    (hn : names (name key)) {content : ByteArray}
    (hl : files.load (detailsPath parent key) = .ok content) :
    Reached parent top files key := by
  obtain ⟨found, hr⟩ := exists_resolved_of_load hl
  obtain ⟨links, hleads, hw⟩ := h.leads hp (List.cons_ne_nil _ _) (names_detailsPath parent key) hr
  exact ⟨⟨links, hleads⟩, Path.no_fault_of_child (no_fault_of_resolve hr),
    passable_of_walk (name_ne_up key) hw,
    isDirectory_concat_iff.mp (h.resolve_detailsPath hp hn hr).1⟩

/-- A work directory that can be reached can be removed. -/
theorem Reached.removed (h : Reached parent top files key) :
    (files.removeDirectory .sound (path parent key)).2 = none := by
  obtain ⟨links, hleads⟩ := h.leads
  obtain ⟨es, hend⟩ := walk_directory_end h.passable h.stands
  have hr : files.resolve false (path parent key) =
      .ok (.present (top ++ [name key]) (.directory es)) := by
    rw [resolve_of_no_fault h.noFault, names_path,
      hleads.walk_append (.inl (List.cons_ne_nil _ _)), hend]
  rw [removeDirectory_sound, hr]

/-! ## Reading what was written -/

/-- Putting details on record leaves all ways to other places open. -/
theorem keepsWays_writeDetails (parent : Path) (files : Files) (key : String) (d : JobDetails) :
    KeepsWays files (DetailsStore.writeDetails parent files key d).2 := by
  rw [DetailsStore.writeDetails, DetailsStore.writeDetailsOn]
  have hg := grown_makeDirectories files .sound (path parent key)
  split
  · next made e hmade =>
      rw [hmade] at hg
      exact hg.keepsWays
  · next made hmade =>
      rw [hmade] at hg
      split
      · next saved hsaved => exact hg.keepsWays.trans (keepsWays_of_save hsaved)
      · next hsaved =>
          rw [eq_of_save_sound hsaved]
          exact hg.keepsWays

/-- **What was written for a key is read for it.** -/
theorem load_of_writeDetails {d : JobDetails}
    (hw : (DetailsStore.writeDetails parent files key d).1 = .ok ()) :
    (DetailsStore.writeDetails parent files key d).2.load (detailsPath parent key) =
      .ok d.toIndentedText.toUTF8 := by
  rw [DetailsStore.writeDetails, DetailsStore.writeDetailsOn] at hw ⊢
  split at hw
  · cases hw
  · split at hw
    · next saved hsaved => exact load_of_save hsaved
    · cases hw

/-- **What was put on record for a job is got for it.** -/
theorem readDetails_of_writeDetails {d : JobDetails}
    (hw : (DetailsStore.writeDetails parent files key d).1 = .ok ()) :
    DetailsStore.readDetails parent (DetailsStore.writeDetails parent files key d).2 key =
      .ok d.settled := by
  rw [DetailsStore.readDetails, load_of_writeDetails hw]
  exact DetailsStore.ofBytes_toIndentedText d

end WorkDir

end LinkedTables
