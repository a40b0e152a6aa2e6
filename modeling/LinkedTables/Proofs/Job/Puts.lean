import LinkedTables.Proofs.Files.Chains
import LinkedTables.Proofs.Job.Interleaved
import LinkedTables.Proofs.Job.Removal

set_option autoImplicit false

/-! # Putting details on record

A put makes the work directory of a job, opens the file for the details in it and writes them. It
may be stopped before it writes. What is left of it then are new directories, which hold nothing,
so what was found before is found still (`Grown.load_eq`). Whether what was not found is still not
found depends on the way: straight down, new directories lead to nothing new (`load_of_made`).

A put that is not stopped writes one file, at the place of the job's details
(`place_of_openFile`), and no other job looks there unless it is led there by a link
(`load_of_written`). If the disk breaks off the writing, what the file held is lost, and what is
in it then is no record (`DetailsStore.eq_of_ofBytes_beginning`).
-/

namespace LinkedTables.WorkDir

open Files

variable {parent : Path} {key key' n : String} {files made : Files} {disk : Disk}
  {top front chain names place : List String}

/-! ## Ways that are not disturbed -/

/-- As far as the parent's path is there it leads to a directory, and from there it goes straight
down to where the work directory of a job would be, by names that a directory can have. -/
def Straight (files : Files) (parent : Path) (key : String) : Prop :=
  ∃ base tail, parent.names = base ++ tail ∧
    (∃ links place, Leads files (fun _ => True) mostLinks [] base links place) ∧
    (tail ≠ [] → ∀ n ∈ tail ++ [name key], Passable n)

/-- No link stands where a job has its work directory and its details, in the directory that
the parent's path leads to, or would lead to. -/
def Unlinked (files : Files) (parent : Path) (key : String) : Prop :=
  ∀ links top, Aims files mostLinks [] parent.names links top → ∀ target,
    files.stands? (top ++ [name key]) ≠ some (.link target) ∧
      files.stands? (top ++ [name key, detailsFileName]) ≠ some (.link target)

theorem Unlinked.grown (h : Unlinked files parent key) (hg : Grown files made) :
    Unlinked made parent key := by
  intro links top haims target
  have hlink (q : List String) (target : String) (hl : made.stands? q = some (.link target)) :
      files.stands? q = some (.link target) := by
    rw [← hg.stands?_eq (by simp [hl])]
    exact hl
  have hsame : Aims files mostLinks [] parent.names links top :=
    Route.mono (fun _ _ hs target hl => hs target (hg.stands?_of_some hl))
      (fun _ _ _ _ hl => ⟨hlink _ _ hl, trivial⟩) haims
  obtain ⟨hdir, hfile⟩ := h links top hsame target
  exact ⟨fun hl => hdir (hlink _ _ hl), fun hl => hfile (hlink _ _ hl)⟩

/-- The way to the details of a job is away from all places where neither a directory nor a
link is. -/
theorem Unlinked.awayFrom (h : Unlinked files parent key) (hl : LeadsTo files parent top)
    {place : List String}
    (hplace : ∀ node, (∀ content, node ≠ .file content) → files.stands? place ≠ some node) :
    AwayFrom place files parent top key := by
  obtain ⟨links, hleads⟩ := hl
  refine ⟨⟨links, hleads.of_stands ?_⟩, fun target => (h links top hleads.aims target).1,
    fun target => (h links top hleads.aims target).2⟩
  rintro q node hnode hq rfl
  exact hplace node hnode hq

/-! ## Making a work directory -/

/-- A work directory that is made does not matter to what is read. -/
theorem load_of_chained_work (hl : LeadsTo files parent top) (hu : Unlinked files parent key')
    (hp : Passable (name key)) (hc : Chained top (name key) [] files made) :
    made.load (detailsPath parent key') = files.load (detailsPath parent key') := by
  by_cases hf : (detailsPath parent key').fault? = none
  case neg => exact load_eq_of_fault hf
  by_cases hname : name key' = name key
  · -- There were no details before, and the new directory is empty.
    obtain ⟨links, hleads⟩ := hl
    have hlooks : LooksAt files (detailsPath parent key') (top ++ [name key]) := by
      rw [LooksAt, names_detailsPath, hname]
      exact hleads.visits_append (.here hp rfl)
    have hlooks' : LooksAt made (detailsPath parent key') (top ++ [name key, detailsFileName]) := by
      rw [LooksAt, names_detailsPath, hname]
      refine (hleads.of_keepsWays hc.grown.keepsWays).visits_append
        (.into hp (hc.made [] List.prefix_rfl) (.here passable_detailsFileName ?_))
      exact (details_place top (name key)).symm
    rw [load_of_looksAt hf hlooks hc.nothing,
      load_of_looksAt hf hlooks' (hc.stands?_beyond (by simp))]
  · have haway : AwayFrom (top ++ [name key]) files parent top key' :=
      hu.awayFrom hl fun node _ hs => by
        rw [hc.nothing] at hs
        cases hs
    have hnot := haway.not_looksAt (by simpa using hname) fun heq => by
      simpa using congrArg List.length heq
    refine load_eq_of_looksAt fun q hq => hc.kept q fun ms hms heq => hnot ?_
    obtain rfl := List.prefix_nil.mp hms
    exact heq ▸ hq

/-- A parent directory that is made straight down does not matter to what is read. -/
theorem load_of_chained_parent {before rest : List String} {links : Nat}
    (hnames : parent.names = before ++ n :: rest)
    (hl : Leads files (fun _ => True) mostLinks [] before links front)
    (hp : ∀ m ∈ n :: rest ++ [name key'], Passable m) (hchain : chain.length ≤ rest.length + 1)
    (hc : Chained front n chain files made) :
    made.load (detailsPath parent key') = files.load (detailsPath parent key') := by
  by_cases hf : (detailsPath parent key').fault? = none
  case neg => exact load_eq_of_fault hf
  have hpath : (detailsPath parent key').names =
      before ++ n :: (rest ++ [name key', detailsFileName]) := by
    rw [names_detailsPath, hnames, List.append_assoc, List.cons_append]
  have hlooks : LooksAt files (detailsPath parent key') (front ++ [n]) := by
    rw [LooksAt, hpath]
    exact hl.visits_append (.here (hp n (by simp)) rfl)
  rw [load_of_looksAt hf hlooks hc.nothing]
  refine load_of_nowhere ?_
  rw [resolve_of_no_fault hf, hpath,
    (hl.of_keepsWays hc.grown.keepsWays).walk_append (.inl (List.cons_ne_nil _ _))]
  refine nowhere_of_fresh (List.cons_ne_nil _ _) ?_ (fun ms hms hne => ?_)
    (hc.stands?_beyond fun hprefix => ?_)
  · have hlast : n :: (rest ++ [name key', detailsFileName]) =
        (n :: rest ++ [name key']) ++ [detailsFileName] := by simp
    rw [hlast]
    exact List.forall_mem_append.mpr ⟨hp, List.forall_mem_singleton.mpr passable_detailsFileName⟩
  · obtain ⟨m, ms, rfl⟩ := List.exists_cons_of_ne_nil hne
    obtain ⟨rfl, -⟩ := List.cons_prefix_cons.mp hms
    exact hc.stands?_cases ms
  · have hlength := hprefix.length_le
    simp at hlength
    omega

/-- Making a work directory does not matter to what is read, or the work directory alone was
made. -/
theorem made_cases (hs : Straight files parent key') :
    (files.makeDirectories disk (path parent key)).1.load (detailsPath parent key') =
        files.load (detailsPath parent key') ∨
      ∃ top, LeadsTo files parent top ∧ Passable (name key) ∧
        Chained top (name key) [] files (files.makeDirectories disk (path parent key)).1 ∧
        (files.makeDirectories disk (path parent key)).2 = none := by
  obtain ⟨base, tail, hparent, ⟨links, place, hbase⟩, hpass⟩ := hs
  have hpath : (path parent key).names = base ++ (tail ++ [name key]) := by
    rw [names_path, hparent, List.append_assoc]
  have hup : ".." ∉ tail ++ [name key] := by
    rw [List.mem_append, List.mem_singleton, not_or]
    refine ⟨fun hmem => ?_, (name_ne_up key).symm⟩
    exact (hpass (List.ne_nil_of_mem hmem) ".." (List.mem_append_left _ hmem)).1 rfl
  rcases makesChain_ensureDirectories (path parent key).names.length hbase hpath hup with
    heq | ⟨before, n, chain, after, front, hm⟩
  · exact .inl (by rw [makeDirectories, heq])
  have hnames : parent.names ++ [name key] = before ++ n :: (chain ++ after) := hm.names_eq
  obtain hend | ⟨rest, last, hend⟩ := List.eq_nil_or_concat' (chain ++ after)
  · -- The parent is there, and the chain is the work directory.
    obtain ⟨rfl, hafter⟩ := List.append_eq_nil_iff.mp hend
    rw [hend] at hnames
    obtain ⟨rfl, hn⟩ := List.append_inj' hnames rfl
    obtain rfl := List.singleton_inj.mp hn
    exact .inr ⟨front, hm.leads, hm.passable _ List.mem_cons_self, hm.chained,
      hm.complete.mpr hafter⟩
  · -- The chain begins on the way to the parent.
    rw [hend, ← List.cons_append, ← List.append_assoc] at hnames
    obtain ⟨hway, -⟩ := List.append_inj' hnames rfl
    obtain ⟨links', hl⟩ := hm.leads
    obtain ⟨between, rfl⟩ := hm.base_prefix
    obtain rfl : tail = between ++ n :: rest := by
      rw [hparent, List.append_assoc] at hway
      exact List.append_cancel_left hway
    have hlength := congrArg List.length hend
    refine .inl (load_of_chained_parent hway hl (fun m hmem => hpass (by simp) m ?_) ?_ hm.chained)
    · rw [List.append_assoc]
      exact List.mem_append_right _ hmem
    · simp at hlength
      omega

/-- **Making a work directory** does not matter to what is read in the parent directory, if
that is there or is made straight down. -/
theorem load_of_made (hs : Straight files parent key') (hu : Unlinked files parent key') :
    (files.makeDirectories disk (path parent key)).1.load (detailsPath parent key') =
      files.load (detailsPath parent key') := by
  rcases made_cases hs with heq | ⟨top, hl, hp, hc, -⟩
  · exact heq
  · exact load_of_chained_work hl hu hp hc

/-- In a work directory that was just made the file for the details can be opened, if the disk
does not refuse. -/
theorem exists_opened_of_chained (hf : (detailsPath parent key).fault? = none)
    (hl : LeadsTo files parent top) (hp : Passable (name key))
    (hc : Chained top (name key) [] files made) (ho : ∀ place, disk.opening place = none) :
    ∃ place, made.openFile disk (detailsPath parent key) = .ok place := by
  obtain ⟨links, hleads⟩ := hl
  have hd : made.stands? (top ++ [name key]) = some (.directory []) := hc.made [] List.prefix_rfl
  have hs : made.stands? ((top ++ [name key]) ++ [detailsFileName]) = none := by
    rw [← details_place]
    exact hc.stands?_beyond (by simp)
  refine ⟨(top ++ [name key]) ++ [detailsFileName], ?_⟩
  rw [openFile, resolve_of_no_fault hf, names_detailsPath,
    (hleads.of_keepsWays hc.grown.keepsWays).walk_append (.inl (List.cons_ne_nil _ _)),
    walk_directory hp hd, walk_absent_end passable_detailsFileName hs]
  simp only [ho]

/-! ## Writing details -/

/-- The file for details is opened in the work directory, if no link stands in the way. -/
theorem place_of_openFile (hu : Unlinked made parent key)
    (h : made.openFile disk (detailsPath parent key) = .ok place) :
    ∃ top, LeadsTo made parent top ∧ made.IsDirectory (top ++ [name key]) ∧
      (∀ node, (∀ old, node ≠ .file old) →
        made.stands? (top ++ [name key, detailsFileName]) ≠ some node) ∧
      place = top ++ [name key, detailsFileName] := by
  have hfound := found_of_openFile h
  obtain ⟨found, hr⟩ := exists_resolve_of_openFile h
  rw [hr] at hfound
  rw [resolve_of_no_fault (no_fault_of_openFile h), names_detailsPath] at hr
  obtain ⟨links, top, hleads⟩ := exists_leads_of_walk (List.cons_ne_nil _ _) hr
  rw [hleads.walk_append (.inl (List.cons_ne_nil _ _))] at hr
  have hnolink (target : String) := hu links top hleads.aims target
  have hp := passable_of_walk (name_ne_up key) hr
  rcases directory_or_link_of_walk (name_ne_up key) (List.cons_ne_nil _ _) hr with
    hd | ⟨target, hl⟩
  case inr => exact absurd hl (hnolink target).1
  rw [walk_directory hp hd] at hr
  refine ⟨top, ⟨links, hleads⟩, isDirectory_concat_iff.mpr hd, ?_⟩
  rw [details_place] at hnolink ⊢
  rcases made.stands?_cases ((top ++ [name key]) ++ [detailsFileName]) with
    hs | ⟨old, hs⟩ | ⟨target, hs⟩ | hs
  · rw [walk_absent_end passable_detailsFileName hs] at hr
    cases hr
    obtain hfound | ⟨_, hfound⟩ := hfound <;> cases hfound
    refine ⟨fun node _ hnode => ?_, rfl⟩
    rw [hs] at hnode
    cases hnode
  · rw [walk_file_end passable_detailsFileName hs] at hr
    cases hr
    obtain hfound | ⟨_, hfound⟩ := hfound <;> cases hfound
    exact ⟨fun node hnode hfile => hnode old (Option.some.inj (hfile.symm.trans hs)), rfl⟩
  · exact absurd hs (hnolink target).2
  · obtain ⟨es, hdirend⟩ := walk_directory_end passable_detailsFileName hs
    rw [hdirend] at hr
    cases hr
    obtain hfound | ⟨_, hfound⟩ := hfound <;> cases hfound

/-- What is written for one job does not matter to another. -/
theorem load_of_written (hu : Unlinked made parent key) (hu' : Unlinked made parent key')
    (hname : name key' ≠ name key)
    (h : made.openFile disk (detailsPath parent key) = .ok place) (content : ByteArray) :
    (made.putAt (.file content) place).load (detailsPath parent key') =
      made.load (detailsPath parent key') := by
  obtain ⟨top, hl, hd, hplace, rfl⟩ := place_of_openFile hu h
  have hnot : ¬ LooksAt made (detailsPath parent key') (top ++ [name key, detailsFileName]) := by
    refine (hu'.awayFrom hl hplace).not_looksAt (fun heq => ?_) (by simpa using hname)
    simpa using congrArg List.length heq
  refine load_eq_of_looksAt fun q hq => ?_
  have hbelow : ¬ top ++ [name key, detailsFileName] <+: q := fun hbelow =>
    hnot (hq.of_below hbelow (by simp))
  have hne : q ≠ top ++ [name key, detailsFileName] := fun heq => hbelow (heq ▸ List.prefix_rfl)
  rw [stands?_put_details hd, if_neg hne, if_neg hbelow]

/-! ## What is not on record -/

theorem notOnRecord_iff :
    NotOnRecord parent files key ↔ unrecorded parent files key = true := by
  rw [NotOnRecord, DetailsStore.readDetails, unrecorded]
  cases files.load (detailsPath parent key) with
  | ok content =>
      refine iff_of_false ?_ Bool.false_ne_true
      rintro ⟨cause, hcause⟩
      cases isFailure_of_ofBytes hcause
  | error e => by_cases he : e.fault = .notFound <;> simp [he, FileError.problem]

/-- What was read as a file was on record in some way, if only as something else. -/
theorem not_notOnRecord_of_load {content : ByteArray}
    (h : files.load (detailsPath parent key) = .ok content) : ¬ NotOnRecord parent files key := by
  rw [notOnRecord_iff, unrecorded, h]
  exact Bool.false_ne_true

/-! ## Puts -/

/-- A put that is stopped before anything is written: the work directory cannot be made, or the
file for the details cannot be opened in it. All that can be made stays made. -/
def Stopped (disk : Disk) (parent : Path) (key : String) (files made : Files) : Prop :=
  (∃ e, files.makeDirectories disk (path parent key) = (made, some e)) ∨
    files.makeDirectories disk (path parent key) = (made, none) ∧
      ∃ e, made.openFile disk (detailsPath parent key) = .error e

/-- A put that comes to writing: the work directory is there, and the file for the details is
opened at a place. -/
structure Opened (disk : Disk) (parent : Path) (key : String) (files made : Files)
    (place : List String) : Prop where
  made_eq : files.makeDirectories disk (path parent key) = (made, none)
  opened : made.openFile disk (detailsPath parent key) = .ok place

/-- A put that comes to writing, and whose writing the disk breaks off. -/
def BrokenOff (disk : Disk) (parent : Path) (key : String) (files : Files) : Prop :=
  ∃ made place length e, Opened disk parent key files made place ∧
    disk.writing place = some (length, e)

/-- A put is stopped and fails, or it comes to writing. Then the details are written, or it fails
after some of them were. -/
theorem put_cases (disk : Disk) (parent : Path) (channel : Channel) (key : String)
    (d : JobDetails) (files : Files) :
    let o := (DetailsStore.onDisk disk parent channel).put key d files
    let text := d.toIndentedText.toUTF8
    (∃ p, o.result = .error p) ∧ Stopped disk parent key files o.state ∨
      ∃ made place, Opened disk parent key files made place ∧
        (o.result = .ok () ∧ disk.writing place = none ∧
            o.state = made.putAt (.file text) place ∨
          ∃ length e, (∃ p, o.result = .error p) ∧ disk.writing place = some (length, e) ∧
            o.state = made.putAt (.file (text.extract 0 length)) place) := by
  intro o text
  obtain ⟨events, ho⟩ := DetailsStore.put_onDisk disk parent channel key d files
  have hresult : o.result = (DetailsStore.writeDetailsOn disk parent files key d).1 :=
    congrArg Outcome.result ho
  have hstate : o.state = (DetailsStore.writeDetailsOn disk parent files key d).2 :=
    congrArg Outcome.state ho
  rw [hresult, hstate, DetailsStore.writeDetailsOn]
  cases hmade : files.makeDirectories disk (path parent key) with
  | mk made e? =>
  cases e? with
  | some e => exact .inl ⟨⟨_, rfl⟩, .inl ⟨e, hmade⟩⟩
  | none =>
      obtain ⟨e, hopen, hsave⟩ | ⟨place, hopen, hwritten⟩ :=
        save_cases made disk (detailsPath parent key) text
      · simp only [text, hsave]
        exact .inl ⟨⟨_, rfl⟩, .inr ⟨hmade, e, hopen⟩⟩
      · refine .inr ⟨made, place, ⟨hmade, hopen⟩, ?_⟩
        obtain ⟨hw, hsave⟩ | ⟨length, e, hw, hsave⟩ := hwritten
        · simp only [text, hsave]
          exact .inl ⟨trivial, hw, trivial⟩
        · simp only [text, hsave]
          exact .inr ⟨length, e, ⟨_, rfl⟩, hw, rfl⟩

theorem Stopped.state_eq (h : Stopped disk parent key files made) :
    (files.makeDirectories disk (path parent key)).1 = made := by
  rcases h with ⟨e, hmade⟩ | ⟨hmade, -⟩ <;> rw [hmade]

/-- A put that is stopped did not come to writing. -/
theorem Stopped.not_opened (h : Stopped disk parent key files made) {made' : Files} :
    ¬ Opened disk parent key files made' place := by
  rintro ⟨hmade', hopen⟩
  rcases h with ⟨e, hmade⟩ | ⟨hmade, e, herror⟩
  · cases hmade.symm.trans hmade'
  · cases hmade.symm.trans hmade'
    cases herror.symm.trans hopen

theorem Stopped.not_brokenOff (h : Stopped disk parent key files made) :
    ¬ BrokenOff disk parent key files := by
  rintro ⟨_, _, _, _, hopened, -⟩
  exact h.not_opened hopened

/-- A put comes to writing in one place only. -/
theorem Opened.not_brokenOff (h : Opened disk parent key files made place)
    (hw : disk.writing place = none) : ¬ BrokenOff disk parent key files := by
  rintro ⟨made', place', _, _, h', hw'⟩
  obtain ⟨rfl, -⟩ := Prod.mk.inj (h.made_eq.symm.trans h'.made_eq)
  obtain rfl := Except.ok.inj (h.opened.symm.trans h'.opened)
  cases hw.symm.trans hw'

/-- A put is not stopped once the work directory alone was made, unless the disk refuses or no
file could have the path of the details. -/
theorem Stopped.load_eq (h : Stopped disk parent key files made) (hs : Straight files parent key')
    (hf : (detailsPath parent key).fault? = none) (ho : ∀ place, disk.opening place = none) :
    made.load (detailsPath parent key') = files.load (detailsPath parent key') := by
  obtain heq | ⟨top, hl, hp, hc, hnone⟩ := @made_cases parent key key' files disk hs
  · rw [← heq, h.state_eq]
  · obtain ⟨place, hopen⟩ := exists_opened_of_chained hf hl hp hc ho
    exact absurd ⟨Prod.ext rfl hnone, hopen⟩ h.not_opened

/-- What a put that is stopped leaves does not matter to what was found before, nor to what was
not, if new directories make no difference to it. -/
theorem Stopped.readDetails_eq (h : Stopped disk parent key files made)
    (hcase : ¬ NotOnRecord parent files key' ∨ Straight files parent key' ∧
      (Unlinked files parent key' ∨
        (detailsPath parent key).fault? = none ∧ ∀ place, disk.opening place = none)) :
    DetailsStore.readDetails parent made key' = DetailsStore.readDetails parent files key' := by
  refine readDetails_congr ?_
  rcases hcase with hfound | ⟨hs, hu | ⟨hf, ho⟩⟩
  · rw [← h.state_eq]
    exact (grown_makeDirectories files disk (path parent key)).load_eq fun hload =>
      hfound (notOnRecord_of_load hload)
  · rw [← h.state_eq]
    exact load_of_made hs hu
  · exact h.load_eq hs hf ho

/-- Whatever is written into the file that was opened does not matter to the jobs with other work
directories. -/
theorem Opened.readDetails_eq (h : Opened disk parent key files made place)
    (hname : name key' ≠ name key) (hs : Straight files parent key')
    (hu' : Unlinked files parent key') (hu : Unlinked files parent key) (content : ByteArray) :
    DetailsStore.readDetails parent (made.putAt (.file content) place) key' =
      DetailsStore.readDetails parent files key' := by
  have hg := grown_makeDirectories files disk (path parent key)
  have hload : (files.makeDirectories disk (path parent key)).1.load (detailsPath parent key') =
      files.load (detailsPath parent key') := load_of_made hs hu'
  rw [h.made_eq] at hg hload
  refine readDetails_congr ?_
  rw [load_of_written (hu.grown hg) (hu'.grown hg) hname h.opened, hload]

/-- Whatever is written into the file that was opened is found by the jobs with the same work
directory. -/
theorem Opened.load_eq (h : Opened disk parent key files made place) (hname : name key' = name key)
    (content : ByteArray) :
    (made.putAt (.file content) place).load (detailsPath parent key') = .ok content := by
  have hpath : detailsPath parent key' = detailsPath parent key := by
    rw [detailsPath, detailsPath, path, path, hname]
  rw [hpath]
  exact load_of_openFile h.opened content

/-- Of a beginning of a text no record is made, unless it is all of the text. -/
theorem settled_of_beginning {d d' : JobDetails} {length : Nat}
    (hload : files.load (detailsPath parent key) = .ok (d.toIndentedText.toUTF8.extract 0 length))
    (hread : DetailsStore.readDetails parent files key = .ok d') :
    d' = d.settled ∧ files.load (detailsPath parent key) = .ok d.toIndentedText.toUTF8 := by
  rw [DetailsStore.readDetails, hload] at hread
  have hall := DetailsStore.eq_of_ofBytes_beginning hread
  rw [hall] at hload hread
  exact ⟨Except.ok.inj (hread.symm.trans (DetailsStore.ofBytes_toIndentedText d)), hload⟩

/-- **A failed put loses nothing,** unless the disk breaks off its writing. What is on record
before a put that fails is on record afterwards, and a get that is stopped by the files is stopped
in the same way. What is not on record does not come to light either, where the parent directory
is there or would be made straight down; links where the job has its details matter only if a work
directory can be made whose details file cannot be opened, as its path is too long or the disk
refuses.

If the writing is broken off, a beginning of the text is what is left on record for the jobs with
this work directory: the record that was there is lost, and no other takes its place, unless all
of the new one was written. A put that does not fail, or is only broken off, makes no difference
to the jobs with other work directories, if no links stand where the two jobs have theirs. -/
theorem failed_put_loses_nothing (disk : Disk) (parent : Path) (channel : Channel) (key : String)
    (d : JobDetails) (files : Files) :
    let store := DetailsStore.onDisk disk parent channel
    let o := store.put key d files
    let text := d.toIndentedText.toUTF8
    ((∃ p, o.result = .error p) → BrokenOff disk parent key files ∨ ∀ key',
      ¬ NotOnRecord parent files key' ∨ Straight files parent key' ∧
          (Unlinked files parent key' ∨
            (detailsPath parent key).fault? = none ∧ ∀ place, disk.opening place = none) →
        (store.get key' o.state).result = (store.get key' files).result) ∧
    (BrokenOff disk parent key files → (∃ p, o.result = .error p) ∧
      ∀ key', name key' = name key → ¬ NotOnRecord parent o.state key' ∧
        (∃ length, o.state.load (detailsPath parent key') = .ok (text.extract 0 length)) ∧
        ∀ d', (store.get key' o.state).result = .ok d' →
          d' = d.settled ∧ o.state.load (detailsPath parent key') = .ok text) ∧
    (o.result = .ok () ∨ BrokenOff disk parent key files → ∀ key', name key' ≠ name key →
      Straight files parent key' → Unlinked files parent key' → Unlinked files parent key →
        (store.get key' o.state).result = (store.get key' files).result) := by
  intro store o text
  obtain ⟨⟨p, hfailed⟩, hstopped⟩ | ⟨made, place, hopened, hwritten⟩ :=
    put_cases disk parent channel key d files
  · -- Nothing was written.
    have hnot : ¬ BrokenOff disk parent key files := hstopped.not_brokenOff
    refine ⟨fun _ => .inr fun key' hcase => hstopped.readDetails_eq hcase,
      fun hbroken => absurd hbroken hnot, fun hdone => ?_⟩
    rcases hdone with hok | hbroken
    · cases hfailed.symm.trans hok
    · exact absurd hbroken hnot
  obtain ⟨hdone, hw, hstate⟩ | ⟨length, e, ⟨p, hfailed⟩, hw, hstate⟩ := hwritten
  · -- All of the text was written.
    refine ⟨fun ⟨p, hp⟩ => ?_, fun hbroken => absurd hbroken (hopened.not_brokenOff hw),
      fun _ key' hname hs hu' hu => ?_⟩
    · cases hdone.symm.trans hp
    · have hread := hopened.readDetails_eq hname hs hu' hu text
      rwa [← hstate] at hread
  · -- The disk broke off the writing.
    refine ⟨fun _ => .inl ⟨made, place, length, e, hopened, hw⟩,
      fun _ => ⟨⟨p, hfailed⟩, fun key' hname => ?_⟩, fun _ key' hname hs hu' hu => ?_⟩
    · have hload := hopened.load_eq hname (text.extract 0 length)
      rw [← hstate] at hload
      exact ⟨not_notOnRecord_of_load hload, ⟨length, hload⟩,
        fun d' hget => settled_of_beginning hload hget⟩
    · have hread := hopened.readDetails_eq hname hs hu' hu (text.extract 0 length)
      rwa [← hstate] at hread

/-- Puts below a missing parent, below one in which something stands at the place of the work
directory, and on a disk that is full. -/
theorem failed_put_loses_nothing_sample :
    let parent : Path := ⟨0, ["w"]⟩
    let d : JobDetails := ⟨⟨"a", by decide⟩, none, .direct, [], []⟩
    let blocked : Files := [("w", .directory [("bq-hive-a", .file .empty)])]
    let noSpace : SystemError := ⟨28, "No space left on device", by decide⟩
    let full : Disk := { writing := fun _ => some (0, noSpace) }
    let store := DetailsStore.onDisk .sound parent .own
    let o := store.put "a" d blocked
    let o' := store.put "a" d []
    let store' := DetailsStore.onDisk full parent .own
    let o'' := store'.put "a" d []
    ((∃ p, o.result = .error p) ∧ ¬ NotOnRecord parent blocked "a" ∧
      (store.get "a" o.state).result = (store.get "a" blocked).result ∧
      Straight blocked parent "b" ∧ (detailsPath parent "a").fault? = none ∧
      (store.get "b" o.state).result = (store.get "b" blocked).result) ∧
    (o'.result = .ok () ∧ name "b" ≠ name "a" ∧ Straight [] parent "b" ∧
      Unlinked [] parent "b" ∧ Unlinked [] parent "a" ∧
      (store.get "b" o'.state).result = (store.get "b" []).result) ∧
    BrokenOff full parent "a" [] ∧ (∃ p, o''.result = .error p) ∧
      ¬ NotOnRecord parent o''.state "a" ∧
      (store'.get "b" o''.state).result = (store'.get "b" []).result := by
  intro parent d blocked noSpace full store o o' store' o''
  have hpass : ∀ n ∈ ["w", name "b"], Passable n :=
    List.forall_mem_cons.mpr ⟨⟨by decide, by decide⟩,
      List.forall_mem_singleton.mpr ⟨by decide, by decide⟩⟩
  have hstraight (files : Files) : Straight files parent "b" :=
    ⟨[], ["w"], rfl, ⟨_, _, .done _ _⟩, fun _ => hpass⟩
  have hunlinked (key : String) : Unlinked [] parent key := by
    intro links top _ target
    simp [stands?_empty]
  have hfailed : ∃ p, o.result = .error p := ⟨_, rfl⟩
  have hdone : o'.result = .ok () := rfl
  have hfound : ¬ NotOnRecord parent blocked "a" := by
    rw [notOnRecord_iff]
    decide
  have hfault : (detailsPath parent "a").fault? = none := rfl
  have hname : name "b" ≠ name "a" := by decide
  have hbroken : BrokenOff full parent "a" [] :=
    ⟨[("w", .directory [("bq-hive-a", .directory [])])], _, _, noSpace, ⟨rfl, rfl⟩, rfl⟩
  refine ⟨?_, ?_, hbroken, ?_⟩
  · obtain ⟨hkept, -, -⟩ := failed_put_loses_nothing .sound parent .own "a" d blocked
    obtain ⟨_, _, _, _, -, hw⟩ | hkept := hkept hfailed
    · cases hw
    · exact ⟨hfailed, hfound, hkept "a" (.inl hfound), hstraight _, hfault,
        hkept "b" (.inr ⟨hstraight _, .inr ⟨hfault, fun _ => rfl⟩⟩)⟩
  · obtain ⟨-, -, hothers⟩ := failed_put_loses_nothing .sound parent .own "a" d []
    exact ⟨hdone, hname, hstraight _, hunlinked "b", hunlinked "a",
      hothers (.inl hdone) "b" hname (hstraight _) (hunlinked "b") (hunlinked "a")⟩
  · obtain ⟨-, hown, hothers⟩ := failed_put_loses_nothing full parent .own "a" d []
    obtain ⟨hraised, hown⟩ := hown hbroken
    exact ⟨hraised, (hown "a" rfl).1,
      hothers (.inr hbroken) "b" hname (hstraight _) (hunlinked "b") (hunlinked "a")⟩

theorem get_ne_of_readDetails {channel : Channel}
    (h : DetailsStore.readDetails parent made key ≠ DetailsStore.readDetails parent files key) :
    ((DetailsStore.onDisk disk parent channel).get key made).result ≠
      ((DetailsStore.onDisk disk parent channel).get key files).result := h

theorem get_ne_of_unrecorded {channel : Channel}
    (h : unrecorded parent made key ≠ unrecorded parent files key) :
    ((DetailsStore.onDisk disk parent channel).get key made).result ≠
      ((DetailsStore.onDisk disk parent channel).get key files).result := by
  refine get_ne_of_readDetails fun hread => h (Bool.eq_iff_iff.mpr ?_)
  rw [← notOnRecord_iff, ← notOnRecord_iff, NotOnRecord, NotOnRecord, hread]

/-- A put with a name that is too long makes the missing parent directory and fails. -/
theorem put_of_length {channel : Channel} {d : JobDetails} (hlong : 247 < key.length)
    (h : key.length ≤ 1000) :
    let o := (DetailsStore.onDisk .sound ⟨0, ["w"]⟩ channel).put key d []
    o.result.isOk = false ∧ o.state = [("w", .directory [])] := by
  intro o
  have hf : (path ⟨0, ["w"]⟩ key).fault? = none :=
    Path.no_fault_of_child (no_fault_of_length h)
  have hnow : Nowhere (Files.resolve [] false ⟨0, ["w"]⟩) := .inl ⟨_, rfl⟩
  have hname : longestName < (name key).utf8ByteSize := by
    rw [utf8ByteSize_name, longestName]
    omega
  have hw : Passable "w" := by constructor <;> decide
  have hr (followsLast : Bool) : Files.resolve [("w", .directory [])] followsLast
      (path ⟨0, ["w"]⟩ key) = .error .nameTooLong := by
    have hnames : (path ⟨0, ["w"]⟩ key).names = ["w", name key] := rfl
    rw [resolve_of_no_fault hf, hnames, walk_directory hw rfl,
      walk_nameTooLong (name_ne_up key) hname]
  have hmade : Files.makeDirectories [] .sound (path ⟨0, ["w"]⟩ key) =
      ([("w", .directory [])], some ⟨.nameTooLong, path ⟨0, ["w"]⟩ key⟩) := by
    have hparent : Files.makeDirectories [] .sound ⟨0, ["w"]⟩ =
        ([("w", .directory [])], none) := rfl
    rw [path, makeDirectories_child hnow hparent hf, ← path]
    refine ensureDirectories_of_error 0 (by decide) ?_
    simp only [ensureDirectory, makeDirectory, isDirectory?, hr]
  obtain ⟨⟨p, hp⟩, ⟨e, hstate⟩ | ⟨hstate, -⟩⟩ | ⟨_, _, ⟨hstate, -⟩, -⟩ :=
    put_cases .sound ⟨0, ["w"]⟩ channel key d []
  · rw [hmade] at hstate
    refine ⟨?_, (congrArg Prod.fst hstate).symm⟩
    rw [hp]
    rfl
  · rw [hmade] at hstate
    cases congrArg Prod.snd hstate
  · rw [hmade] at hstate
    cases congrArg Prod.snd hstate

theorem readDetails_of_content {content : ByteArray}
    (h : files.load (detailsPath parent key) = .ok content) :
    DetailsStore.readDetails parent files key = DetailsStore.ofBytes content := by
  rw [DetailsStore.readDetails, h]

/-- A put on a full disk destroys the record that it was to replace. -/
theorem put_on_full_disk {channel : Channel} (d d' : JobDetails) (e : SystemError) :
    let store := DetailsStore.onDisk { writing := fun _ => some (0, e) } ⟨0, []⟩ channel
    let files : Files := [("bq-hive-b",
      .directory [(detailsFileName, .file d.toIndentedText.toUTF8)])]
    let o := store.put "b" d' files
    o.result.isOk = false ∧ (store.get "b" o.state).result ≠ (store.get "b" files).result := by
  intro store files o
  have hbefore : files.load (detailsPath ⟨0, []⟩ "b") = .ok d.toIndentedText.toUTF8 := rfl
  have hafter : o.state.load (detailsPath ⟨0, []⟩ "b") =
      .ok (d'.toIndentedText.toUTF8.extract 0 0) := rfl
  rw [ByteArray.extract_same] at hafter
  refine ⟨rfl, get_ne_of_readDetails fun hread => ?_⟩
  rw [readDetails_of_content hbefore, readDetails_of_content hafter,
    DetailsStore.ofBytes_toIndentedText] at hread
  have hempty : (DetailsStore.ofBytes .empty).isOk = false := rfl
  rw [hread] at hempty
  cases hempty

/-- Where the parent is still to be made, a put makes a difference to what is not on record: a
name that is too long comes to light, or a record that is there when the path turns back. What
is put through a link is put for another job. And on a disk that is full a record is lost. -/
theorem failed_put_brings_to_light :
    let long : String := String.ofList (List.replicate 250 'k')
    let d : JobDetails := ⟨⟨"b", by decide⟩, none, .direct, [], []⟩
    let record : Node := .directory [(detailsFileName, .file d.toIndentedText.toUTF8)]
    let noSpace : SystemError := ⟨28, "No space left on device", by decide⟩
    let full : Disk := { writing := fun _ => some (0, noSpace) }
    let changes (disk : Disk) (returns : Bool) (names : List String) (files : Files)
        (key key' : String) : Prop :=
      let store := DetailsStore.onDisk disk ⟨0, names⟩ .shared
      let o := store.put key d files
      o.result.isOk = returns ∧ (store.get key' o.state).result ≠ (store.get key' files).result
    changes .sound false ["w"] [] long long ∧
      changes .sound false ["x", ".."] [("bq-hive-a", .file .empty), ("bq-hive-b", record)]
        "a" "b" ∧
      changes full false [] [("bq-hive-b", record)] "b" "b" ∧
      name long ≠ name "a" ∧ changes .sound true ["w"] [] "a" long ∧
      name "b" ≠ name "a" ∧ changes .sound true [] [("bq-hive-b", .link "bq-hive-a")] "a" "b" ∧
      changes .sound true [] [("bq-hive-b", .link "bq-hive-a"), ("bq-hive-a", .directory [])]
        "b" "a" := by
  intro long d record noSpace full changes
  have hlength : long.length = 250 := by
    rw [String.length_ofList, List.length_replicate]
  have hname : name long ≠ name "a" := by
    intro heq
    have hsize := congrArg String.utf8ByteSize heq
    rw [utf8ByteSize_name, utf8ByteSize_name, hlength] at hsize
    exact absurd hsize (by decide)
  have hlight {files : Files} (hdir : files.stands? ["w"] = some (.directory [])) :
      unrecorded ⟨0, ["w"]⟩ files long ≠ unrecorded ⟨0, ["w"]⟩ [] long := by
    rw [recorded_of_length (by omega) (by omega) hdir, unrecorded_nothing (by omega)]
    exact Bool.false_ne_true
  obtain ⟨hfailed, hstate⟩ := @put_of_length long .shared d (by omega) (by omega)
  have hlost : changes full false [] [("bq-hive-b", record)] "b" "b" :=
    put_on_full_disk d d noSpace
  refine ⟨⟨hfailed, get_ne_of_unrecorded (hlight (by rw [hstate]; rfl))⟩,
    ⟨?_, get_ne_of_unrecorded ?_⟩, hlost, hname, ⟨?_, get_ne_of_unrecorded (hlight rfl)⟩, ?_,
    ⟨?_, get_ne_of_unrecorded ?_⟩, ⟨?_, get_ne_of_unrecorded ?_⟩⟩
  all_goals decide +kernel

end LinkedTables.WorkDir
