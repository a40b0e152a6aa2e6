import LinkedTables.Proofs.Job.Parents

set_option autoImplicit false

/-! # Jobs that run at the same time

Jobs whose work directories have different names do not come in each other's way: in every
run of their steps each job sees what it would have seen alone, and leaves what it would
have left (`seen_as_alone`). It may be that the parent directory is there, or that the first
put of any job makes it, or that it cannot be made at all (`Ground`). What the jobs share is
the parent directory, and this is where conditions are needed: the parent's paths do not lead
through the work directories, and a parent that is made by another job's put must not show
in what is then found below it.
-/

namespace LinkedTables

open Files

namespace WorkDir

/-- What the parent directory of work directories may be like before a run. -/
inductive Ground (parents : Path → Prop) (names : String → Prop) (files : Files) : Prop
  | there {top : List String} (h : Settled parents top names files)
  | makeable {top : List String} {made : Files} (h : Makeable parents top names files made)
  | unmakeable
    (h : ∀ parent, parents parent → ∃ e, files.makeDirectories .sound parent = (files, some e))

/-- Trees of files that a job cannot tell apart, whatever other jobs do to the first. -/
structure Shields (R : Files → Files → Prop) (parents : Path → Prop) (names : String → Prop)
    (n : String) : Prop where
  serves : ∀ parent, parents parent → Serves R parent n
  others : ∀ (step : JobStep) (key : String), parents step.parent → step.Detached →
    step.job? = some key → names (name key) → n ≠ name key →
      ∀ files files', R files files' → R (step.perform files).state files'

section

variable {parents : Path → Prop} {top : List String} {names : String → Prop}
  {files made : Files} {n : String}

theorem shields_sameFor (hn : names n) :
    Shields (SameFor parents top names n) parents names n where
  serves parent hp := serves_sameFor hp hn
  others step key hp hs hjob hname hne files files' hfiles := by
    have hother (key' : String) (hk : step.job? = some key') :
        names (name key') ∧ n ≠ name key' := by
      obtain rfl := Option.some.inj (hjob.symm.trans hk)
      exact ⟨hname, hne⟩
    obtain ⟨hleft, hsame⟩ := hfiles.left.perform_other hp hs hother
    exact ⟨hleft, hfiles.right, fun rest => (hsame rest).trans (hfiles.same rest)⟩

/-- A relation that all jobs respect may be put before and behind one that shields a job. -/
theorem Shields.comp {R U : Files → Files → Prop} (h : Shields R parents names n)
    (hu : ∀ parent m, parents parent → names m → Serves U parent m) (hn : names n) :
    Shields (Relation.Comp U (Relation.Comp R (flip U))) parents names n where
  serves parent hp :=
    (hu parent n hp hn).comp ((h.serves parent hp).comp (hu parent n hp hn).symm)
  others step key hp hs hjob hname hne files files'' := by
    rintro ⟨between, hbetween, hrest⟩
    obtain ⟨between', hR, hbetween'⟩ := hrest
    have hstep := (hu step.parent (name key) hp hname).perform hjob hs files between hbetween
    exact ⟨_, hstep.state, between', h.others step key hp hs hjob hname hne _ _ hR, hbetween'⟩

theorem Ground.exists_shields (hg : Ground parents names files) (hn : names n) :
    ∃ R, R files files ∧ Shields R parents names n := by
  cases hg with
  | there h => exact ⟨_, h.sameFor n, shields_sameFor hn⟩
  | @makeable top made h =>
      by_cases hne : made = files
      · exact ⟨_, (hne ▸ h.settled).sameFor n, shields_sameFor hn⟩
      · -- Both runs are compared with the runs after the parent was made.
        have hup : UpToParent parents top names files made files made :=
          ⟨h.settled, .inr ⟨rfl, rfl⟩⟩
        exact ⟨_, ⟨made, hup, made, h.settled.sameFor n, hup⟩,
          (shields_sameFor hn).comp (fun _ _ hp hm => h.serves hne hp hm) hn⟩
  | unmakeable h =>
      refine ⟨fun before after => before = files ∧ after = files, ⟨rfl, rfl⟩,
        fun parent hp => ?_, fun step key hp hs hjob _ _ before after hfiles => ?_⟩
      · obtain ⟨e, he⟩ := h parent hp
        exact serves_unmakeable he n
      · obtain ⟨e, he⟩ := h step.parent hp
        have hstep := (serves_unmakeable he (name key)).perform hjob hs before after hfiles
        exact ⟨hstep.state.1, hfiles.2⟩

end

end WorkDir

/-! ## Runs of jobs with work directories of different names -/

open WorkDir

section

variable {parents : Path → Prop} {jobs : String → Prop} {files : Files} {steps : List JobStep}
  {key : String}

/-- **Jobs with different work directories do not come in each other's way.** Let the work
directories of some jobs have different names, and let their steps be done in any order over
the same parent directory, with write methods of any outcome. Then each job sees exactly what
it would have seen if only its own steps had been done: the same events and the same answers;
and the same details are on record for it in the end. -/
theorem seen_as_alone (hapart : ∀ k k', jobs k → jobs k' → name k = name k' → k = k')
    (hg : Ground parents (fun n => ∃ k, jobs k ∧ n = name k) files)
    (hsteps : ∀ step ∈ steps, parents step.parent ∧ step.Detached ∧
      ∃ k, jobs k ∧ step.job? = some k)
    (hkey : jobs key) :
    seenBy key (performed steps files) =
        (performed (stepsOf key steps) files).map DoneStep.seen ∧
      ∀ parent, parents parent →
        (filesAfter steps files).load (detailsPath parent key) =
          (filesAfter (stepsOf key steps) files).load (detailsPath parent key) := by
  obtain ⟨R, hR, hshields⟩ := hg.exists_shields ⟨key, hkey, rfl⟩
  have hown (step : JobStep) (hstep : step ∈ steps) (hjob : step.job? = some key) :
      step.perform.Respects R fun _ => True := by
    obtain ⟨hp, hs, -⟩ := hsteps step hstep
    exact (hshields.serves step.parent hp).perform hjob hs
  have hother (step : JobStep) (hstep : step ∈ steps) (hjob : step.job? ≠ some key)
      (files files' : Files) (hfiles : R files files') : R (step.perform files).state files' := by
    obtain ⟨hp, hs, k, hk, hjob'⟩ := hsteps step hstep
    have hname : name key ≠ name k := fun hname => hjob (by rw [hapart key k hkey hk hname, hjob'])
    exact hshields.others step k hp hs hjob' ⟨k, hk, rfl⟩ hname files files' hfiles
  obtain ⟨hseen, hfiles⟩ := seenBy_performed hown hother hR
  exact ⟨hseen, fun parent hp => (hshields.serves parent hp).loaded key rfl _ _ hfiles⟩

end

/-- In an empty place two jobs are put on record, one is aborted and the other committed, each
by write methods that fail. -/
theorem seen_as_alone_from_nothing :
    let parents : Path → Prop := fun p => p = ⟨0, ["w"]⟩
    let jobs : String → Prop := fun k => k = "db.a" ∨ k = "db.b"
    let failing : Strategies :=
      ⟨fun _ _ _ => Run.fail (.error .runtime "boom"), fun _ _ => Run.fail (.error .runtime "boom")⟩
    let steps : List JobStep := [⟨⟨0, ["w"]⟩, .get "db.b"⟩,
      ⟨⟨0, ["w"]⟩, .put ⟨⟨"db.a", by decide⟩, none, .direct, [], []⟩⟩,
      ⟨⟨0, ["w"]⟩, .put ⟨⟨"db.b", by decide⟩, none, .direct, [], []⟩⟩,
      ⟨⟨0, ["w"]⟩, .abort failing ⟨some "db.a", [], none⟩ none⟩,
      ⟨⟨0, ["w"]⟩, .commit failing ⟨some "db.b", [], none⟩⟩]
    (∀ k k', jobs k → jobs k' → name k = name k' → k = k') ∧
      Ground parents (fun n => ∃ k, jobs k ∧ n = name k) [] ∧
      (∀ step ∈ steps, parents step.parent ∧ step.Detached ∧
        ∃ k, jobs k ∧ step.job? = some k) ∧
      jobs "db.b" ∧
      seenBy "db.b" (performed steps []) =
        (performed (stepsOf "db.b" steps) []).map DoneStep.seen := by
  intro parents jobs failing steps
  have hapart : ∀ k k', jobs k → jobs k' → name k = name k' → k = k' := by
    rintro _ _ (rfl | rfl) (rfl | rfl) hname
    · rfl
    · exact absurd hname (by decide)
    · exact absurd hname (by decide)
    · rfl
  have hmade (q : List String) : stands? [("w", .directory [])] q =
      if q = ["w"] then some (.directory []) else none := by
    have hput := @stands?_putAt [] [] "w" (.directory []) rfl (isDirectory_nil []) q
    rwa [stands?_empty, ite_self] at hput
  have hplain (place : List String) (target : String) :
      stands? [("w", .directory [])] place ≠ some (.link target) := by
    rw [hmade]
    split_ifs <;> simp
  have hthere : ∀ parent, parents parent → ∃ links, Leads [("w", .directory [])]
      (Outside ["w"] fun n => ∃ k, jobs k ∧ n = name k) mostLinks [] parent.names links ["w"] := by
    rintro _ rfl
    refine ⟨_, .into (by decide) ⟨⟨by decide, by decide⟩, by rw [hmade]; rfl, ?_⟩ (.done _ _)⟩
    rintro n - ⟨rest, hrest⟩
    cases hrest
  have hsettled : Settled parents ["w"] (fun n => ∃ k, jobs k ∧ n = name k)
      [("w", .directory [])] := by
    refine ⟨⟨⟨fun parent hp => ?_, fun place target hl => absurd hl (hplain place target)⟩, ?_⟩,
      hthere⟩
    · obtain ⟨links, hleads⟩ := hthere parent hp
      exact ⟨links, hleads.aims⟩
    · rintro n content d - hrecord -
      rw [record?_eq_some_iff, hmade] at hrecord
      split_ifs at hrecord
      cases hrecord
  have hground : Ground parents (fun n => ∃ k, jobs k ∧ n = name k) [] := by
    refine .makeable ⟨?_, hsettled, ?_, ?_⟩
    · rintro _ rfl
      rfl
    · rintro _ ⟨k, rfl | rfl, rfl⟩ <;> decide
    · rintro _ ⟨k, rfl | rfl, rfl⟩ <;> rfl
  have hsteps : ∀ step ∈ steps, parents step.parent ∧ step.Detached ∧
      ∃ k, jobs k ∧ step.job? = some k := by
    have hfailing : failing.Detached :=
      ⟨fun _ _ _ => ⟨_, _, fun _ => rfl⟩, fun _ _ => ⟨_, _, fun _ => rfl⟩⟩
    intro step hstep
    simp only [steps, List.mem_cons, List.not_mem_nil, or_false] at hstep
    rcases hstep with rfl | rfl | rfl | rfl | rfl
    · exact ⟨rfl, trivial, _, .inr rfl, rfl⟩
    · exact ⟨rfl, trivial, _, .inl rfl, rfl⟩
    · exact ⟨rfl, trivial, _, .inr rfl, rfl⟩
    · exact ⟨rfl, hfailing, _, .inl rfl, rfl⟩
    · exact ⟨rfl, hfailing, _, .inr rfl, rfl⟩
  exact ⟨hapart, hground, hsteps, .inr rfl, (seen_as_alone hapart hground hsteps (.inr rfl)).1⟩

/-! ## Where jobs meet -/

/-- A put of details that say nothing but whose they are. -/
def putOf (parent : Path) (key : Name) : JobStep := ⟨parent, .put ⟨key, none, .direct, [], []⟩⟩

theorem no_fault_of_length {key : String} (h : key.length ≤ 1000) :
    (detailsPath ⟨0, ["w"]⟩ key).fault? = none := by
  have hnames : (detailsPath ⟨0, ["w"]⟩ key).names = ["w", name key, detailsFileName] := rfl
  have htext : (detailsPath ⟨0, ["w"]⟩ key).text =
      "" ++ ("w" ++ "/" ++ (name key ++ "/" ++ detailsFileName)) := by
    rw [Path.text, if_neg (by simp [hnames]), hnames, String.intercalate_cons_cons,
      String.intercalate_cons_cons, String.intercalate_singleton]
    rfl
  have hsize : ¬ longestPath < (detailsPath ⟨0, ["w"]⟩ key).text.utf8ByteSize := by
    have hw : "w".utf8ByteSize = 1 := by decide
    have hslash : "/".utf8ByteSize = 1 := by decide
    have hempty : "".utf8ByteSize = 0 := by decide
    have hfile : detailsFileName.utf8ByteSize = 16 := by decide
    rw [htext, longestPath]
    simp only [String.utf8ByteSize_append, utf8ByteSize_name, hfile, hw, hslash, hempty]
    omega
  have hclean : (name key).toList.contains '\x00' = false := by
    simpa using nul_not_mem_name key
  rw [Path.fault?, if_neg, if_neg hsize]
  rw [hnames]
  simp only [List.any_cons, hclean]
  decide

theorem unrecorded_nothing {key : String} (h : key.length ≤ 1000) :
    unrecorded ⟨0, ["w"]⟩ [] key = true := by
  have hr : Files.resolve [] true (detailsPath ⟨0, ["w"]⟩ key) =
      Files.walk [] true (Files.resolveFrom [] true mostLinks) []
        ["w", name key, detailsFileName] :=
    resolve_of_no_fault (no_fault_of_length h)
  have hw : Passable "w" := by constructor <;> decide
  rw [unrecorded, load, hr, walk_absent_beyond hw (stands?_empty _) (List.cons_ne_nil _ _)]
  rfl

/-- In a parent directory that is there it comes to light that a job's name is too long. -/
theorem recorded_of_length {key : String} {files : Files} (hlong : 247 < key.length)
    (h : key.length ≤ 1000) (hdir : files.stands? ["w"] = some (.directory [])) :
    unrecorded ⟨0, ["w"]⟩ files key = false := by
  have hr : files.resolve true (detailsPath ⟨0, ["w"]⟩ key) =
      files.walk true (files.resolveFrom true mostLinks) [] ["w", name key, detailsFileName] :=
    resolve_of_no_fault (no_fault_of_length h)
  have hw : Passable "w" := by constructor <;> decide
  have hname : longestName < (name key).utf8ByteSize := by
    rw [utf8ByteSize_name, longestName]
    omega
  rw [unrecorded, load, hr, walk_directory hw hdir, walk_nameTooLong (name_ne_up key) hname]
  rfl

/-- A put that makes the parent directory brings to light that another job's name is too
long. -/
theorem unrecorded_of_length {key : String} (hlong : 247 < key.length)
    (h : key.length ≤ 1000) :
    unrecorded ⟨0, ["w"]⟩ (filesAfter [putOf ⟨0, ["w"]⟩ ⟨"a", by decide⟩] []) key = false ∧
      unrecorded ⟨0, ["w"]⟩ [] key = true :=
  ⟨recorded_of_length hlong h (by rfl), unrecorded_nothing h⟩

/-- A commit may remove a directory that the parent's path leads through. -/
theorem unrecorded_of_commit {strategies : Strategies} (hs : strategies.Detached) :
    unrecorded ⟨0, ["bq-hive-a", ".."]⟩
      (filesAfter [putOf ⟨0, ["bq-hive-a", ".."]⟩ ⟨"b", by decide⟩,
        putOf ⟨0, ["bq-hive-a", ".."]⟩ ⟨"a", by decide⟩,
        ⟨⟨0, ["bq-hive-a", ".."]⟩, .commit strategies ⟨some "a", [], none⟩⟩] []) "b" = true := by
  let d : JobDetails := ⟨⟨"a", by decide⟩, none, .direct, [], []⟩
  let files : Files := (DetailsStore.writeDetails ⟨0, ["bq-hive-a", ".."]⟩ [] "b"
    ⟨⟨"b", by decide⟩, none, .direct, [], []⟩).2
  have hput : (DetailsStore.writeDetails ⟨0, ["bq-hive-a", ".."]⟩ files "a" d).1 = .ok () := rfl
  have hread : DetailsStore.readDetails ⟨0, ["bq-hive-a", ".."]⟩
      (DetailsStore.writeDetails ⟨0, ["bq-hive-a", ".."]⟩ files "a" d).2 "a" = .ok d.settled :=
    readDetails_of_writeDetails hput
  have hkey : (⟨some "a", [], none⟩ : JobContext).outputTable = some d.outputTable.text := rfl
  rw [putOf, putOf, filesAfter_put, filesAfter_put, filesAfter, filesAfter,
    JobStep.state_commit hs hkey hread (.unsaid rfl)]
  decide +kernel

/-- **Jobs may meet at their parent directory.** Where the parent is still to be made, a job
sees by its own means whether another job has made it: if a name in it is too long, if it can
be made in part only, or if something comes to light with it. A parent's path that leads
through a work directory is broken by the end of that job. And what is done through a link is
done to another job. -/
theorem disturbed_by_parent :
    let long : String := String.ofList (List.replicate 250 'x')
    let done : Strategies := ⟨fun _ _ _ => Run.done (), fun _ _ => Run.done ()⟩
    let put (names : List String) (key : Name) : JobStep := putOf ⟨0, names⟩ key
    name "a" ≠ name long ∧ name "a" ≠ name "b" ∧
      Disturbed long ([put ["w"] ⟨"a", by decide⟩] ++ [⟨⟨0, ["w"]⟩, .get long⟩]) [] ∧
      Disturbed "b" ([put ["v", "..", "f", "w"] ⟨"a", by decide⟩] ++
        [⟨⟨0, ["v", "..", "f", "w"]⟩, .get "b"⟩]) [("f", .file .empty)] ∧
      Disturbed "b" ([put ["v", ".."] ⟨"a", by decide⟩] ++ [⟨⟨0, ["v", ".."]⟩, .get "b"⟩])
        [("bq-hive-b", .directory [(detailsFileName, .file .empty)])] ∧
      Disturbed "b" ([put ["bq-hive-a", ".."] ⟨"b", by decide⟩,
        put ["bq-hive-a", ".."] ⟨"a", by decide⟩,
        ⟨⟨0, ["bq-hive-a", ".."]⟩, .commit done ⟨some "a", [], none⟩⟩] ++
          [⟨⟨0, ["bq-hive-a", ".."]⟩, .get "b"⟩]) [] ∧
      Disturbed "b" ([put [] ⟨"a", by decide⟩] ++ [⟨⟨0, []⟩, .get "b"⟩])
        [("bq-hive-b", .link "bq-hive-a")] := by
  intro long done put
  have hdone : done.Detached :=
    ⟨fun _ _ _ => ⟨_, _, fun _ => rfl⟩, fun _ _ => ⟨_, _, fun _ => rfl⟩⟩
  have hlength : long.length = 250 := by
    rw [String.length_ofList, List.length_replicate]
  have hname : name "a" ≠ name long := by
    intro heq
    have hsize := congrArg String.utf8ByteSize heq
    rw [utf8ByteSize_name, utf8ByteSize_name, hlength] at hsize
    exact absurd hsize (by decide)
  have hother : (put ["w"] ⟨"a", by decide⟩).job? ≠ some long :=
    fun heq => hname (congrArg name (Option.some.inj heq))
  have hlong := @unrecorded_of_length long (by omega) (by omega)
  refine ⟨hname, by decide, ?_, ?_, ?_, ?_, ?_⟩
  · refine disturbed_of_unrecorded ?_
    rw [stepsOf_cons_other hother, hlong.1]
    exact fun heq => Bool.false_ne_true (heq.trans hlong.2)
  · exact disturbed_of_unrecorded (by decide +kernel)
  · exact disturbed_of_unrecorded (by decide +kernel)
  · refine disturbed_of_unrecorded ?_
    rw [unrecorded_of_commit hdone]
    decide +kernel
  · exact disturbed_of_unrecorded (by decide +kernel)

end LinkedTables
