import LinkedTables.Proofs.Job.Separate
import LinkedTables.Proofs.Job.Serving

set_option autoImplicit false

/-! # Runs of several jobs

The steps of several jobs are done over the same files, one after the other and in any
order. What a job sees of such a run is what its own steps leave behind (`seenBy`), and what
it would have seen alone is a run of its own steps. Both are the same if the job's steps
cannot tell the files of the one run from those of the other, and if the steps of other jobs
do not change that (`seenBy_performed`).

Where the parent directory is there and the work directories are apart, both is so for trees
of files with the same work directory (`SameFor`).
-/

namespace LinkedTables

open Files WorkDir

/-! ## What a job sees -/

/-- What a step shows to those who asked for it: everything that was logged, traced and
called on the way, and what it came to. -/
def DoneStep.seen (z : DoneStep) : List (Event JobCall) × Except Problem Answer :=
  (z.outcome.events, z.outcome.result)

/-- What a job sees of a run of several jobs. -/
def seenBy (key : String) (zs : List DoneStep) :
    List (List (Event JobCall) × Except Problem Answer) :=
  (zs.filter fun z => z.step.job? = some key).map DoneStep.seen

/-- The steps of one job among those of several. -/
def stepsOf (key : String) (steps : List JobStep) : List JobStep :=
  steps.filter fun step => step.job? = some key

/-- The files after steps that are done one after the other. -/
def filesAfter : List JobStep → Files → Files
  | [], files => files
  | step :: steps, files => filesAfter steps (step.perform files).state

variable {R : Files → Files → Prop} {key : String} {steps : List JobStep} {files files' : Files}

theorem filesAfter_put (parent : Path) (d : JobDetails) (steps : List JobStep) (files : Files) :
    filesAfter (⟨parent, .put d⟩ :: steps) files =
      filesAfter steps (DetailsStore.writeDetails parent files d.outputTable.text d).2 := by
  obtain ⟨events, hperform, -⟩ := JobStep.perform_put parent files d
  rw [filesAfter, hperform]

theorem stepsOf_cons_own {step : JobStep} (h : step.job? = some key) :
    stepsOf key (step :: steps) = step :: stepsOf key steps :=
  List.filter_cons_of_pos (by simpa using h)

theorem stepsOf_cons_other {step : JobStep} (h : step.job? ≠ some key) :
    stepsOf key (step :: steps) = stepsOf key steps :=
  List.filter_cons_of_neg (by simpa using h)

theorem seenBy_cons_own {z : DoneStep} {zs : List DoneStep} (h : z.step.job? = some key) :
    seenBy key (z :: zs) = z.seen :: seenBy key zs := by
  rw [seenBy, List.filter_cons_of_pos (by simpa using h), List.map_cons, seenBy]

theorem seenBy_cons_other {z : DoneStep} {zs : List DoneStep} (h : z.step.job? ≠ some key) :
    seenBy key (z :: zs) = seenBy key zs := by
  rw [seenBy, List.filter_cons_of_neg (by simpa using h), seenBy]

/-- **A job sees what it would have seen alone**, if its own steps cannot tell related files
apart and the steps of other jobs leave files that are related as before. -/
theorem seenBy_performed
    (hown : ∀ step ∈ steps, step.job? = some key → step.perform.Respects R fun _ => True)
    (hother : ∀ step ∈ steps, step.job? ≠ some key → ∀ files files', R files files' →
      R (step.perform files).state files')
    (h : R files files') :
    seenBy key (performed steps files) =
        (performed (stepsOf key steps) files').map DoneStep.seen ∧
      R (filesAfter steps files) (filesAfter (stepsOf key steps) files') := by
  -- The runs are compared step by step; a step of another job has no partner in the second.
  induction steps generalizing files files' with
  | nil => exact ⟨rfl, h⟩
  | cons step steps ih =>
      rw [List.forall_mem_cons] at hown hother
      have hnext {files files' : Files} (h : R files files') := ih hown.2 hother.2 h
      by_cases hjob : step.job? = some key
      · obtain ⟨hevents, hresult, hstate, -⟩ := hown.1 hjob files files' h
        obtain ⟨hseen, hafter⟩ := hnext hstate
        rw [stepsOf_cons_own hjob, performed, seenBy_cons_own hjob]
        refine ⟨?_, hafter⟩
        rw [performed, List.map_cons, hseen, DoneStep.seen, DoneStep.seen, hevents, hresult]
      · obtain ⟨hseen, hafter⟩ := hnext (hother.1 hjob files files' h)
        rw [stepsOf_cons_other hjob, performed, seenBy_cons_other hjob]
        exact ⟨hseen, hafter⟩

/-! ## What a get shows -/

/-- A job sees something else than it would have seen alone. -/
def Disturbed (key : String) (steps : List JobStep) (files : Files) : Prop :=
  seenBy key (performed steps files) ≠ (performed (stepsOf key steps) files).map DoneStep.seen

/-- Nothing is there that could be the details of a job. -/
def unrecorded (parent : Path) (files : Files) (key : String) : Bool :=
  match files.load (detailsPath parent key) with
  | .error e => decide (e.fault = .notFound)
  | .ok _ => false

section

variable {parent : Path} {front : List JobStep}

theorem isFailure_of_ofBytes {content : ByteArray} {p : Problem}
    (h : DetailsStore.ofBytes content = .error p) : p.isFailure = false := by
  rw [DetailsStore.ofBytes] at h
  split at h
  · exact Except.error.inj h ▸ rfl
  · unfold Checked.orRefuse at h
    split at h
    · cases h
    · exact Except.error.inj h ▸ rfl

/-- That nothing is there is the only failure of the record itself. -/
theorem isFailure_readDetails :
    (∃ p, DetailsStore.readDetails parent files key = .error p ∧ p.isFailure = true) ↔
      unrecorded parent files key = true := by
  rw [DetailsStore.readDetails, unrecorded]
  cases files.load (detailsPath parent key) with
  | ok content =>
      constructor
      · rintro ⟨p, hp, hfailure⟩
        rw [isFailure_of_ofBytes hp] at hfailure
        cases hfailure
      · intro h
        cases h
  | error e =>
      by_cases he : e.fault = .notFound <;> simp [he, Problem.isFailure, FileError.problem]

theorem performed_append (steps steps' : List JobStep) (files : Files) :
    performed (steps ++ steps') files =
      performed steps files ++ performed steps' (filesAfter steps files) := by
  induction steps generalizing files with
  | nil => rfl
  | cons step steps ih =>
      rw [List.cons_append, performed, performed, ih, List.cons_append]
      rfl

/-- What comes of a run that ends with a get. -/
theorem performed_concat_get :
    ∃ z : DoneStep, performed (front ++ [⟨parent, .get key⟩]) files = performed front files ++ [z] ∧
      z.step.job? = some key ∧ z.seen = ([.called (.getDetails key)],
        (DetailsStore.readDetails parent (filesAfter front files) key).map .details) := by
  refine ⟨_, performed_append front _ files, rfl, ?_⟩
  rw [DoneStep.seen, JobStep.perform_get]

/-- **A get at the end shows** whether anything is there. -/
theorem disturbed_of_unrecorded
    (h : unrecorded parent (filesAfter front files) key ≠
      unrecorded parent (filesAfter (stepsOf key front) files) key) :
    Disturbed key (front ++ [⟨parent, .get key⟩]) files := by
  intro heq
  have hsteps : stepsOf key (front ++ [⟨parent, .get key⟩]) =
      stepsOf key front ++ [⟨parent, .get key⟩] := by
    rw [stepsOf, List.filter_append, ← stepsOf, ← stepsOf, stepsOf_cons_own rfl]
    rfl
  obtain ⟨z, hz, hjob, hseen⟩ := @performed_concat_get key files parent front
  obtain ⟨z', hz', -, hseen'⟩ := @performed_concat_get key files parent (stepsOf key front)
  rw [hsteps, hz, hz', seenBy, List.filter_append, List.map_append, List.map_append, ← seenBy,
    ← seenBy, seenBy_cons_own hjob] at heq
  have hlast : z.seen = z'.seen := by
    simpa [seenBy] using congrArg List.getLast? heq
  have hread : DetailsStore.readDetails parent (filesAfter front files) key =
      DetailsStore.readDetails parent (filesAfter (stepsOf key front) files) key := by
    rw [hseen, hseen'] at hlast
    have hresult := congrArg Prod.snd hlast
    generalize DetailsStore.readDetails parent (filesAfter front files) key = read at hresult
    generalize DetailsStore.readDetails parent _ key = read' at hresult
    cases read <;> cases read' <;> simp_all [Except.map]
  have hiff := @isFailure_readDetails key (filesAfter front files) parent
  rw [hread, isFailure_readDetails] at hiff
  exact h (Bool.eq_iff_iff.mpr hiff.symm)

end

/-! ## The parent directory is there -/

namespace WorkDir

variable {parents : Path → Prop} {parent : Path} {top : List String} {names : String → Prop}
  {n : String}

/-- Two trees of files with the parent directory at one place and with the same work
directory of a name. -/
structure SameFor (parents : Path → Prop) (top : List String) (names : String → Prop)
    (n : String) (files files' : Files) : Prop where
  left : Settled parents top names files
  right : Settled parents top names files'
  same : Same top n files files'

theorem Settled.sameFor (h : Settled parents top names files) (n : String) :
    SameFor parents top names n files files :=
  ⟨h, h, fun _ => rfl⟩

/-- **Trees with the same work directory** serve its job alike. -/
theorem serves_sameFor (hp : parents parent) (hn : names n) :
    Serves (SameFor parents top names n) parent n where
  written := by
    rintro d rfl files files' ⟨h, h', hsame⟩
    obtain ⟨hresult, hstate⟩ := h.writeDetails_same h' hp hn hsame d
    exact ⟨hresult, h.writeDetails hp hn, h'.writeDetails hp hn, hstate⟩
  loaded := by
    rintro key rfl files files' ⟨h, h', hsame⟩
    exact h.load_same h' hp hn hsame
  own := by
    rintro key rfl files files' ⟨h, -, -⟩ d hd
    obtain ⟨content, hload, hread⟩ := exists_load hd
    exact h.own _ content d hn (h.toTidy.record?_of_load hp hn hload) hread
  removed := by
    rintro key rfl files files' ⟨h, h', hsame⟩
    have hclean := h.clean hp hn .shared
    have hclean' := h'.clean hp hn .shared
    rw [clean_state] at hclean hclean'
    obtain ⟨e, hr, hr'⟩ | ⟨rest, rest', hr, hr', hrest⟩ :=
      h.removeDirectory_same h' hp hn hsame
    · exact .inl ⟨e, hr, hr'⟩
    · rw [hr] at hclean
      rw [hr'] at hclean'
      exact .inr ⟨rest, rest', hr, hr', hclean, hclean', hrest⟩

/-- What an end of a job leaves of other jobs' work directories. -/
theorem Settled.finishes_other {strategies : Strategies} {c : JobContext}
    {o : Outcome JobCall Files Answer} (h : Settled parents top names files)
    (hp : parents parent) (hs : strategies.Detached)
    (hn : ∀ key, c.outputTable = some key → names (name key) ∧ n ≠ name key)
    (ho : (strategies.finalizer parent).Finishes c files o) :
    Settled parents top names o.state ∧ Same top n o.state files := by
  cases ho with
  | unnamed _ hstate =>
      rw [hstate]
      exact ⟨h, fun _ => rfl⟩
  | idle _ _ hstate =>
      have hkept : o.state = files := hstate
      rw [hkept]
      exact ⟨h, fun _ => rfl⟩
  | @worked key d call work hk hd hcall _ hstate =>
      obtain ⟨hname, hne⟩ := hn key.text hk
      have hwork : (work files).state = files := by
        rcases hcall with ⟨m, -, rfl⟩ | ⟨-, rfl⟩
        · exact (hs.commitJob m c.properties d).state_eq files
        · exact (hs.abortJob c.properties d).state_eq files
      have hown : name d.outputTable.text = name key.text :=
        (serves_sameFor hp hname).own key.text rfl files files (h.sameFor _) d hd
      rw [← hown] at hname hne
      have hafter : o.state =
          (WorkDir.clean parent .shared d.outputTable.text (work files).state).state := hstate
      rw [hafter, hwork]
      exact ⟨h.clean hp hname .shared, h.clean_other hp hname hne .shared⟩

/-- **A step of another job** leaves a work directory as it is. -/
theorem Settled.perform_other {step : JobStep} (h : Settled parents top names files)
    (hp : parents step.parent) (hs : step.Detached)
    (hn : ∀ key, step.job? = some key → names (name key) ∧ n ≠ name key) :
    Settled parents top names (step.perform files).state ∧
      Same top n (step.perform files).state files := by
  obtain ⟨parent, act⟩ := step
  cases act with
  | put d =>
      obtain ⟨hname, hne⟩ := hn d.outputTable.text rfl
      obtain ⟨events, hperform, -⟩ := JobStep.perform_put parent files d
      rw [hperform]
      exact ⟨h.writeDetails hp hname, h.writeDetails_other hp hname hne d⟩
  | get key =>
      rw [JobStep.perform_get]
      exact ⟨h, fun _ => rfl⟩
  | commit strategies c =>
      exact h.finishes_other hp hs hn
        ((Finalizer.finishes_commit c files).bind_pure Answer.ended)
  | abort strategies c status =>
      exact h.finishes_other hp hs hn
        ((Finalizer.finishes_abort c status files).bind_pure Answer.ended)

end WorkDir

end LinkedTables
