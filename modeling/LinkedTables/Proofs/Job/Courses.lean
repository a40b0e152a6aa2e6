import LinkedTables.Job.Finalize
import LinkedTables.Proofs.Trace.Run
import Mathlib.Logic.ExistsUnique

set_option autoImplicit false

/-! # Courses of a job's end

A commit takes one of four courses, and so does an abort: the job names no output table,
its details cannot be got, the end is refused because of what the properties or the details
say, or the write method is called for and the cleanup follows. `Commits` and `Aborts` say
for each course when it is taken and what it leaves behind, event by event, whatever the
record, the write methods and the cleanup do.

After the work of the write method both go on alike (`Ends`): the cleanup is called for
once, a problem of the cleanup is no more than a warning, and only an interruption of it
takes the place of what the work came to.
-/

namespace LinkedTables

/-! ## Contexts and properties -/

namespace JobContext

theorem key_eq_ok {c : JobContext} {key : Name} (h : c.outputTable = some key.text) :
    c.key = .ok key := by
  simp [JobContext.key, h]

theorem key_eq_error {c : JobContext} (h : c.outputTable = none ∨ c.outputTable = some "") :
    c.key = .error Failure.noOutputTable.problem := by
  rcases h with h | h <;> simp [JobContext.key, h, Name.ofText?]

theorem table_cases (c : JobContext) :
    (c.outputTable = none ∨ c.outputTable = some "") ∨
      ∃ key : Name, c.outputTable = some key.text := by
  cases h : c.outputTable with
  | none => exact .inl (.inl rfl)
  | some s =>
      by_cases hs : s = ""
      · exact .inl (.inr (congrArg some hs))
      · exact .inr ⟨⟨s, hs⟩, rfl⟩

end JobContext

namespace WriteMethod

/-- The properties of a job ask for a write method: by its word, or for the direct one by
saying nothing. -/
inductive AskedFor (properties : Entries String) : WriteMethod → Prop
  | unsaid (h : Entries.get? properties key = none) : AskedFor properties .direct
  | said {m : WriteMethod} (h : Entries.get? properties key = some m.word) :
      AskedFor properties m

/-- The problem of a setting that is no write method. -/
def unknown (setting : String) : Problem :=
  .failure (.writeMethod setting none)
    (some (.error .value (Text.quoted setting ++ " is not a valid WriteMethod")))

theorem AskedFor.ofProperties_eq {properties : Entries String} {m : WriteMethod}
    (h : AskedFor properties m) : ofProperties properties = .ok m := by
  cases h with
  | unsaid h => rw [ofProperties, h]; rfl
  | said h => rw [ofProperties, h, Option.getD_some, parse, ofWord?_word]

theorem ofProperties_eq_unknown {properties : Entries String} {setting : String}
    (h : Entries.get? properties key = some setting) (hs : ∀ m : WriteMethod, setting ≠ m.word) :
    ofProperties properties = .error (unknown setting) := by
  have hword : ofWord? setting = none := by
    rw [ofWord?, List.find?_eq_none]
    intro m _ hm
    exact hs m (beq_iff_eq.mp hm).symm
  rw [ofProperties, h, Option.getD_some, parse, hword]
  rfl

/-- The properties ask for a write method, or for something that is none. -/
theorem askedFor_cases (properties : Entries String) :
    (∃ m, AskedFor properties m) ∨ ∃ setting, Entries.get? properties key = some setting ∧
      ∀ m : WriteMethod, setting ≠ m.word := by
  cases h : Entries.get? properties key with
  | none => exact .inl ⟨_, .unsaid h⟩
  | some setting =>
      by_cases hm : ∃ m : WriteMethod, setting = m.word
      · obtain ⟨m, rfl⟩ := hm
        exact .inl ⟨m, .said h⟩
      · exact .inr ⟨setting, rfl, not_exists.mp hm⟩

end WriteMethod

namespace Finalizer

variable {σ : Type} (f : Finalizer σ)

/-! ## Work and cleanup -/

/-- The log line for the state of a job. -/
def stateLine (key : String) (state : JobState) (others : Entries Value) : Event JobCall :=
  .logged f.channel .info "job_state_changed" (stateFields key state others)

/-- The warning about a cleanup that failed, but for an interruption. -/
def cleanupWarning (key : String) : Except Problem Unit → List (Event JobCall)
  | .ok _ => []
  | .error p =>
    if p.isInterrupt then []
    else [.logged f.channel .warning "work_dir_cleanup_failed"
      [("job_key", .text key), ("error", .text p.text)]]

/-- The events of work and of the cleanup after it. -/
def workEvents (key : String) (call : JobCall) (worked cleaned : Outcome Empty σ Unit) :
    List (Event JobCall) :=
  worked.ofCall call ++ f.stateLine key .cleanup [] ::
    (cleaned.ofCall (.clean key) ++ f.cleanupWarning key cleaned.result)

/-- A call came to an interruption. -/
def Interrupted (result : Except Problem Unit) : Prop :=
  ∃ p, result = .error p ∧ p.isInterrupt = true

/-- What comes of the work of a write method: the cleanup follows on every way out, and
then a last log line if the work was done and the cleanup was not interrupted. -/
inductive Ends (key : String) (call : JobCall) (last : Event JobCall)
    (worked : Outcome Empty σ Unit) : Outcome JobCall σ Unit → Prop
  | finished {cleaned : Outcome Empty σ Unit} (hc : f.clean key worked.state = cleaned)
      (hw : worked.result = .ok ()) (hi : ¬ Interrupted cleaned.result) :
      Ends key call last worked
        ⟨f.workEvents key call worked cleaned ++ [last], cleaned.state, .ok ()⟩
  | failed {cleaned : Outcome Empty σ Unit} {p : Problem}
      (hc : f.clean key worked.state = cleaned) (hw : worked.result = .error p)
      (hi : ¬ Interrupted cleaned.result) :
      Ends key call last worked
        ⟨f.workEvents key call worked cleaned, cleaned.state, .error p⟩
  | interrupted {cleaned : Outcome Empty σ Unit} {p : Problem}
      (hc : f.clean key worked.state = cleaned) (hi : cleaned.result = .error p)
      (hp : p.isInterrupt = true) :
      Ends key call last worked
        ⟨f.workEvents key call worked cleaned, cleaned.state, .error p⟩

/-- What work has come to after the cleanup. -/
def afterCleanup (worked cleaned : Except Problem Unit) : Except Problem Unit :=
  match cleaned with
  | .ok _ => worked
  | .error p => if p.isInterrupt then .error p else worked

theorem afterCleanup_of_interrupt {worked cleaned : Except Problem Unit} {p : Problem}
    (hi : cleaned = .error p) (hp : p.isInterrupt = true) :
    afterCleanup worked cleaned = .error p := by
  rw [hi]
  exact if_pos hp

theorem afterCleanup_of_not_interrupted {cleaned : Except Problem Unit}
    (hi : ¬ Interrupted cleaned) (worked : Except Problem Unit) :
    afterCleanup worked cleaned = worked := by
  cases cleaned with
  | ok _ => rfl
  | error p => exact if_neg fun hp => hi ⟨p, rfl, hp⟩

theorem cleanup_eq (key : String) (s : σ) :
    f.cleanup key s = ⟨f.stateLine key .cleanup [] :: ((f.clean key s).ofCall (.clean key) ++
        f.cleanupWarning key (f.clean key s).result), (f.clean key s).state,
      afterCleanup (.ok ()) (f.clean key s).result⟩ := by
  have hentered : f.cleanup key s = Outcome.preceded [f.stateLine key .cleanup []]
      ((Run.calling (.clean key) (f.clean key)).handling (fun p =>
        Run.log f.channel .warning "work_dir_cleanup_failed"
          [("job_key", .text key), ("error", .text p.text)]) s) := rfl
  rw [hentered, Run.handling, Run.calling_apply, ← Outcome.ofCall]
  generalize f.clean key s = cleaned
  obtain ⟨events, state, p | _⟩ := cleaned
  · by_cases hp : p.isInterrupt = true <;>
      simp [hp, Outcome.preceded, cleanupWarning, afterCleanup, Run.log]
  · simp [Outcome.preceded, cleanupWarning, afterCleanup]

theorem always_cleanup_eq (key : String) (call : JobCall) (work : Run Empty σ Unit) (s : σ) :
    ((Run.calling call work).always (f.cleanup key)) s =
      ⟨f.workEvents key call (work s) (f.clean key (work s).state),
        (f.clean key (work s).state).state,
        afterCleanup (work s).result (f.clean key (work s).state).result⟩ := by
  rw [Run.always, Run.calling_apply, cleanup_eq]
  generalize f.clean key (work s).state = cleaned
  obtain ⟨events, state, p | _⟩ := cleaned
  · by_cases hp : p.isInterrupt = true <;>
      simp [hp, workEvents, Outcome.ofCall, cleanupWarning, afterCleanup]
  · rfl

/-- Work between two log lines, with the cleanup on every way out. -/
theorem ends_of_work (key : String) (call : JobCall) (last : Event JobCall)
    (work : Run Empty σ Unit) (s : σ) :
    f.Ends key call last (work s)
      (((Run.calling call work).always (f.cleanup key) >>= fun _ => Run.emit last) s) := by
  have hdone := f.always_cleanup_eq key call work s
  by_cases hi : Interrupted (f.clean key (work s).state).result
  · obtain ⟨p, hi, hp⟩ := hi
    rw [afterCleanup_of_interrupt hi hp] at hdone
    rw [Run.bind_of_error (by rw [hdone]), hdone]
    exact .interrupted rfl hi hp
  · rw [afterCleanup_of_not_interrupted hi] at hdone
    cases hw : (work s).result with
    | ok _ =>
        rw [hw] at hdone
        rw [Run.bind_of_ok (by rw [hdone]), hdone]
        exact .finished rfl hw hi
    | error p =>
        rw [hw] at hdone
        rw [Run.bind_of_error (by rw [hdone]), hdone]
        exact .failed rfl hw hi

/-! ## The first state and the details -/

section

variable {α : Type} {f} {key : String} {state : JobState} {others : Entries Value} {s : σ}

theorem enter_details_of_error {p : Problem} (hp : (f.getDetails key s).result = .error p)
    (g : JobDetails → Run JobCall σ α) :
    (f.enter key state others >>= fun _ => f.details key >>= g) s =
      ⟨f.stateLine key state others :: (f.getDetails key s).ofCall (.getDetails key),
        (f.getDetails key s).state, .error p⟩ :=
  congrArg (Outcome.preceded [f.stateLine key state others])
    (Run.bind_of_error (r := f.details key) hp g)

theorem enter_details_of_ok {d : JobDetails} (hd : (f.getDetails key s).result = .ok d)
    (g : JobDetails → Run JobCall σ α) :
    (f.enter key state others >>= fun _ => f.details key >>= g) s =
      (g d (f.getDetails key s).state).preceded
        (f.stateLine key state others :: (f.getDetails key s).ofCall (.getDetails key)) :=
  congrArg (Outcome.preceded [f.stateLine key state others])
    (Run.bind_of_ok (r := f.details key) hd g)

end

/-! ## Commit -/

/-- An outcome in the span of a job's end. -/
def spanned {α : Type} (operation : String) (key : Name) (o : Outcome JobCall σ α) :
    Outcome JobCall σ α :=
  let span := Span.jobOperation operation (some key.text) none
  ⟨span.opening ++ o.events ++ span.closing o.result, o.state, o.result⟩

/-- What a commit does inside its span. -/
def committing (c : JobContext) (key : Name) : Run JobCall σ JobState := do
  f.enter key.text .committing [("job_id", .ofText? c.jobId)]
  let d ← f.details key.text
  f.finalize c.properties d
  return .committed

theorem commit_eq (c : JobContext) : f.commit c = Run.ofExcept c.key >>= fun key =>
    (Span.jobOperation "commit" (some key.text) none).around (f.committing c key) := rfl

/-- The courses of a commit. -/
inductive CommitCourse where
  /-- The job names no output table. -/
  | noTable
  /-- The details of the job cannot be got. -/
  | noDetails
  /-- The job asks for a write method that is not known. -/
  | unknownMethod
  /-- The write method is called for. -/
  | dispatched
deriving DecidableEq, Repr

/-- The log line for the first state of a commit. -/
def committingLine (c : JobContext) (key : String) : Event JobCall :=
  f.stateLine key .committing [("job_id", .ofText? c.jobId)]

/-- When a commit takes a course and what it leaves behind. -/
inductive Commits (c : JobContext) (s : σ) :
    CommitCourse → Outcome JobCall σ JobState → Prop
  | noTable (h : c.outputTable = none ∨ c.outputTable = some "") :
      Commits c s .noTable ⟨[], s, .error Failure.noOutputTable.problem⟩
  | noDetails {key : Name} {got : Outcome Empty σ JobDetails} {p : Problem}
      (hk : c.outputTable = some key.text) (hg : f.getDetails key.text s = got)
      (hp : got.result = .error p) :
      Commits c s .noDetails (spanned "commit" key
        ⟨f.committingLine c key.text :: got.ofCall (.getDetails key.text), got.state,
          .error p⟩)
  | unknownMethod {key : Name} {got : Outcome Empty σ JobDetails} {d : JobDetails}
      {setting : String} (hk : c.outputTable = some key.text)
      (hg : f.getDetails key.text s = got) (hd : got.result = .ok d)
      (hm : Entries.get? c.properties WriteMethod.key = some setting)
      (hs : ∀ m : WriteMethod, setting ≠ m.word) :
      Commits c s .unknownMethod (spanned "commit" key
        ⟨f.committingLine c key.text :: got.ofCall (.getDetails key.text), got.state,
          .error (WriteMethod.unknown setting)⟩)
  | dispatched {key : Name} {got : Outcome Empty σ JobDetails} {d : JobDetails}
      {m : WriteMethod} {o : Outcome JobCall σ Unit} (hk : c.outputTable = some key.text)
      (hg : f.getDetails key.text s = got) (hd : got.result = .ok d)
      (hm : WriteMethod.AskedFor c.properties m)
      (ho : f.Ends d.outputTable.text (.commitJob m c.properties d)
        (f.stateLine d.outputTable.text .committed [("write_method", .text m.word)])
        (f.commitJob m c.properties d got.state) o) :
      Commits c s .dispatched (spanned "commit" key
        ⟨f.committingLine c key.text :: got.ofCall (.getDetails key.text) ++
          f.stateLine d.outputTable.text .strategyDispatch [("write_method", .text m.word)] ::
            o.events, o.state, o.result.map fun _ => .committed⟩)

theorem finalize_of_unknown {properties : Entries String} {setting : String}
    (h : Entries.get? properties WriteMethod.key = some setting)
    (hs : ∀ m : WriteMethod, setting ≠ m.word) (d : JobDetails) (s : σ) :
    f.finalize properties d s = ⟨[], s, .error (WriteMethod.unknown setting)⟩ :=
  Run.ofExcept_bind_of_error (WriteMethod.ofProperties_eq_unknown h hs) _

theorem ends_of_finalize {properties : Entries String} {m : WriteMethod}
    (h : WriteMethod.AskedFor properties m) (d : JobDetails) (s : σ) :
    ∃ o, f.Ends d.outputTable.text (.commitJob m properties d)
        (f.stateLine d.outputTable.text .committed [("write_method", .text m.word)])
        (f.commitJob m properties d s) o ∧
      f.finalize properties d s = o.preceded
        [f.stateLine d.outputTable.text .strategyDispatch [("write_method", .text m.word)]] := by
  refine ⟨_, f.ends_of_work _ _ _ _ s, ?_⟩
  exact Run.ofExcept_bind_of_ok h.ofProperties_eq _

/-- A commit takes one of its courses. -/
theorem exists_commits (c : JobContext) (s : σ) :
    ∃ course, f.Commits c s course (f.commit c s) := by
  rcases c.table_cases with hk | ⟨key, hk⟩
  · refine ⟨.noTable, ?_⟩
    rw [commit, Run.ofExcept_bind_of_error (JobContext.key_eq_error hk)]
    exact .noTable hk
  have hspan : f.commit c s = spanned "commit" key
      ((f.enter key.text .committing [("job_id", .ofText? c.jobId)] >>= fun _ =>
        f.details key.text >>= fun d => f.finalize c.properties d >>= fun _ =>
          pure .committed) s) :=
    Run.ofExcept_bind_of_ok (JobContext.key_eq_ok hk) _
  rw [hspan]
  cases hd : (f.getDetails key.text s).result with
  | error p =>
      rw [enter_details_of_error hd]
      exact ⟨_, .noDetails hk rfl hd⟩
  | ok d =>
      rw [enter_details_of_ok hd, Run.bind_pure_apply]
      rcases WriteMethod.askedFor_cases c.properties with ⟨m, hm⟩ | ⟨setting, hm, hs⟩
      · obtain ⟨o, ho, hfinal⟩ := f.ends_of_finalize hm d (f.getDetails key.text s).state
        rw [hfinal]
        exact ⟨_, .dispatched hk rfl hd hm ho⟩
      · rw [f.finalize_of_unknown hm hs, Outcome.preceded, List.append_nil]
        exact ⟨_, .unknownMethod hk rfl hd hm hs⟩

/-- The course that a commit takes. -/
def commitCourse (c : JobContext) (s : σ) : CommitCourse :=
  match c.key with
  | .error _ => .noTable
  | .ok key =>
    match (f.getDetails key.text s).result, WriteMethod.ofProperties c.properties with
    | .error _, _ => .noDetails
    | .ok _, .error _ => .unknownMethod
    | .ok _, .ok _ => .dispatched

variable {f} in
theorem Commits.course_eq {c : JobContext} {s : σ} {course : CommitCourse}
    {o : Outcome JobCall σ JobState} (h : f.Commits c s course o) :
    course = f.commitCourse c s := by
  cases h with
  | noTable h => rw [commitCourse, JobContext.key_eq_error h]
  | noDetails hk hg hp =>
      subst hg
      simp only [commitCourse, JobContext.key_eq_ok hk, hp]
  | unknownMethod hk hg hd hm hs =>
      subst hg
      simp only [commitCourse, JobContext.key_eq_ok hk, hd,
        WriteMethod.ofProperties_eq_unknown hm hs]
  | dispatched hk hg hd hm ho =>
      subst hg
      simp only [commitCourse, JobContext.key_eq_ok hk, hd, hm.ofProperties_eq]

theorem commits_commitCourse (c : JobContext) (s : σ) :
    f.Commits c s (f.commitCourse c s) (f.commit c s) := by
  obtain ⟨course, h⟩ := f.exists_commits c s
  exact h.course_eq ▸ h

/-- **A commit takes exactly one of its courses.** -/
theorem existsUnique_commits (c : JobContext) (s : σ) :
    ∃! course, f.Commits c s course (f.commit c s) :=
  ⟨_, f.commits_commitCourse c s, fun _ h => h.course_eq⟩

/-- The failure of a record is told by a further line in the log. -/
theorem failure_is_logged :
    let f : Finalizer Unit :=
      { getDetails := fun _ => Run.fail (.error .runtime "boom")
        commitJob := fun _ _ _ => Run.done ()
        abortJob := fun _ _ => Run.done ()
        clean := fun _ => Run.done () }
    let c : JobContext := ⟨some "sales.orders", [], none⟩
    (f.commit c ()).result = .error (.error .runtime "boom") ∧
      ∃ before after fields, (f.commit c ()).events =
          before ++ .called (.getDetails "sales.orders") :: after ∧
        .logged .shared .error "job.commit_failed" fields ∈ after := by
  intro f c
  exact ⟨rfl, [_, _, _], [_, _, _, _], _, rfl, .tail _ (.tail _ (.head _))⟩

/-! ## Abort -/

/-- What an abort does inside its span. -/
def aborting (c : JobContext) (status : Option Int) (key : Name) : Run JobCall σ JobState := do
  f.enter key.text .aborting
    [("job_id", .ofText? c.jobId), ("status", (status.map Value.int).getD .null)]
  let d ← f.details key.text
  if d.outputTable ≠ key then
    Run.fail (Failure.jobMismatch key.text d.outputTable.text).problem
  else do
    f.undo c.properties d
    return .aborted

theorem abort_eq (c : JobContext) (status : Option Int) :
    f.abort c status = Run.ofExcept c.key >>= fun key =>
      (Span.jobOperation "abort" (some key.text) none).around (f.aborting c status key) := rfl

/-- The courses of an abort. -/
inductive AbortCourse where
  /-- The job names no output table. -/
  | noTable
  /-- The details of the job cannot be got. -/
  | noDetails
  /-- The details belong to another output table. -/
  | mismatch
  /-- The direct write method is called for. -/
  | undone
deriving DecidableEq, Repr

/-- The log line for the first state of an abort. -/
def abortingLine (c : JobContext) (status : Option Int) (key : String) : Event JobCall :=
  f.stateLine key .aborting
    [("job_id", .ofText? c.jobId), ("status", (status.map Value.int).getD .null)]

/-- When an abort takes a course and what it leaves behind. -/
inductive Aborts (c : JobContext) (status : Option Int) (s : σ) :
    AbortCourse → Outcome JobCall σ JobState → Prop
  | noTable (h : c.outputTable = none ∨ c.outputTable = some "") :
      Aborts c status s .noTable ⟨[], s, .error Failure.noOutputTable.problem⟩
  | noDetails {key : Name} {got : Outcome Empty σ JobDetails} {p : Problem}
      (hk : c.outputTable = some key.text) (hg : f.getDetails key.text s = got)
      (hp : got.result = .error p) :
      Aborts c status s .noDetails (spanned "abort" key
        ⟨f.abortingLine c status key.text :: got.ofCall (.getDetails key.text), got.state,
          .error p⟩)
  | mismatch {key : Name} {got : Outcome Empty σ JobDetails} {d : JobDetails}
      (hk : c.outputTable = some key.text) (hg : f.getDetails key.text s = got)
      (hd : got.result = .ok d) (hne : d.outputTable ≠ key) :
      Aborts c status s .mismatch (spanned "abort" key
        ⟨f.abortingLine c status key.text :: got.ofCall (.getDetails key.text), got.state,
          .error (Failure.jobMismatch key.text d.outputTable.text).problem⟩)
  | undone {key : Name} {got : Outcome Empty σ JobDetails} {d : JobDetails}
      {o : Outcome JobCall σ Unit} (hk : c.outputTable = some key.text)
      (hg : f.getDetails key.text s = got) (hd : got.result = .ok d)
      (he : d.outputTable = key)
      (ho : f.Ends key.text (.abortJob c.properties d) (f.stateLine key.text .aborted [])
        (f.abortJob c.properties d got.state) o) :
      Aborts c status s .undone (spanned "abort" key
        ⟨f.abortingLine c status key.text :: got.ofCall (.getDetails key.text) ++
          f.stateLine key.text .rollback [] :: o.events, o.state,
          o.result.map fun _ => .aborted⟩)

theorem ends_of_undo (properties : Entries String) (d : JobDetails) (s : σ) :
    ∃ o, f.Ends d.outputTable.text (.abortJob properties d)
        (f.stateLine d.outputTable.text .aborted []) (f.abortJob properties d s) o ∧
      f.undo properties d s = o.preceded [f.stateLine d.outputTable.text .rollback []] :=
  ⟨_, f.ends_of_work _ _ _ _ s, rfl⟩

/-- An abort takes one of its courses. -/
theorem exists_aborts (c : JobContext) (status : Option Int) (s : σ) :
    ∃ course, f.Aborts c status s course (f.abort c status s) := by
  rcases c.table_cases with hk | ⟨key, hk⟩
  · refine ⟨.noTable, ?_⟩
    rw [abort, Run.ofExcept_bind_of_error (JobContext.key_eq_error hk)]
    exact .noTable hk
  have hspan : f.abort c status s = spanned "abort" key
      ((f.enter key.text .aborting
          [("job_id", .ofText? c.jobId), ("status", (status.map Value.int).getD .null)] >>=
        fun _ => f.details key.text >>= fun d =>
          if d.outputTable ≠ key then
            Run.fail (Failure.jobMismatch key.text d.outputTable.text).problem
          else f.undo c.properties d >>= fun _ => pure .aborted) s) :=
    Run.ofExcept_bind_of_ok (JobContext.key_eq_ok hk) _
  rw [hspan]
  cases hd : (f.getDetails key.text s).result with
  | error p =>
      rw [enter_details_of_error hd]
      exact ⟨_, .noDetails hk rfl hd⟩
  | ok d =>
      rw [enter_details_of_ok hd]
      by_cases he : d.outputTable = key
      · obtain ⟨o, ho, hfinal⟩ := f.ends_of_undo c.properties d (f.getDetails key.text s).state
        rw [if_neg (not_not_intro he), Run.bind_pure_apply, hfinal]
        subst he
        exact ⟨_, .undone hk rfl hd rfl ho⟩
      · rw [if_pos he, Run.fail_apply, Outcome.preceded, List.append_nil]
        exact ⟨_, .mismatch hk rfl hd he⟩

/-- The course that an abort takes. -/
def abortCourse (c : JobContext) (s : σ) : AbortCourse :=
  match c.key with
  | .error _ => .noTable
  | .ok key =>
    match (f.getDetails key.text s).result with
    | .error _ => .noDetails
    | .ok d => if d.outputTable = key then .undone else .mismatch

section

variable {f} {c : JobContext} {status : Option Int} {s : σ}

theorem Aborts.course_eq {course : AbortCourse} {o : Outcome JobCall σ JobState}
    (h : f.Aborts c status s course o) : course = f.abortCourse c s := by
  cases h with
  | noTable h => rw [abortCourse, JobContext.key_eq_error h]
  | noDetails hk hg hp =>
      subst hg
      simp only [abortCourse, JobContext.key_eq_ok hk, hp]
  | mismatch hk hg hd hne =>
      subst hg
      simp only [abortCourse, JobContext.key_eq_ok hk, hd, if_neg hne]
  | undone hk hg hd he ho =>
      subst hg
      simp only [abortCourse, JobContext.key_eq_ok hk, hd, if_pos he]

@[simp] theorem calls_cleanupWarning (key : String) (result : Except Problem Unit) :
    Event.calls (f.cleanupWarning key result) = [] := by
  unfold cleanupWarning
  split
  · rfl
  · split <;> rfl

theorem Ends.calls_eq {key : String} {call : JobCall} {state : JobState}
    {others : Entries Value} {worked : Outcome Empty σ Unit} {o : Outcome JobCall σ Unit}
    (h : f.Ends key call (f.stateLine key state others) worked o) :
    Event.calls o.events = [call, .clean key] := by
  cases h <;> simp [workEvents, stateLine]

/-- No abort has a write method finish its work. -/
theorem Aborts.commitJob_not_mem {course : AbortCourse} {o : Outcome JobCall σ JobState}
    (h : f.Aborts c status s course o) (m : WriteMethod) (properties : Entries String)
    (d : JobDetails) : .commitJob m properties d ∉ Event.calls o.events := by
  cases h with
  | noTable => simp
  | noDetails | mismatch => simp [spanned, abortingLine, stateLine]
  | undone hk hg hd he ho => simp [spanned, abortingLine, stateLine, ho.calls_eq]

end

theorem aborts_abortCourse (c : JobContext) (status : Option Int) (s : σ) :
    f.Aborts c status s (f.abortCourse c s) (f.abort c status s) := by
  obtain ⟨course, h⟩ := f.exists_aborts c status s
  exact h.course_eq ▸ h

/-- **An abort takes exactly one of its courses.** The course is the same whatever write
method the properties ask for, and no write method is called to finish its work. -/
theorem existsUnique_aborts (c : JobContext) (status : Option Int) (s : σ) :
    (∃! course, f.Aborts c status s course (f.abort c status s)) ∧
      (∀ properties course, f.Aborts c status s course (f.abort c status s) →
        f.Aborts { c with properties := properties } status s course
          (f.abort { c with properties := properties } status s)) ∧
      (∀ m properties d, .commitJob m properties d ∉
        Event.calls (f.abort c status s).events) ∧
      ∀ work, ({ f with commitJob := work } : Finalizer σ).abort c status s =
        f.abort c status s := by
  have h := f.aborts_abortCourse c status s
  refine ⟨⟨_, h, fun _ h' => h'.course_eq⟩, ?_, h.commitJob_not_mem, fun _ => rfl⟩
  intro properties course h'
  -- The course is found without a look at the properties.
  rw [h'.course_eq]
  exact f.aborts_abortCourse { c with properties := properties } status s

end Finalizer

end LinkedTables
