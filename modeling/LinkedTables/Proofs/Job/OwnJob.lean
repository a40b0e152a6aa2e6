import LinkedTables.Proofs.Job.Steps

set_option autoImplicit false

/-! # Whose job is ended

A job is ended by its output table, but what is done then is told by the record that is got
under the name of that table. `ActsOn` says that an end keeps to its own job: only details of
this job are handed to a write method, only what this job left behind is removed, and only
this job is named in the log lines for the states.

An abort always keeps to its own job, since it refuses the record of another table. A commit
goes by the record: it keeps to its own job if and only if there is no record of another
table to go by (`keeps_to_own_job`).
-/

namespace LinkedTables.Finalizer

variable {σ : Type} (f : Finalizer σ)

/-! ## Keeping to a job -/

/-- An event that a collaborator leaves when it is called. -/
inductive Lent : Event JobCall → Prop
  | details {key : String} {s : σ} {e : Event Empty} (h : e ∈ (f.getDetails key s).events) :
      Lent (e.map Empty.elim)
  | work {m : WriteMethod} {properties : Entries String} {d : JobDetails} {s : σ}
      {e : Event Empty} (h : e ∈ (f.commitJob m properties d s).events) :
      Lent (e.map Empty.elim)
  | undo {properties : Entries String} {d : JobDetails} {s : σ} {e : Event Empty}
      (h : e ∈ (f.abortJob properties d s).events) : Lent (e.map Empty.elim)
  | clean {key : String} {s : σ} {e : Event Empty} (h : e ∈ (f.clean key s).events) :
      Lent (e.map Empty.elim)

/-- An event that names no other job in a log line for a state, unless a collaborator left
it. -/
def Tells (key : Name) (e : Event JobCall) : Prop :=
  f.Lent e ∨ ∀ channel level fields, e = .logged channel level "job_state_changed" fields →
    Entries.get? fields "job_key" = some (.text key.text)

/-- An end of a job keeps to the job with a given output table. -/
structure ActsOn (key : Name) (events : List (Event JobCall)) : Prop where
  finished : ∀ m properties d, .commitJob m properties d ∈ Event.calls events →
    d.outputTable = key
  undone : ∀ properties d, .abortJob properties d ∈ Event.calls events → d.outputTable = key
  cleaned : ∀ k, .clean k ∈ Event.calls events → k = key.text
  told : ∀ e ∈ events, f.Tells key e

/-! ## The events of an end -/

section

variable {f} {key : Name}

theorem tells_stateLine (state : JobState) {others : Entries Value}
    (h : Entries.get? others "job_key" = none) :
    f.Tells key (f.stateLine key.text state others) := by
  refine .inr fun channel level fields he => ?_
  obtain ⟨-, -, -, rfl⟩ := Event.logged.inj he
  rw [stateFields, List.cons_append, List.cons_append, List.nil_append, Entries.get?_cons,
    Entries.get?_cons, h]
  rfl

theorem tells_ofCall {α : Type} {o : Outcome Empty σ α} (call : JobCall)
    (h : ∀ e ∈ o.events, f.Lent (e.map Empty.elim)) : ∀ e ∈ o.ofCall call, f.Tells key e := by
  intro e he
  rw [Outcome.ofCall, List.mem_cons, List.mem_map] at he
  rcases he with rfl | ⟨e, he, rfl⟩
  · exact .inr fun _ _ _ he => by cases he
  · exact .inl (h e he)

theorem tells_cleanupWarning (k : String) (result : Except Problem Unit) :
    ∀ e ∈ f.cleanupWarning k result, f.Tells key e := by
  have hword : "work_dir_cleanup_failed" ≠ "job_state_changed" := by decide
  intro e he
  unfold cleanupWarning at he
  split at he
  · cases he
  · split at he
    · cases he
    · rw [List.mem_singleton] at he
      subst he
      exact .inr fun _ _ _ he => absurd (Event.logged.inj he).2.2.1 hword

theorem tells_workEvents {call : JobCall} {worked : Outcome Empty σ Unit} {s : σ}
    (h : ∀ e ∈ worked.events, f.Lent (e.map Empty.elim)) :
    ∀ e ∈ f.workEvents key.text call worked (f.clean key.text s), f.Tells key e := by
  intro e he
  rw [workEvents, List.mem_append, List.mem_cons, List.mem_append] at he
  rcases he with he | rfl | he | he
  · exact tells_ofCall call h e he
  · exact tells_stateLine _ rfl
  · exact tells_ofCall _ (fun e he => .clean he) e he
  · exact tells_cleanupWarning _ _ e he

theorem Ends.tells {call : JobCall} {last : Event JobCall} {worked : Outcome Empty σ Unit}
    {o : Outcome JobCall σ Unit} (h : f.Ends key.text call last worked o)
    (hlast : f.Tells key last) (hw : ∀ e ∈ worked.events, f.Lent (e.map Empty.elim)) :
    ∀ e ∈ o.events, f.Tells key e := by
  cases h with
  | finished hc _ _ =>
      subst hc
      intro e he
      rw [List.mem_append, List.mem_singleton] at he
      rcases he with he | rfl
      · exact tells_workEvents hw e he
      · exact hlast
  | failed hc _ _ | interrupted hc _ _ =>
      subst hc
      exact tells_workEvents hw

theorem span_line_ne (operation : String) (ending : String) :
    "job." ++ operation ++ ending ≠ "job_state_changed" := by
  intro h
  have hlist := congrArg String.toList h
  rw [String.toList_append, String.toList_append] at hlist
  have hdot : "job.".toList = ['j', 'o', 'b', '.'] := by decide
  have hline : "job_state_changed".toList = 'j' :: 'o' :: 'b' :: '_' :: "state_changed".toList := by
    decide
  rw [hdot, hline] at hlist
  simp at hlist

theorem tells_spanned {α : Type} {operation : String} {o : Outcome JobCall σ α}
    (h : ∀ e ∈ o.events, f.Tells key e) :
    ∀ e ∈ (spanned operation key o).events, f.Tells key e := by
  -- The lines of a span are about the span and about no state.
  have hline (channel level ending fields) :
      f.Tells key (.logged channel level ("job." ++ operation ++ ending) fields) :=
    .inr fun _ _ _ he => absurd (Event.logged.inj he).2.2.1 (span_line_ne operation ending)
  have hother (e : Event JobCall) (he : ∀ channel level event fields,
      e ≠ .logged channel level event fields) : f.Tells key e :=
    .inr fun channel level fields heq => absurd heq (he channel level _ fields)
  intro e he
  simp only [spanned, List.mem_append] at he
  rcases he with (he | he) | he
  · simp only [Span.opening, Span.jobOperation, if_true, List.mem_cons, List.not_mem_nil,
      or_false] at he
    rcases he with rfl | rfl
    · exact hother _ (by simp)
    · exact hline _ _ _ _
  · exact h e he
  · unfold Span.closing at he
    split at he
    · simp only [Span.jobOperation, if_true, List.mem_cons, List.mem_append, List.not_mem_nil,
        or_false] at he
      rcases he with rfl | rfl | rfl
      · exact hother _ (by simp)
      · exact hline _ _ _ _
      · exact hother _ (by simp)
    · rw [List.mem_singleton] at he
      subst he
      exact hother _ (by simp)
    · simp only [Span.jobOperation, List.mem_cons, List.not_mem_nil, or_false] at he
      rcases he with rfl | rfl | rfl | rfl
      · exact hother _ (by simp)
      · exact hother _ (by simp)
      · exact hline _ _ _ _
      · exact hother _ (by simp)

/-! ## Abort and commit -/

section

variable {s : σ} {state : JobState} {others : Entries Value} {operation : String}

theorem tells_begun (h : Entries.get? others "job_key" = none) :
    ∀ e ∈ f.stateLine key.text state others ::
      (f.getDetails key.text s).ofCall (.getDetails key.text), f.Tells key e := by
  intro e he
  rw [List.mem_cons] at he
  rcases he with rfl | he
  · exact tells_stateLine _ h
  · exact tells_ofCall _ (fun e he => .details he) e he

/-- An end that gets no further than to the details keeps to its job. -/
theorem actsOn_begun (h : Entries.get? others "job_key" = none) (s' : σ)
    (result : Except Problem JobState) :
    f.ActsOn key (spanned operation key ⟨f.stateLine key.text state others ::
      (f.getDetails key.text s).ofCall (.getDetails key.text), s', result⟩).events where
  finished := by simp [spanned, stateLine]
  undone := by simp [spanned, stateLine]
  cleaned := by simp [spanned, stateLine]
  told := tells_spanned (tells_begun h)

/-- An end whose write method is handed details of the job keeps to the job. -/
theorem Ends.actsOn {call : JobCall} {middle : JobState} {said lastSaid : Entries Value}
    {last : JobState} {worked : Outcome Empty σ Unit} {o : Outcome JobCall σ Unit}
    (h : f.Ends key.text call (f.stateLine key.text last lastSaid) worked o)
    (hothers : Entries.get? others "job_key" = none) (hsaid : Entries.get? said "job_key" = none)
    (hlast : Entries.get? lastSaid "job_key" = none)
    (hw : ∀ e ∈ worked.events, f.Lent (e.map Empty.elim))
    (hcall : (∃ m properties d, call = .commitJob m properties d ∧ d.outputTable = key) ∨
      ∃ properties d, call = .abortJob properties d ∧ d.outputTable = key)
    (result : Except Problem JobState) :
    f.ActsOn key (spanned operation key ⟨f.stateLine key.text state others ::
      (f.getDetails key.text s).ofCall (.getDetails key.text) ++
        f.stateLine key.text middle said :: o.events, o.state, result⟩).events := by
  have hcalls : Event.calls (spanned operation key ⟨f.stateLine key.text state others ::
      (f.getDetails key.text s).ofCall (.getDetails key.text) ++
        f.stateLine key.text middle said :: o.events, o.state, result⟩).events =
      [.getDetails key.text, call, .clean key.text] := by
    simp [spanned, stateLine, h.calls_eq]
  constructor
  · rw [hcalls]
    rcases hcall with ⟨m, properties, d, rfl, hd⟩ | ⟨properties, d, rfl, hd⟩ <;>
      simp +contextual [hd]
  · rw [hcalls]
    rcases hcall with ⟨m, properties, d, rfl, hd⟩ | ⟨properties, d, rfl, hd⟩ <;>
      simp +contextual [hd]
  · rw [hcalls]
    rcases hcall with ⟨m, properties, d, rfl, hd⟩ | ⟨properties, d, rfl, hd⟩ <;> simp
  · refine tells_spanned fun e he => ?_
    rcases List.mem_append.mp he with he | he
    · exact tells_begun hothers e he
    · rcases List.mem_cons.mp he with rfl | he
      · exact tells_stateLine _ hsaid
      · exact h.tells (tells_stateLine _ hlast) hw e he

end

variable {c : JobContext} {status : Option Int} {s : σ}

/-- An abort keeps to the job it was called for. -/
theorem actsOn_abort (hk : c.outputTable = some key.text) :
    f.ActsOn key (f.abort c status s).events := by
  obtain ⟨course, h⟩ := f.exists_aborts c status s
  generalize f.abort c status s = o at h
  cases h with
  | noTable h => simp [hk, key.nonempty] at h
  | noDetails hk' hg _ | mismatch hk' hg _ _ =>
      subst hg
      obtain rfl := key_unique hk hk'
      exact actsOn_begun rfl _ _
  | undone hk' hg hd he ho =>
      subst hg
      obtain rfl := key_unique hk hk'
      exact ho.actsOn rfl rfl rfl (fun e he => .undo he) (.inr ⟨_, _, rfl, he⟩) _

/-- A commit that has no record of another table to go by keeps to its job. -/
theorem actsOn_commit (hk : c.outputTable = some key.text)
    (hd : ∀ d m, (f.getDetails key.text s).result = .ok d →
      WriteMethod.AskedFor c.properties m → d.outputTable = key) :
    f.ActsOn key (f.commit c s).events := by
  obtain ⟨course, h⟩ := f.exists_commits c s
  generalize f.commit c s = o at h
  cases h with
  | noTable h => simp [hk, key.nonempty] at h
  | noDetails hk' hg _ | unknownMethod hk' hg _ _ _ =>
      subst hg
      obtain rfl := key_unique hk hk'
      exact actsOn_begun rfl _ _
  | dispatched hk' hg hd' hm ho =>
      subst hg
      obtain rfl := key_unique hk hk'
      have he := hd _ _ hd' hm
      subst he
      exact ho.actsOn rfl rfl rfl (fun e he => .work he) (.inl ⟨_, _, _, rfl, rfl⟩) _

theorem abort_of_foreign {d : JobDetails} (hk : c.outputTable = some key.text)
    (hd : (f.getDetails key.text s).result = .ok d) (hne : d.outputTable ≠ key) :
    (f.abort c status s).result =
        .error (Failure.jobMismatch key.text d.outputTable.text).problem ∧
      Event.calls (f.abort c status s).events = [.getDetails key.text] := by
  obtain ⟨course, h⟩ := f.exists_aborts c status s
  generalize f.abort c status s = o at h
  cases h with
  | noTable h => simp [hk, key.nonempty] at h
  | noDetails hk' hg hp =>
      subst hg
      obtain rfl := key_unique hk hk'
      rw [hd] at hp
      cases hp
  | mismatch hk' hg hd' hne' =>
      subst hg
      obtain rfl := key_unique hk hk'
      obtain rfl := Except.ok.inj (hd'.symm.trans hd)
      exact ⟨rfl, by simp [spanned, abortingLine, stateLine]⟩
  | undone hk' hg hd' he ho =>
      subst hg
      obtain rfl := key_unique hk hk'
      obtain rfl := Except.ok.inj (hd'.symm.trans hd)
      exact absurd he hne

end

/-- **Only commits by a record of another table leave their own job.** An abort keeps to the
job it was called for and refuses such a record before anything is called. A commit does not
look at the table of the record: it hands the record to the write method, removes what the
other job left behind, and names the other job in the log. -/
theorem keeps_to_own_job {c : JobContext} {key : Name} (hk : c.outputTable = some key.text)
    (status : Option Int) (s : σ) :
    f.ActsOn key (f.abort c status s).events ∧
      (f.ActsOn key (f.commit c s).events ↔
        ∀ d m, (f.getDetails key.text s).result = .ok d →
          WriteMethod.AskedFor c.properties m → d.outputTable = key) ∧
      ∀ d, (f.getDetails key.text s).result = .ok d → d.outputTable ≠ key →
        (f.abort c status s).result =
            .error (Failure.jobMismatch key.text d.outputTable.text).problem ∧
          Event.calls (f.abort c status s).events = [.getDetails key.text] ∧
          ∀ m, WriteMethod.AskedFor c.properties m → Event.calls (f.commit c s).events =
            [.getDetails key.text, .commitJob m c.properties d, .clean d.outputTable.text] := by
  refine ⟨actsOn_abort hk, ⟨fun h d m hd hm => ?_, actsOn_commit hk⟩, fun d hd hne => ?_⟩
  · refine h.finished m c.properties d ?_
    rw [calls_commit hk hd hm]
    exact .tail _ (.head _)
  · obtain ⟨hresult, hcalls⟩ := abort_of_foreign hk hd hne
    exact ⟨hresult, hcalls, fun m hm => calls_commit hk hd hm⟩

/-- A store that has only the record of `db.t1`. -/
def foreignRecord : JobDetails := ⟨⟨"db.t1", by decide⟩, none, .direct, [], []⟩

/-- What jobs are finalized with when that record is got for every key. -/
def withForeignRecord : Finalizer Unit where
  getDetails _ := Run.done foreignRecord
  commitJob _ _ _ := Run.done ()
  abortJob _ _ := Run.done ()
  clean _ := Run.done ()

theorem keeps_to_own_job_of_foreign :
    let c : JobContext := ⟨some "db.t2", [], none⟩
    c.outputTable = some (⟨"db.t2", by decide⟩ : Name).text ∧
      withForeignRecord.ActsOn ⟨"db.t2", by decide⟩ (withForeignRecord.abort c none ()).events ∧
      Event.calls (withForeignRecord.commit c ()).events =
        [.getDetails "db.t2", .commitJob .direct [] foreignRecord, .clean "db.t1"] := by
  intro c
  have hk : c.outputTable = some (⟨"db.t2", by decide⟩ : Name).text := rfl
  have h := withForeignRecord.keeps_to_own_job hk none ()
  have hforeign := h.2.2 foreignRecord rfl (by decide)
  exact ⟨hk, h.1, hforeign.2.2 .direct (.unsaid rfl)⟩

/-- The commit of `db.t2` finishes the work of `db.t1` and removes its record. -/
theorem commit_leaves_own_job :
    ¬ withForeignRecord.ActsOn ⟨"db.t2", by decide⟩
      (withForeignRecord.commit ⟨some "db.t2", [], none⟩ ()).events := by
  intro h
  have hclean := h.cleaned "db.t1" (.tail _ (.tail _ (.head _)))
  exact absurd hclean (by decide)

end LinkedTables.Finalizer
