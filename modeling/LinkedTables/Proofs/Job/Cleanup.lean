import LinkedTables.Proofs.Job.Courses

set_option autoImplicit false

/-! # Jobs whose cleanup goes another way

The same job is ended twice, with cleanups that do whatever they like but are not
interrupted. Both ends go the same way up to the cleanup, clean up after the same table in
the same state, and go the same way after it (`Finalizer.SameButCleanup`): the state that the
cleanup left is not looked at again, and a problem that it raised is forgotten but for a
warning. So the result is what the write method came to, whichever of the two cleanups it was
(`Finalizer.cleanup_changes_no_outcome`).
-/

namespace LinkedTables

namespace Event

variable {γ δ : Type}

/-- The fields of a log line for the state of a job. -/
def stateLogged? : Event γ → Option (Entries Value)
  | logged _ _ event fields => if event = "job_state_changed" then some fields else none
  | _ => none

/-- The fields of the log lines for the states of jobs, in order. -/
def statesLogged (es : List (Event γ)) : List (Entries Value) := es.filterMap stateLogged?

@[simp] theorem statesLogged_append (es fs : List (Event γ)) :
    statesLogged (es ++ fs) = statesLogged es ++ statesLogged fs :=
  List.filterMap_append

theorem statesLogged_map (g : γ → δ) (es : List (Event γ)) :
    statesLogged (es.map (Event.map g)) = statesLogged es := by
  have hone : ∀ e : Event γ, stateLogged? (e.map g) = stateLogged? e := by
    intro e
    cases e <;> rfl
  simp only [statesLogged, List.filterMap_map, Function.comp_def, hone]

end Event

namespace Finalizer

variable {σ : Type} (f : Finalizer σ)

/-- The same with another cleanup. -/
def cleanedBy (clean : String → Run Empty σ Unit) : Finalizer σ := { f with clean := clean }

/-- The events of a cleanup: the call, what was done, and the warning if it failed. -/
def cleanupEvents (key : String) (cleaned : Outcome Empty σ Unit) : List (Event JobCall) :=
  cleaned.ofCall (.clean key) ++ f.cleanupWarning key cleaned.result

/-- Two outcomes differ in nothing but what one of two cleanups did in place of the other, if
there was a cleanup at all. -/
inductive SameButCleanup (clean clean' : String → Run Empty σ Unit) {α : Type} :
    Outcome JobCall σ α → Outcome JobCall σ α → Prop
  | same {o : Outcome JobCall σ α} (h : ∀ key, .clean key ∉ Event.calls o.events) :
      SameButCleanup clean clean' o o
  | cleaned {before after : List (Event JobCall)} {key : String} {s : σ}
      {result : Except Problem α} (hb : ∀ key, .clean key ∉ Event.calls before)
      (ha : Event.calls after = []) :
      SameButCleanup clean clean'
        ⟨before ++ (f.cleanupEvents key (clean key s) ++ after), (clean key s).state, result⟩
        ⟨before ++ (f.cleanupEvents key (clean' key s) ++ after), (clean' key s).state, result⟩

variable {f} {clean clean' : String → Run Empty σ Unit} {α β : Type}

/-! ## Work and an uninterrupted cleanup -/

/-- The last log line if the work was done. -/
def lastLine (last : Event JobCall) : Except Problem Unit → List (Event JobCall)
  | .ok _ => [last]
  | .error _ => []

theorem Ends.eq_of_not_interrupted {key : String} {call : JobCall} {last : Event JobCall}
    {worked : Outcome Empty σ Unit} {o : Outcome JobCall σ Unit}
    (h : f.Ends key call last worked o)
    (hi : ¬ Interrupted (f.clean key worked.state).result) :
    o = ⟨(worked.ofCall call ++ [f.stateLine key .cleanup []]) ++
        (f.cleanupEvents key (f.clean key worked.state) ++ lastLine last worked.result),
      (f.clean key worked.state).state, worked.result⟩ := by
  cases h with
  | finished hc hw _ | failed hc hw _ =>
      subst hc
      simp [hw, workEvents, cleanupEvents, lastLine]
  | interrupted hc hr hp =>
      subst hc
      exact absurd ⟨_, hr, hp⟩ hi

theorem calls_cleanupEvents (key : String) (cleaned : Outcome Empty σ Unit) :
    Event.calls (f.cleanupEvents key cleaned) = [.clean key] := by
  simp [cleanupEvents]

/-- A warning is no state of the job. -/
theorem statesLogged_cleanupEvents (key : String) (cleaned : Outcome Empty σ Unit) :
    Event.statesLogged (f.cleanupEvents key cleaned) = Event.statesLogged cleaned.events := by
  have hwarning : Event.statesLogged (f.cleanupWarning key cleaned.result) = [] := by
    unfold cleanupWarning
    split
    · rfl
    · split <;> rfl
  rw [cleanupEvents, Event.statesLogged_append, hwarning, List.append_nil]
  exact Event.statesLogged_map Empty.elim cleaned.events

namespace SameButCleanup

section

variable {o o' : Outcome JobCall σ α}

theorem result_eq (h : f.SameButCleanup clean clean' o o') : o.result = o'.result := by
  cases h <;> rfl

theorem calls_eq (h : f.SameButCleanup clean clean' o o') :
    Event.calls o.events = Event.calls o'.events := by
  cases h with
  | same _ => rfl
  | cleaned _ _ => simp only [Event.calls_append, calls_cleanupEvents]

theorem statesLogged_eq (h : f.SameButCleanup clean clean' o o')
    (hs : ∀ key s,
      Event.statesLogged (clean key s).events = Event.statesLogged (clean' key s).events) :
    Event.statesLogged o.events = Event.statesLogged o'.events := by
  cases h with
  | same _ => rfl
  | cleaned _ _ => simp only [Event.statesLogged_append, statesLogged_cleanupEvents, hs]

theorem preceded (h : f.SameButCleanup clean clean' o o') {es : List (Event JobCall)}
    (hes : ∀ key, .clean key ∉ Event.calls es) :
    f.SameButCleanup clean clean' (o.preceded es) (o'.preceded es) := by
  cases h with
  | same h =>
      refine .same fun key => ?_
      simp only [Outcome.preceded, Event.calls_append, List.mem_append, not_or]
      exact ⟨hes key, h key⟩
  | cleaned hb ha =>
      simp only [Outcome.preceded, ← List.append_assoc es]
      refine .cleaned (fun key => ?_) ha
      simp only [Event.calls_append, List.mem_append, not_or]
      exact ⟨hes key, hb key⟩

theorem map (h : f.SameButCleanup clean clean' o o') (g : α → β) :
    f.SameButCleanup clean clean' (o.map g) (o'.map g) := by
  cases h with
  | same h => exact .same h
  | cleaned hb ha => exact .cleaned hb ha

/-- What stands after the cleanup may depend on the result. -/
theorem followed (h : f.SameButCleanup clean clean' o o')
    {last : Except Problem α → List (Event JobCall)}
    (hlast : ∀ result, Event.calls (last result) = []) :
    f.SameButCleanup clean clean' ⟨o.events ++ last o.result, o.state, o.result⟩
      ⟨o'.events ++ last o'.result, o'.state, o'.result⟩ := by
  cases h with
  | same h =>
      refine .same fun key => ?_
      rw [Event.calls_append, hlast, List.append_nil]
      exact h key
  | cleaned hb ha =>
      simp only [List.append_assoc]
      refine .cleaned hb ?_
      rw [Event.calls_append, ha, hlast, List.append_nil]

end

theorem around {r r' : Run JobCall σ α} {s : σ}
    (h : f.SameButCleanup clean clean' (r s) (r' s)) (span : Span) :
    f.SameButCleanup clean clean' (span.around r s) (span.around r' s) := by
  have hopening : ∀ key, JobCall.clean key ∉ Event.calls span.opening := by simp
  have hclosing : ∀ result : Except Problem α,
      Event.calls (span.closing result : List (Event JobCall)) = [] := by simp
  exact (h.preceded hopening).followed hclosing

end SameButCleanup

/-! ## Both ends of a job -/

/-- Up to the details no cleanup is called for. -/
theorem sameButCleanup_of_details (f : Finalizer σ) (key : String) (state : JobState)
    (others : Entries Value) {k k' : JobDetails → Run JobCall σ α}
    (h : ∀ d s, f.SameButCleanup clean clean' (k d s) (k' d s)) (s : σ) :
    f.SameButCleanup clean clean'
      (((f.cleanedBy clean).enter key state others >>= fun _ =>
        (f.cleanedBy clean).details key >>= k) s)
      (((f.cleanedBy clean').enter key state others >>= fun _ =>
        (f.cleanedBy clean').details key >>= k') s) := by
  have hrun : ∀ clean, ∀ k : JobDetails → Run JobCall σ α,
      ((f.cleanedBy clean).enter key state others >>= fun _ =>
        (f.cleanedBy clean).details key >>= k) s =
      (f.enter key state others >>= fun _ => f.details key >>= k) s := fun _ _ => rfl
  rw [hrun, hrun]
  cases hd : (f.getDetails key s).result with
  | error p =>
      rw [enter_details_of_error hd, enter_details_of_error hd]
      exact .same (by simp [stateLine])
  | ok d =>
      rw [enter_details_of_ok hd, enter_details_of_ok hd]
      exact (h d _).preceded (by simp [stateLine])

/-- Without an output table there is nothing to be done, and with one all is done in a span. -/
theorem sameButCleanup_of_key {c : JobContext} {operation : String}
    {r r' : Name → Run JobCall σ α} {s : σ}
    (h : ∀ key, f.SameButCleanup clean clean' (r key s) (r' key s)) :
    f.SameButCleanup clean clean'
      ((Run.ofExcept c.key >>= fun key =>
        (Span.jobOperation operation (some key.text) none).around (r key)) s)
      ((Run.ofExcept c.key >>= fun key =>
        (Span.jobOperation operation (some key.text) none).around (r' key)) s) := by
  rcases c.table_cases with hk | ⟨key, hk⟩
  · rw [Run.ofExcept_bind_of_error (JobContext.key_eq_error hk),
      Run.ofExcept_bind_of_error (JobContext.key_eq_error hk)]
    exact .same (by simp)
  · rw [Run.ofExcept_bind_of_ok (JobContext.key_eq_ok hk),
      Run.ofExcept_bind_of_ok (JobContext.key_eq_ok hk)]
    exact (h key).around _

section

variable (f) (hi : ∀ key s, ¬ Interrupted (clean key s).result)
  (hi' : ∀ key s, ¬ Interrupted (clean' key s).result)
include hi hi'

/-- The work of a write method between two log lines. -/
theorem sameButCleanup_of_ends {key : String} {call : JobCall} {last : Event JobCall}
    {worked : Outcome Empty σ Unit} {o o' : Outcome JobCall σ Unit}
    (h : (f.cleanedBy clean).Ends key call last worked o)
    (h' : (f.cleanedBy clean').Ends key call last worked o')
    (hcall : ∀ key, call ≠ .clean key) (hlast : Event.calls [last] = []) :
    f.SameButCleanup clean clean' o o' := by
  rw [h.eq_of_not_interrupted (hi _ _), h'.eq_of_not_interrupted (hi' _ _)]
  refine .cleaned (fun key => ?_) ?_
  · simpa [stateLine] using (hcall key).symm
  · cases worked.result with
    | ok _ => exact hlast
    | error _ => rfl

theorem sameButCleanup_finalize (properties : Entries String) (d : JobDetails) (s : σ) :
    f.SameButCleanup clean clean' ((f.cleanedBy clean).finalize properties d s)
      ((f.cleanedBy clean').finalize properties d s) := by
  rcases WriteMethod.askedFor_cases properties with ⟨m, hm⟩ | ⟨setting, hm, hs⟩
  · obtain ⟨o, ho, hfinal⟩ := (f.cleanedBy clean).ends_of_finalize hm d s
    obtain ⟨o', ho', hfinal'⟩ := (f.cleanedBy clean').ends_of_finalize hm d s
    rw [hfinal, hfinal']
    refine (sameButCleanup_of_ends f hi hi' ho ho' ?_ rfl).preceded ?_
    · intro key h
      cases h
    · simp [stateLine]
  · rw [finalize_of_unknown _ hm hs, finalize_of_unknown _ hm hs]
    exact .same (by simp)

theorem sameButCleanup_undo (properties : Entries String) (d : JobDetails) (s : σ) :
    f.SameButCleanup clean clean' ((f.cleanedBy clean).undo properties d s)
      ((f.cleanedBy clean').undo properties d s) := by
  obtain ⟨o, ho, hfinal⟩ := (f.cleanedBy clean).ends_of_undo properties d s
  obtain ⟨o', ho', hfinal'⟩ := (f.cleanedBy clean').ends_of_undo properties d s
  rw [hfinal, hfinal']
  refine (sameButCleanup_of_ends f hi hi' ho ho' ?_ rfl).preceded ?_
  · intro key h
    cases h
  · simp [stateLine]

theorem sameButCleanup_committing (c : JobContext) (key : Name) (s : σ) :
    f.SameButCleanup clean clean' ((f.cleanedBy clean).committing c key s)
      ((f.cleanedBy clean').committing c key s) := by
  refine sameButCleanup_of_details f key.text .committing _ (fun d s => ?_) s
  rw [Run.bind_pure_eq_map, Run.bind_pure_eq_map]
  exact (sameButCleanup_finalize f hi hi' c.properties d s).map _

theorem sameButCleanup_aborting (c : JobContext) (status : Option Int) (key : Name) (s : σ) :
    f.SameButCleanup clean clean' ((f.cleanedBy clean).aborting c status key s)
      ((f.cleanedBy clean').aborting c status key s) := by
  refine sameButCleanup_of_details f key.text .aborting _ (fun d s => ?_) s
  by_cases hne : d.outputTable ≠ key
  · rw [if_pos hne, if_pos hne]
    exact .same (by simp)
  · rw [if_neg hne, if_neg hne, Run.bind_pure_eq_map, Run.bind_pure_eq_map]
    exact (sameButCleanup_undo f hi hi' c.properties d s).map _

end

/-! ## What jobs come to -/

section

variable {c : JobContext} {s : σ} {key : Name} {d : JobDetails}

theorem commit_result (hi : ∀ key s, ¬ Interrupted (f.clean key s).result) {m : WriteMethod}
    (hk : c.outputTable = some key.text) (hd : (f.getDetails key.text s).result = .ok d)
    (hm : WriteMethod.AskedFor c.properties m) :
    (f.commit c s).result =
      (f.commitJob m c.properties d (f.getDetails key.text s).state).result.map
        fun _ => .committed := by
  obtain ⟨o, ho, hfinal⟩ := f.ends_of_finalize hm d (f.getDetails key.text s).state
  have hcommitting : f.committing c key s = _ := enter_details_of_ok hd _
  rw [commit_eq, Run.ofExcept_bind_of_ok (JobContext.key_eq_ok hk), Span.around_result,
    hcommitting, Run.bind_pure_eq_map, hfinal, ho.eq_of_not_interrupted (hi _ _)]
  rfl

theorem abort_result (hi : ∀ key s, ¬ Interrupted (f.clean key s).result)
    (hk : c.outputTable = some key.text) (hd : (f.getDetails key.text s).result = .ok d)
    (he : d.outputTable = key) (status : Option Int) :
    (f.abort c status s).result =
      (f.abortJob c.properties d (f.getDetails key.text s).state).result.map
        fun _ => .aborted := by
  obtain ⟨o, ho, hfinal⟩ := f.ends_of_undo c.properties d (f.getDetails key.text s).state
  have haborting : f.aborting c status key s = _ := enter_details_of_ok hd _
  rw [abort_eq, Run.ofExcept_bind_of_ok (JobContext.key_eq_ok hk), Span.around_result,
    haborting, if_neg (not_not_intro he), Run.bind_pure_eq_map, hfinal,
    ho.eq_of_not_interrupted (hi _ _)]
  rfl

end

/-- Two outcomes of a job are the same but for the cleanup: the same result, the same calls,
and the same states in the log, as far as the cleanups themselves log the same states. -/
structure SameOutcome (f : Finalizer σ) (clean clean' : String → Run Empty σ Unit)
    (o o' : Outcome JobCall σ α) : Prop where
  result_eq : o.result = o'.result
  calls_eq : Event.calls o.events = Event.calls o'.events
  states_eq : (∀ key s,
      Event.statesLogged (clean key s).events = Event.statesLogged (clean' key s).events) →
    Event.statesLogged o.events = Event.statesLogged o'.events
  but_cleanup : f.SameButCleanup clean clean' o o'

theorem SameButCleanup.sameOutcome {o o' : Outcome JobCall σ α}
    (h : f.SameButCleanup clean clean' o o') : f.SameOutcome clean clean' o o' :=
  ⟨h.result_eq, h.calls_eq, h.statesLogged_eq, h⟩

/-- **The cleanup cannot change what becomes of a job.** For any two cleanups that return or
raise problems as they please, but are not interrupted, a commit comes to the same result with
both of them, and so does an abort, with the same calls, the last one for the same cleanup,
and the same states in the log; beside what the cleanups do themselves, only the warning
about a failed one may differ. What the write method came to, a problem or not, is what the
job comes to. -/
theorem cleanup_changes_no_outcome (f : Finalizer σ) (clean clean' : String → Run Empty σ Unit)
    (hi : ∀ key s, ¬ Interrupted (clean key s).result)
    (hi' : ∀ key s, ¬ Interrupted (clean' key s).result) (c : JobContext)
    (status : Option Int) (s : σ) :
    f.SameOutcome clean clean' ((f.cleanedBy clean).commit c s)
        ((f.cleanedBy clean').commit c s) ∧
      f.SameOutcome clean clean' ((f.cleanedBy clean).abort c status s)
        ((f.cleanedBy clean').abort c status s) ∧
      ∀ key d, c.outputTable = some key.text → (f.getDetails key.text s).result = .ok d →
        (∀ m, WriteMethod.AskedFor c.properties m → ((f.cleanedBy clean).commit c s).result =
          (f.commitJob m c.properties d (f.getDetails key.text s).state).result.map
            fun _ => .committed) ∧
        (d.outputTable = key → ((f.cleanedBy clean).abort c status s).result =
          (f.abortJob c.properties d (f.getDetails key.text s).state).result.map
            fun _ => .aborted) := by
  have hcommit : f.SameButCleanup clean clean' ((f.cleanedBy clean).commit c s)
      ((f.cleanedBy clean').commit c s) :=
    sameButCleanup_of_key fun key => sameButCleanup_committing f hi hi' c key s
  have habort : f.SameButCleanup clean clean' ((f.cleanedBy clean).abort c status s)
      ((f.cleanedBy clean').abort c status s) :=
    sameButCleanup_of_key fun key => sameButCleanup_aborting f hi hi' c status key s
  refine ⟨hcommit.sameOutcome, habort.sameOutcome,
    fun key d hk hd => ⟨fun m hm => ?_, fun he => ?_⟩⟩
  · exact commit_result hi hk hd hm
  · exact abort_result (f := f.cleanedBy clean) hi hk hd he status

/-- One cleanup returns and the other one raises, and in both cases a commit fails with the
problem of its write method and an abort succeeds. -/
theorem failed_cleanup_is_forgotten :
    let d : JobDetails := ⟨⟨"sales.orders", by decide⟩, none, .direct, [], []⟩
    let f : Finalizer Unit :=
      { getDetails := fun _ => Run.done d
        commitJob := fun _ _ _ => Run.fail (.error .runtime "boom")
        abortJob := fun _ _ => Run.done ()
        clean := fun _ => Run.done () }
    let clean : String → Run Empty Unit Unit := fun _ => Run.done ()
    let clean' : String → Run Empty Unit Unit := fun _ => Run.fail (.error .system "busy")
    let c : JobContext := ⟨some "sales.orders", [], none⟩
    ((f.cleanedBy clean').commit c ()).result = .error (.error .runtime "boom") ∧
      ((f.cleanedBy clean').abort c none ()).result = .ok .aborted ∧
      Event.calls ((f.cleanedBy clean).commit c ()).events =
        Event.calls ((f.cleanedBy clean').commit c ()).events ∧
      Event.statesLogged ((f.cleanedBy clean).abort c none ()).events =
        Event.statesLogged ((f.cleanedBy clean').abort c none ()).events := by
  intro d f clean clean' c
  have hi : ∀ key s, ¬ Interrupted (clean key s).result := by
    rintro key s ⟨p, hp, -⟩
    cases hp
  have hi' : ∀ key s, ¬ Interrupted (clean' key s).result := by
    rintro key s ⟨p, hp, hinterrupt⟩
    cases hp
    cases hinterrupt
  obtain ⟨hcommit, habort, hresults⟩ := cleanup_changes_no_outcome f clean clean' hi hi' c none ()
  obtain ⟨hcommitted, haborted⟩ := hresults ⟨"sales.orders", by decide⟩ d rfl rfl
  exact ⟨hcommit.result_eq.symm.trans (hcommitted .direct (.unsaid rfl)),
    habort.result_eq.symm.trans (haborted rfl), hcommit.calls_eq,
    habort.states_eq fun _ _ => rfl⟩

end Finalizer

end LinkedTables
