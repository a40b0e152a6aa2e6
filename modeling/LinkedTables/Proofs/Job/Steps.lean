import LinkedTables.Proofs.Job.Courses

set_option autoImplicit false

/-! # Runs of jobs over files

Jobs come and go over the same files: details are put on record and got, and jobs are
committed and aborted, by whatever stores and engines there are. None of them keeps anything
beside the files, so a run is a list of steps, each with the parent directory that its store
or its engine uses and with what its write methods do.

What a step with an end of a job does is one of two things (`Finishes`): it gets no further
than to the details and leaves the files alone, or one write method works on the details that
were got and the work directory of their table is removed.
-/

namespace LinkedTables

/-- What the write methods of an engine do. -/
structure Strategies where
  /-- Finishes the work of a job. -/
  commitJob : WriteMethod → Entries String → JobDetails → Run Empty Files Unit
  /-- Undoes the work of a job. -/
  abortJob : Entries String → JobDetails → Run Empty Files Unit

/-- What jobs are finalized with below a parent directory. -/
def Strategies.finalizer (strategies : Strategies) (parent : Path) : Finalizer Files :=
  .inFiles (.whole Files) parent strategies.commitJob strategies.abortJob

/-- What is asked for in one step. -/
inductive Act where
  /-- The details of a job are put on record under its output table. -/
  | put (d : JobDetails)
  /-- The details of a job are got from the record. -/
  | get (key : String)
  /-- A job is committed. -/
  | commit (strategies : Strategies) (context : JobContext)
  /-- A job is aborted. -/
  | abort (strategies : Strategies) (context : JobContext) (status : Option Int)

/-- What a step gives back. -/
inductive Answer where
  /-- The details are on record. -/
  | done
  /-- The details of a job. -/
  | details (d : JobDetails)
  /-- A job has come to its last state. -/
  | ended (state : JobState)

/-- One step of a run, below a parent directory. -/
structure JobStep where
  /-- The parent directory of the work directories. -/
  parent : Path
  /-- What is asked for. -/
  act : Act

namespace JobStep

/-- The store that a step uses. -/
def store (step : JobStep) : DetailsStore Files := .inFiles step.parent .shared

/-- Does what a step asks for. -/
def perform (step : JobStep) : Run JobCall Files Answer :=
  match step.act with
  | .put d => do
    Run.calling (.putDetails d.outputTable.text) (step.store.put d.outputTable.text d)
    return .done
  | .get key => do
    let d ← Run.calling (.getDetails key) (step.store.get key)
    return .details d
  | .commit strategies context => do
    let state ← (strategies.finalizer step.parent).commit context
    return .ended state
  | .abort strategies context status => do
    let state ← (strategies.finalizer step.parent).abort context status
    return .ended state

/-- The context of a step that ends a job. -/
def ending? (step : JobStep) : Option JobContext :=
  match step.act with
  | .commit _ context | .abort _ context _ => some context
  | _ => none

end JobStep

/-! ## What puts and gets do -/

theorem DetailsStore.put_onDisk (disk : Disk) (parent : Path) (channel : Channel) (key : String)
    (d : JobDetails) (files : Files) :
    ∃ events, (DetailsStore.onDisk disk parent channel).put key d files =
      ⟨events, (DetailsStore.writeDetailsOn disk parent files key d).2,
        (DetailsStore.writeDetailsOn disk parent files key d).1⟩ := by
  simp only [onDisk, Run.bind_apply, Run.access]
  generalize DetailsStore.writeDetailsOn disk parent files key d = written
  obtain ⟨p | _, files'⟩ := written
  · exact ⟨_, rfl⟩
  · exact ⟨_, rfl⟩

theorem DetailsStore.put_inFiles (parent : Path) (channel : Channel) (key : String)
    (d : JobDetails) (files : Files) :
    ∃ events, (DetailsStore.inFiles parent channel).put key d files =
      ⟨events, (DetailsStore.writeDetails parent files key d).2,
        (DetailsStore.writeDetails parent files key d).1⟩ :=
  put_onDisk .sound parent channel key d files

namespace JobStep

variable (parent : Path) (files : Files)

theorem perform_put (d : JobDetails) :
    ∃ events, perform ⟨parent, .put d⟩ files =
        ⟨events, (DetailsStore.writeDetails parent files d.outputTable.text d).2,
          (DetailsStore.writeDetails parent files d.outputTable.text d).1.map fun _ => .done⟩ ∧
      Event.calls events = [.putDetails d.outputTable.text] := by
  obtain ⟨events, hput⟩ :=
    DetailsStore.put_inFiles parent .shared d.outputTable.text d files
  have hperform : perform ⟨parent, .put d⟩ files =
      (Run.calling (.putDetails d.outputTable.text)
        ((DetailsStore.inFiles parent .shared).put d.outputTable.text d) >>=
          fun _ => pure .done) files := rfl
  rw [Run.bind_pure_apply, Run.calling_apply, hput] at hperform
  exact ⟨_, hperform, by simp⟩

theorem perform_get (key : String) :
    perform ⟨parent, .get key⟩ files = ⟨[.called (.getDetails key)], files,
      (DetailsStore.readDetails parent files key).map .details⟩ := by
  have hperform : perform ⟨parent, .get key⟩ files =
      (Run.calling (.getDetails key) ((DetailsStore.inFiles parent .shared).get key) >>=
        fun d => pure (.details d)) files := rfl
  rw [hperform, Run.bind_pure_apply]
  rfl

end JobStep

/-- A call that has a write method finish or undo the work of a job. -/
def JobCall.isDispatch : JobCall → Bool
  | .commitJob .. | .abortJob .. => true
  | _ => false

/-- A step that was done, with the files before it and what came of it. -/
structure DoneStep where
  /-- The step. -/
  step : JobStep
  /-- The files before the step. -/
  before : Files
  /-- What the step left behind. -/
  outcome : Outcome JobCall Files Answer

/-- What comes of steps that are done one after the other. -/
def performed : List JobStep → Files → List DoneStep
  | [], _ => []
  | step :: steps, files =>
    let outcome := step.perform files
    ⟨step, files, outcome⟩ :: performed steps outcome.state

namespace DoneStep

/-- A write method was called to finish or to undo the work of a job. -/
def Dispatches (z : DoneStep) : Prop :=
  ∃ call ∈ Event.calls z.outcome.events, call.isDispatch = true

/-- Details were got from the work directory of a name. -/
def ReadsFrom (z : DoneStep) (n : String) : Prop :=
  ∃ key, .getDetails key ∈ Event.calls z.outcome.events ∧ WorkDir.name key = n

/-- A record was put into the work directory of a name. -/
def PutsInto (z : DoneStep) (n : String) : Prop :=
  ∃ d, z.step.act = .put d ∧ WorkDir.name d.outputTable.text = n ∧ z.outcome.result = .ok .done

end DoneStep

/-! ## What an end of a job does -/

namespace Finalizer

variable {σ : Type} (f : Finalizer σ)

/-- What an end of a job does to the files and what it calls. -/
inductive Finishes (c : JobContext) (s : σ) {α : Type} (o : Outcome JobCall σ α) : Prop
  | unnamed (hc : Event.calls o.events = []) (hs : o.state = s)
  | idle {key : Name} (hk : c.outputTable = some key.text)
      (hc : Event.calls o.events = [.getDetails key.text])
      (hs : o.state = (f.getDetails key.text s).state)
  | worked {key : Name} {d : JobDetails} {call : JobCall} {work : Run Empty σ Unit}
      (hk : c.outputTable = some key.text) (hd : (f.getDetails key.text s).result = .ok d)
      (hcall : (∃ m, call = .commitJob m c.properties d ∧ work = f.commitJob m c.properties d) ∨
        call = .abortJob c.properties d ∧ work = f.abortJob c.properties d)
      (hc : Event.calls o.events = [.getDetails key.text, call, .clean d.outputTable.text])
      (hs : o.state =
        (f.clean d.outputTable.text (work (f.getDetails key.text s).state).state).state)

variable {f} {c : JobContext} {s : σ}

theorem Ends.state_eq {key : String} {call : JobCall} {last : Event JobCall}
    {worked : Outcome Empty σ Unit} {o : Outcome JobCall σ Unit}
    (h : f.Ends key call last worked o) : o.state = (f.clean key worked.state).state := by
  cases h with
  | finished hc _ _ | failed hc _ _ | interrupted hc _ _ => rw [hc]

theorem finishes_commit (c : JobContext) (s : σ) : f.Finishes c s (f.commit c s) := by
  obtain ⟨course, h⟩ := f.exists_commits c s
  generalize f.commit c s = o at h
  cases h with
  | noTable _ => exact .unnamed rfl rfl
  | noDetails hk hg _ | unknownMethod hk hg _ _ _ =>
      subst hg
      exact .idle hk (by simp [spanned, committingLine, stateLine]) rfl
  | dispatched hk hg hd hm ho =>
      subst hg
      exact .worked hk hd (.inl ⟨_, rfl, rfl⟩)
        (by simp [spanned, committingLine, stateLine, ho.calls_eq]) ho.state_eq

theorem finishes_abort (c : JobContext) (status : Option Int) (s : σ) :
    f.Finishes c s (f.abort c status s) := by
  obtain ⟨course, h⟩ := f.exists_aborts c status s
  generalize f.abort c status s = o at h
  cases h with
  | noTable _ => exact .unnamed rfl rfl
  | noDetails hk hg _ | mismatch hk hg _ _ =>
      subst hg
      exact .idle hk (by simp [spanned, abortingLine, stateLine]) rfl
  | undone hk hg hd he ho =>
      subst hg
      subst he
      exact .worked hk hd (.inr ⟨rfl, rfl⟩)
        (by simp [spanned, abortingLine, stateLine, ho.calls_eq]) ho.state_eq

/-- Where there is only one job to be ended, there is only one key. -/
theorem key_unique {key key' : Name} (hk : c.outputTable = some key.text)
    (hk' : c.outputTable = some key'.text) : key' = key :=
  Name.ext (Option.some.inj (hk'.symm.trans hk))

/-- A commit that can get the details of its job has the write method work on them that the
properties ask for. -/
theorem commits_dispatched {key : Name} {d : JobDetails} {m : WriteMethod}
    (hk : c.outputTable = some key.text) (hd : (f.getDetails key.text s).result = .ok d)
    (hm : WriteMethod.AskedFor c.properties m) :
    ∃ o, f.Ends d.outputTable.text (.commitJob m c.properties d)
        (f.stateLine d.outputTable.text .committed [("write_method", .text m.word)])
        (f.commitJob m c.properties d (f.getDetails key.text s).state) o ∧
      f.commit c s = spanned "commit" key
        ⟨f.committingLine c key.text ::
            (f.getDetails key.text s).ofCall (.getDetails key.text) ++
          f.stateLine d.outputTable.text .strategyDispatch [("write_method", .text m.word)] ::
            o.events, o.state, o.result.map fun _ => .committed⟩ := by
  obtain ⟨course, h⟩ := f.exists_commits c s
  generalize f.commit c s = o at h
  cases h with
  | noTable h => simp [hk, key.nonempty] at h
  | noDetails hk' hg hp =>
      subst hg
      obtain rfl := key_unique hk hk'
      rw [hd] at hp
      cases hp
  | unknownMethod hk' hg _ hset hs =>
      have hknown := hm.ofProperties_eq
      rw [WriteMethod.ofProperties_eq_unknown hset hs] at hknown
      cases hknown
  | dispatched hk' hg hd' hm' ho =>
      subst hg
      obtain rfl := key_unique hk hk'
      obtain rfl := Except.ok.inj (hd'.symm.trans hd)
      obtain rfl := Except.ok.inj (hm'.ofProperties_eq.symm.trans hm.ofProperties_eq)
      exact ⟨_, ho, rfl⟩

theorem calls_commit {key : Name} {d : JobDetails} {m : WriteMethod}
    (hk : c.outputTable = some key.text)
    (hd : (f.getDetails key.text s).result = .ok d) (hm : WriteMethod.AskedFor c.properties m) :
    Event.calls (f.commit c s).events =
      [.getDetails key.text, .commitJob m c.properties d, .clean d.outputTable.text] := by
  obtain ⟨o, ho, hcommit⟩ := commits_dispatched hk hd hm
  rw [hcommit]
  simp [spanned, committingLine, stateLine, ho.calls_eq]

/-- An answer that is only wrapped changes nothing of what was done. -/
theorem Finishes.bind_pure {α β : Type} {r : Run JobCall σ α} (h : f.Finishes c s (r s))
    (g : α → β) : f.Finishes c s ((r >>= fun a => pure (g a)) s) := by
  rw [Run.bind_pure_apply]
  cases h with
  | unnamed hc hs => exact .unnamed hc hs
  | idle hk hc hs => exact .idle hk hc hs
  | worked hk hd hcall hc hs => exact .worked hk hd hcall hc hs

end Finalizer

/-- A commit that can get the details of its job calls a write method. -/
theorem JobStep.calls_perform_commit {strategies : Strategies} {parent : Path} {files : Files}
    {c : JobContext} {key : Name} {d : JobDetails} {m : WriteMethod}
    (hk : c.outputTable = some key.text)
    (hd : DetailsStore.readDetails parent files key.text = .ok d)
    (hm : WriteMethod.AskedFor c.properties m) :
    Event.calls (perform ⟨parent, .commit strategies c⟩ files).events =
      [.getDetails key.text, .commitJob m c.properties d, .clean d.outputTable.text] := by
  have hperform : perform ⟨parent, .commit strategies c⟩ files =
      ((strategies.finalizer parent).commit c >>= fun state => pure (.ended state)) files := rfl
  rw [hperform, Run.bind_pure_apply]
  exact @Finalizer.calls_commit _ (strategies.finalizer parent) c files key d m hk hd hm

end LinkedTables
