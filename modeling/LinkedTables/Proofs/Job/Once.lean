import LinkedTables.Proofs.Job.Directories
import LinkedTables.Proofs.Job.Steps

set_option autoImplicit false

/-! # Jobs are ended once per record

A record is put into a work directory, a commit or an abort reads it and calls a write
method, and then the directory is removed with the record in it. So between two calls of
write methods by what was read from one work directory there is a step that puts a record
into that directory (`dispatched_once`), whatever the steps and in whatever order, as long as
the write methods leave the parent directory alone.

Two things carry this through a run. The records on file are under the names of their own
tables (`Orderly`), so that what is removed is the directory that was read. And what could be
read can be removed (`Reached`).
-/

namespace LinkedTables

open Files

namespace WorkDir

/-! ## Files with records -/

/-- The name of some work directory. -/
def IsWorkName (n : String) : Prop := ∃ key, n = name key

/-- Work directories at one place, in which the records are those of their own jobs. -/
structure Orderly (parents : Path → Prop) (top : List String) (names : String → Prop)
    (files : Files) : Prop extends Tidy parents top names files where
  own : ∀ n content d, names n → record? top files n = some content →
    DetailsStore.ofBytes content = .ok d → name d.outputTable.text = n

/-- What is done leaves alone what is below the place of the parent directory, and the ways
of the parent's paths to it. -/
structure Spares (parents : Path → Prop) (top : List String) (files files' : Files) : Prop where
  below : ∀ q, top <+: q → files'.stands? q = files.stands? q
  way : ∀ parent links, parents parent → Aims files mostLinks [] parent.names links top →
    Aims files' mostLinks [] parent.names links top
  leads : ∀ parent links, parents parent →
    Leads files (fun _ => True) mostLinks [] parent.names links top →
      Leads files' (fun _ => True) mostLinks [] parent.names links top

variable {parents : Path → Prop} {top : List String} {names : String → Prop}
  {files files' : Files} {parent : Path} {key : String}

theorem Spares.refl (files : Files) : Spares parents top files files :=
  ⟨fun _ _ => rfl, fun _ _ _ h => h, fun _ _ _ h => h⟩

theorem Spares.record?_eq (h : Spares parents top files files') (n : String) :
    record? top files' n = record? top files n := by
  rw [record?, record?, h.below _ (List.prefix_append top _)]

theorem Orderly.spared (h : Orderly parents top names files)
    (hs : Spares parents top files files') : Orderly parents top names files' where
  way parent hp := by
    obtain ⟨links, haims⟩ := h.way parent hp
    exact ⟨links, hs.way parent links hp haims⟩
  plain place target hl n hn hbelow := by
    have hin : top <+: place := (List.prefix_append top [n]).trans hbelow
    rw [hs.below place hin] at hl
    exact h.plain place target hl n hn hbelow
  own n content d hn hrecord := by
    rw [hs.record?_eq] at hrecord
    exact h.own n content d hn hrecord

theorem Reached.spared (h : Reached parent top files key) (hp : parents parent)
    (hs : Spares parents top files files') : Reached parent top files' key where
  leads := by
    obtain ⟨links, hleads⟩ := h.leads
    exact ⟨links, hs.leads parent links hp hleads⟩
  noFault := h.noFault
  passable := h.passable
  stands := (hs.below _ (List.prefix_append top _)).trans h.stands

/-! ## What the steps do to the records -/

theorem Orderly.writeDetails (h : Orderly parents top names files) (hp : parents parent)
    {d : JobDetails} (hn : names (name d.outputTable.text)) :
    Orderly parents top names
      (DetailsStore.writeDetails parent files d.outputTable.text d).2 where
  toTidy := h.toTidy.writeDetails hp hn d
  own n content d' hn' hrecord hread := by
    obtain ⟨_, -, hsame⟩ | ⟨-, hput⟩ := h.toTidy.record?_writeDetails hp hn d
    · rw [hsame] at hrecord
      exact h.own n content d' hn' hrecord hread
    · rw [hput] at hrecord
      split at hrecord
      · next hname =>
          obtain rfl := Option.some.inj hrecord
          rw [DetailsStore.ofBytes_toIndentedText] at hread
          obtain rfl := Except.ok.inj hread
          exact hname.symm
      · exact h.own n content d' hn' hrecord hread

/-- **Once a write method has worked on a record the record is gone**, and all others are as
they were. -/
theorem Orderly.worked (h : Orderly parents top names files) (hp : parents parent)
    (hn : names (name key)) {d : JobDetails}
    (hd : DetailsStore.readDetails parent files key = .ok d)
    (hs : Spares parents top files files') (channel : Channel) :
    Orderly parents top names (clean parent channel d.outputTable.text files').state ∧
      record? top files (name key) ≠ none ∧
      ∀ m, record? top (clean parent channel d.outputTable.text files').state m =
        if m = name key then none else record? top files m := by
  obtain ⟨content, hload, hread⟩ := exists_load hd
  have hrecord := h.toTidy.record?_of_load hp hn hload
  have hname : name d.outputTable.text = name key := h.own _ content d hn hrecord hread
  have hspared := h.spared hs
  have hremoved := ((h.toTidy.reached_of_load hp hn hload).spared hp hs).removed
  have hrecords : ∀ m, record? top (clean parent channel d.outputTable.text files').state m =
      if m = name key then none else record? top files m := by
    intro m
    have hclean := hspared.toTidy.record?_clean hp (hname ▸ hn) channel
    by_cases hm : m = name key
    · rw [if_pos hm, hm, ← hname]
      rw [path, ← hname, ← path] at hremoved
      exact hclean.2 hremoved
    · rw [if_neg hm, hclean.1 m (by rwa [hname]), hs.record?_eq]
  refine ⟨⟨hspared.toTidy.clean hp (hname ▸ hn) channel, fun n content d hn hsome => ?_⟩,
    by simp [hrecord], hrecords⟩
  rw [hrecords] at hsome
  split at hsome
  · cases hsome
  · exact h.own n content d hn hsome

end WorkDir

/-! ## Steps -/

open WorkDir

/-- Write methods that leave the parent directory alone. -/
structure Strategies.Spare (strategies : Strategies) (parents : Path → Prop)
    (top : List String) : Prop where
  commitJob : ∀ m properties d files,
    Spares parents top files (strategies.commitJob m properties d files).state
  abortJob : ∀ properties d files,
    Spares parents top files (strategies.abortJob properties d files).state

namespace JobStep

/-- A step below the parent directory, whose write methods leave that directory alone. -/
def Spare (step : JobStep) (parents : Path → Prop) (top : List String) : Prop :=
  parents step.parent ∧
    match step.act with
    | .commit strategies _ | .abort strategies _ _ => strategies.Spare parents top
    | _ => True

/-- What a step does to the records in the work directories: a put changes one of them or
none, an end of a job removes the one that a write method worked on, and everything else
leaves the files alone. -/
inductive Effect (top : List String) (step : JobStep) (files : Files)
    (o : Outcome JobCall Files Answer) : Prop
  | refused {d : JobDetails} {p : Problem} (ha : step.act = .put d)
      (hc : Event.calls o.events = [.putDetails d.outputTable.text]) (hr : o.result = .error p)
      (hrecords : ∀ m, record? top o.state m = record? top files m)
  | put {d : JobDetails} (ha : step.act = .put d)
      (hc : Event.calls o.events = [.putDetails d.outputTable.text]) (hr : o.result = .ok .done)
      (hrecords : ∀ m, record? top o.state m =
        if m = name d.outputTable.text then some d.toIndentedText.toUTF8 else record? top files m)
  | idle (hc : ∀ call ∈ Event.calls o.events, call.isDispatch = false) (hs : o.state = files)
  | worked {c : JobContext} {key : Name} {d : JobDetails} {call : JobCall}
      (he : step.ending? = some c) (hk : c.outputTable = some key.text)
      (hd : DetailsStore.readDetails step.parent files key.text = .ok d)
      (hcall : call.isDispatch = true)
      (hc : Event.calls o.events = [.getDetails key.text, call, .clean d.outputTable.text])
      (hbefore : record? top files (name key.text) ≠ none)
      (hrecords : ∀ m, record? top o.state m =
        if m = name key.text then none else record? top files m)

variable {parents : Path → Prop} {top : List String} {files : Files} {step : JobStep}

theorem effect_of_finishes {strategies : Strategies} {c : JobContext}
    {o : Outcome JobCall Files Answer} (h : Orderly parents top IsWorkName files)
    (hp : parents step.parent) (he : step.ending? = some c)
    (hs : strategies.Spare parents top)
    (ho : (strategies.finalizer step.parent).Finishes c files o) :
    Orderly parents top IsWorkName o.state ∧ Effect top step files o := by
  cases ho with
  | unnamed hc hstate => exact ⟨hstate ▸ h, .idle (by simp [hc]) hstate⟩
  | idle hk hc hstate =>
      refine ⟨hstate ▸ h, .idle ?_ hstate⟩
      simp [hc, JobCall.isDispatch]
  | @worked key d call work hk hd hcall hc hstate =>
      have hspares : Spares parents top files (work files).state := by
        rcases hcall with ⟨m, -, rfl⟩ | ⟨-, rfl⟩
        · exact hs.commitJob m c.properties d files
        · exact hs.abortJob c.properties d files
      have hdispatch : call.isDispatch = true := by
        rcases hcall with ⟨m, rfl, -⟩ | ⟨rfl, -⟩ <;> rfl
      obtain ⟨horderly, hbefore, hrecords⟩ :=
        h.worked hp ⟨key.text, rfl⟩ hd hspares .shared
      have hafter : o.state = (clean step.parent .shared d.outputTable.text
          (work files).state).state := hstate
      rw [← hafter] at horderly hrecords
      exact ⟨horderly, .worked he hk hd hdispatch hc hbefore hrecords⟩

/-- **Every step** keeps the records under the names of their own tables, and has one of the
effects that a step can have. -/
theorem effect (h : Orderly parents top IsWorkName files) (hs : step.Spare parents top) :
    Orderly parents top IsWorkName (step.perform files).state ∧
      Effect top step files (step.perform files) := by
  obtain ⟨parent, act⟩ := step
  obtain ⟨hp, hact⟩ := hs
  cases act with
  | put d =>
      have hn : IsWorkName (name d.outputTable.text) := ⟨_, rfl⟩
      obtain ⟨events, hperform, hc⟩ := perform_put parent files d
      rw [hperform]
      refine ⟨h.writeDetails hp hn, ?_⟩
      obtain ⟨p, hr, hsame⟩ | ⟨hr, hput⟩ := h.toTidy.record?_writeDetails hp hn d
      · exact .refused rfl hc (by rw [hr]; rfl) hsame
      · exact .put rfl hc (by rw [hr]; rfl) hput
  | get key =>
      rw [perform_get]
      exact ⟨h, .idle (by simp [JobCall.isDispatch]) rfl⟩
  | commit strategies c =>
      exact effect_of_finishes h hp rfl hact
        ((Finalizer.finishes_commit c files).bind_pure Answer.ended)
  | abort strategies c status =>
      exact effect_of_finishes h hp rfl hact
        ((Finalizer.finishes_abort c status files).bind_pure Answer.ended)

end JobStep

/-! ## Runs -/

section

variable {parents : Path → Prop} {top : List String} {files : Files} {steps : List JobStep}

/-- What was done after the first steps is what the other steps do then. -/
theorem exists_performed {us ws : List DoneStep} (h : Orderly parents top IsWorkName files)
    (hs : ∀ step ∈ steps, step.Spare parents top) (hp : performed steps files = us ++ ws) :
    ∃ steps' files', Orderly parents top IsWorkName files' ∧
      (∀ step ∈ steps', step.Spare parents top) ∧ ws = performed steps' files' := by
  induction us generalizing steps files with
  | nil => exact ⟨steps, files, h, hs, hp.symm⟩
  | cons u us ih =>
      cases steps with
      | nil => cases hp
      | cons step steps =>
          rw [List.forall_mem_cons] at hs
          obtain ⟨-, hrest⟩ := List.cons.inj hp
          exact ih (JobStep.effect h hs.1).1 hs.2 hrest

/-- What the next step was and what it did. -/
theorem effect_of_performed {z : DoneStep} {ws : List DoneStep}
    (h : Orderly parents top IsWorkName files) (hs : ∀ step ∈ steps, step.Spare parents top)
    (hp : z :: ws = performed steps files) :
    parents z.step.parent ∧ z.before = files ∧
      Orderly parents top IsWorkName z.outcome.state ∧
      JobStep.Effect top z.step z.before z.outcome ∧
      ∃ steps', (∀ step ∈ steps', step.Spare parents top) ∧
        ws = performed steps' z.outcome.state := by
  cases steps with
  | nil => cases hp
  | cons step steps =>
      rw [List.forall_mem_cons] at hs
      obtain ⟨rfl, rfl⟩ := List.cons.inj hp
      obtain ⟨horderly, heffect⟩ := JobStep.effect h hs.1
      exact ⟨hs.1.1, rfl, horderly, heffect, steps, hs.2, rfl⟩

end

section

variable {parents : Path → Prop} {top : List String} {files : Files} {steps : List JobStep}
  {z : DoneStep} {n : String}

/-- A record comes to a work directory only when one is put there. -/
theorem JobStep.Effect.record?_none (he : JobStep.Effect top z.step z.before z.outcome)
    (hn : record? top z.before n = none) (hput : ¬ z.PutsInto n) :
    record? top z.outcome.state n = none := by
  cases he with
  | refused _ _ _ hrecords => rw [hrecords, hn]
  | put ha _ hr hrecords =>
      rw [hrecords, if_neg (fun hname => hput ⟨_, ha, hname.symm, hr⟩), hn]
  | idle _ hs => rw [hs, hn]
  | worked _ _ _ _ _ _ hrecords => rw [hrecords, hn, ite_self]

/-- A write method works on a record that is there, and then it is gone. -/
theorem JobStep.Effect.of_dispatches (he : JobStep.Effect top z.step z.before z.outcome)
    (hd : z.Dispatches) (hr : z.ReadsFrom n) :
    record? top z.before n ≠ none ∧ record? top z.outcome.state n = none := by
  obtain ⟨call, hmem, hcall⟩ := hd
  obtain ⟨key, hget, rfl⟩ := hr
  cases he with
  | refused _ hc _ _ | put _ hc _ _ =>
      rw [hc, List.mem_singleton] at hmem
      subst hmem
      cases hcall
  | idle hc _ => rw [hc call hmem] at hcall; cases hcall
  | @worked c key' d call' _ _ _ hdispatch hc hbefore hrecords =>
      rw [hc] at hget
      have hkey : key = key'.text := by
        rcases hget with _ | ⟨_, _ | ⟨_, _ | ⟨_, hnil⟩⟩⟩
        · rfl
        · cases hdispatch
        · cases hnil
      subst hkey
      exact ⟨hbefore, by rw [hrecords, if_pos rfl]⟩

/-- As long as no record is put into a work directory there is none. -/
theorem record?_none_before {vs ws : List DoneStep}
    (h : Orderly parents top IsWorkName files) (hs : ∀ step ∈ steps, step.Spare parents top)
    (hp : performed steps files = vs ++ z :: ws) (hn : record? top files n = none)
    (hput : ∀ v ∈ vs, ¬ v.PutsInto n) : record? top z.before n = none := by
  induction vs generalizing steps files with
  | nil =>
      obtain ⟨-, hbefore, -⟩ := effect_of_performed h hs hp.symm
      rw [hbefore, hn]
  | cons v vs ih =>
      rw [List.forall_mem_cons] at hput
      obtain ⟨-, hbefore, horderly, heffect, steps', hs', hrest⟩ :=
        effect_of_performed h hs hp.symm
      exact ih horderly hs' hrest.symm (heffect.record?_none (hbefore ▸ hn) hput.1) hput.2

/-- Details can be got for a key. -/
def OnRecord (parent : Path) (files : Files) (key : String) : Prop :=
  ∃ d, DetailsStore.readDetails parent files key = .ok d

theorem not_onRecord {key : String} {parent : Path} (h : Orderly parents top IsWorkName files)
    (hp : parents parent) (hn : record? top files (name key) = none) :
    ¬ OnRecord parent files key := by
  rintro ⟨d, hd⟩
  obtain ⟨content, hload, -⟩ := exists_load hd
  rw [h.toTidy.record?_of_load hp ⟨key, rfl⟩ hload] at hn
  cases hn

/-- An end of a job removes the record that it read if and only if a write method was
called, and then one was; otherwise it leaves the files alone. -/
theorem JobStep.Effect.ends {c : JobContext} (hp : parents z.step.parent)
    (h : Orderly parents top IsWorkName z.outcome.state)
    (he : JobStep.Effect top z.step z.before z.outcome) (hc : z.step.ending? = some c) :
    ((Event.calls z.outcome.events).filter JobCall.isDispatch).length ≤ 1 ∧
      (z.Dispatches ↔ ∃ key, c.outputTable = some key ∧
        OnRecord z.step.parent z.before key ∧ ¬ OnRecord z.step.parent z.outcome.state key) ∧
      (¬ z.Dispatches → z.outcome.state = z.before) := by
  have hnoput (d : JobDetails) (ha : z.step.act = .put d) : False := by
    rw [JobStep.ending?, ha] at hc
    cases hc
  cases he with
  | refused ha _ _ _ | put ha _ _ _ => exact (hnoput _ ha).elim
  | idle hcalls hs =>
      have hnone : ¬ z.Dispatches := by
        rintro ⟨call, hmem, hcall⟩
        rw [hcalls call hmem] at hcall
        cases hcall
      refine ⟨?_, ⟨fun hd => absurd hd hnone, ?_⟩, fun _ => hs⟩
      · rw [List.filter_eq_nil_iff.mpr fun call hmem => by simp [hcalls call hmem]]
        exact Nat.zero_le 1
      · rintro ⟨key, -, hbefore, hafter⟩
        rw [hs] at hafter
        exact absurd hbefore hafter
  | @worked c' key d call hc' hk hd hcall hcalls _ hrecords =>
      obtain rfl := Option.some.inj (hc'.symm.trans hc)
      have hdispatches : z.Dispatches := ⟨call, by simp [hcalls], hcall⟩
      have hafter := not_onRecord h hp ((hrecords (name key.text)).trans (if_pos rfl))
      refine ⟨?_, ⟨fun _ => ⟨key.text, hk, ⟨d, hd⟩, hafter⟩, fun _ => hdispatches⟩,
        fun hno => absurd hdispatches hno⟩
      rw [hcalls, List.filter_cons_of_neg Bool.false_ne_true, List.filter_cons_of_pos hcall,
        List.filter_cons_of_neg Bool.false_ne_true, List.filter_nil, List.length_singleton]

/-- **Jobs are ended once per record.** In every run over the same parent directory, whatever
paths lead to it and whatever the write methods come to:

* an end of a job calls one write method at most, and it removes the record that it read if
  and only if it has called one; otherwise the files are as they were;
* between two calls of write methods by what was read from one work directory there is a
  step that put a record into that directory. -/
theorem dispatched_once (h : Orderly parents top IsWorkName files)
    (hs : ∀ step ∈ steps, step.Spare parents top) :
    (∀ z ∈ performed steps files, ∀ c, z.step.ending? = some c →
      ((Event.calls z.outcome.events).filter JobCall.isDispatch).length ≤ 1 ∧
      (z.Dispatches ↔ ∃ key, c.outputTable = some key ∧
        OnRecord z.step.parent z.before key ∧ ¬ OnRecord z.step.parent z.outcome.state key) ∧
      (¬ z.Dispatches → z.outcome.state = z.before)) ∧
    ∀ us x vs y ws n, performed steps files = us ++ x :: (vs ++ y :: ws) →
      x.Dispatches → x.ReadsFrom n → y.Dispatches → y.ReadsFrom n →
      ∃ z ∈ vs, z.PutsInto n := by
  constructor
  · intro z hz c hc
    obtain ⟨us, ws, hsplit⟩ := List.append_of_mem hz
    obtain ⟨steps', files', h', hs', hrest⟩ := exists_performed h hs hsplit
    obtain ⟨hp, -, horderly, heffect, -⟩ := effect_of_performed h' hs' hrest
    exact heffect.ends hp horderly hc
  · intro us x vs y ws n hsplit hx hxn hy hyn
    obtain ⟨steps₁, files₁, h₁, hs₁, hrest⟩ := exists_performed h hs hsplit
    obtain ⟨-, -, hafter, hxeffect, steps₂, hs₂, hrest'⟩ := effect_of_performed h₁ hs₁ hrest
    have hgone := (hxeffect.of_dispatches hx hxn).2
    by_contra hput
    -- Without a put the record is still gone when the second write method is called.
    have hnone : record? top y.before n = none := by
      refine record?_none_before hafter hs₂ hrest'.symm hgone fun z hz hzn => ?_
      exact hput ⟨z, hz, hzn⟩
    obtain ⟨steps₃, files₃, h₃, hs₃, hrest''⟩ := exists_performed hafter hs₂ hrest'.symm
    obtain ⟨-, -, -, hyeffect, -⟩ := effect_of_performed h₃ hs₃ hrest''
    exact (hyeffect.of_dispatches hy hyn).1 hnone

end

/-- In an empty place a job is put on record and committed, put on record again by another
path of the parent, and aborted by write methods that fail. -/
theorem dispatched_once_from_nothing :
    let parents : Path → Prop := fun p => p = ⟨0, ["w"]⟩ ∨ p = ⟨0, ["w", "..", "w"]⟩
    let d : JobDetails := ⟨⟨"db.t", by decide⟩, none, .direct, [], []⟩
    let c : JobContext := ⟨some "db.t", [], none⟩
    let quiet : Strategies := ⟨fun _ _ _ => Run.done (), fun _ _ => Run.done ()⟩
    let failing : Strategies :=
      ⟨fun _ _ _ => Run.fail (.error .runtime "boom"), fun _ _ => Run.fail (.error .runtime "boom")⟩
    let steps : List JobStep := [⟨⟨0, ["w"]⟩, .put d⟩, ⟨⟨0, ["w"]⟩, .commit quiet c⟩,
      ⟨⟨0, ["w", "..", "w"]⟩, .put d⟩, ⟨⟨0, ["w"]⟩, .abort failing c none⟩]
    Orderly parents ["w"] IsWorkName [] ∧ (∀ step ∈ steps, step.Spare parents ["w"]) ∧
      (∃ x y rest, performed steps [] = x :: y :: rest ∧ x.PutsInto (name "db.t") ∧
        y.Dispatches ∧ y.ReadsFrom (name "db.t")) ∧
      ∀ us x vs y ws n, performed steps [] = us ++ x :: (vs ++ y :: ws) →
        x.Dispatches → x.ReadsFrom n → y.Dispatches → y.ReadsFrom n →
        ∃ z ∈ vs, z.PutsInto n := by
  intro parents d c quiet failing steps
  have hnothing (here : List String) (name target : String) :
      stands? [] (here ++ [name]) ≠ some (.link target) := by simp [stands?_empty]
  have hfiles : Orderly parents ["w"] IsWorkName [] := by
    refine ⟨⟨?_, fun place target hl => ?_⟩, fun n content d _ hrecord => ?_⟩
    · rintro parent (rfl | rfl)
      · exact ⟨_, .into (by decide) (hnothing _ _) (.done _ _)⟩
      · exact ⟨_, .into (by decide) (hnothing _ _)
          (.up (.into (by decide) (hnothing _ _) (.done _ _)))⟩
    · rw [stands?_empty] at hl
      cases hl
    · rw [record?, stands?_empty] at hrecord
      cases hrecord
  have hsteps : ∀ step ∈ steps, step.Spare parents ["w"] := by
    intro step hstep
    simp only [steps, List.mem_cons, List.not_mem_nil, or_false] at hstep
    rcases hstep with rfl | rfl | rfl | rfl
    · exact ⟨.inl rfl, trivial⟩
    · exact ⟨.inl rfl, fun _ _ _ files => .refl files, fun _ _ files => .refl files⟩
    · exact ⟨.inr rfl, trivial⟩
    · exact ⟨.inl rfl, fun _ _ _ files => .refl files, fun _ _ files => .refl files⟩
  have hput : (DetailsStore.writeDetails ⟨0, ["w"]⟩ [] "db.t" d).1 = .ok () := rfl
  have hread : DetailsStore.readDetails ⟨0, ["w"]⟩
      (DetailsStore.writeDetails ⟨0, ["w"]⟩ [] "db.t" d).2 "db.t" = .ok d.settled :=
    readDetails_of_writeDetails hput
  have hcommitted : ∃ x y rest, performed steps [] = x :: y :: rest ∧
      x.PutsInto (name "db.t") ∧ y.Dispatches ∧ y.ReadsFrom (name "db.t") := by
    obtain ⟨events, hperform, -⟩ := JobStep.perform_put ⟨0, ["w"]⟩ [] d
    have hcalls :=
      @JobStep.calls_perform_commit quiet _ _ c d.outputTable _ _ rfl hread (.unsaid rfl)
    refine ⟨_, _, _, by rw [performed, performed], ⟨d, rfl, rfl, ?_⟩, ?_, ?_⟩
    · rw [hperform, hput]
      rfl
    · refine ⟨.commitJob .direct [] d.settled, ?_, rfl⟩
      simp only [hperform]
      rw [hcalls]
      exact .tail _ (.head _)
    · refine ⟨"db.t", ?_, rfl⟩
      simp only [hperform]
      rw [hcalls]
      exact .head _
  exact ⟨hfiles, hsteps, hcommitted, (dispatched_once hfiles hsteps).2⟩

end LinkedTables
