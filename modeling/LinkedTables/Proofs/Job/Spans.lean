import LinkedTables.Proofs.Catalog.Spans
import LinkedTables.Proofs.Job.Courses

set_option autoImplicit false

/-! # Spans of a job's end

A commit or an abort is work in one span, unless the job names no output table, in which case
there is no span at all. With the spans of answers these are all the spans that the library
uses, and the truth is told of every one of them (`spans_tell_the_truth`).
-/

namespace LinkedTables

open Event

namespace Finalizer

variable {σ : Type}

/-- Whatever collaborators are called with, they keep apart from spans with certain names. -/
structure Apart (f : Finalizer σ) (names : List String) : Prop where
  getDetails : ∀ key, (f.getDetails key).Apart names
  commitJob : ∀ m properties d, (f.commitJob m properties d).Apart names
  abortJob : ∀ properties d, (f.abortJob properties d).Apart names
  clean : ∀ key, (f.clean key).Apart names

variable {f : Finalizer σ}

namespace Apart

variable {names names' : List String}

theorem mono (h : f.Apart names) (hn : names' ⊆ names) : f.Apart names' where
  getDetails _ s := (h.getDetails _ s).mono hn
  commitJob _ _ _ s := (h.commitJob _ _ _ s).mono hn
  abortJob _ _ s := (h.abortJob _ _ s).mono hn
  clean _ s := (h.clean _ s).mono hn

theorem enter (key : String) (state : JobState) (others : Entries Value) :
    (f.enter key state others).Apart names :=
  .log _ (by decide) _ _

theorem cleanup (h : f.Apart names) (key : String) : (f.cleanup key).Apart names :=
  (enter key _ _).bind fun _ =>
    ((h.clean key).calling _).handling fun _ => .log _ (by decide) _ _

theorem finalize (h : f.Apart names) (properties : Entries String) (d : JobDetails) :
    (f.finalize properties d).Apart names :=
  .bind (.ofExcept _) fun m => (enter _ _ _).bind fun _ =>
    (((h.commitJob m properties d).calling _).always (h.cleanup _)).bind fun _ => enter _ _ _

theorem undo (h : f.Apart names) (properties : Entries String) (d : JobDetails) :
    (f.undo properties d).Apart names :=
  (enter _ _ _).bind fun _ =>
    (((h.abortJob properties d).calling _).always (h.cleanup _)).bind fun _ => enter _ _ _

theorem committing (h : f.Apart names) (c : JobContext) (key : Name) :
    (f.committing c key).Apart names :=
  (enter _ _ _).bind fun _ => ((h.getDetails key.text).calling _).bind fun d =>
    (h.finalize c.properties d).bind fun _ => .done _

theorem aborting (h : f.Apart names) (c : JobContext) (status : Option Int) (key : Name) :
    (f.aborting c status key).Apart names := by
  refine (enter _ _ _).bind fun _ => ((h.getDetails key.text).calling _).bind fun d => ?_
  split
  · exact .fail _
  · exact (h.undo c.properties d).bind fun _ => .done _

end Apart

/-- The truth is told of the span of a job's end, if there is one. -/
structure SpansTell (f : Finalizer σ) (c : JobContext) (status : Option Int) (s : σ) : Prop where
  commit : ∀ key : Name, c.outputTable = some key.text →
    (Span.jobOperation "commit" (some key.text) none).Frames (f.commit c s)
      (f.committing c key s).result
  abort : ∀ key : Name, c.outputTable = some key.text →
    (Span.jobOperation "abort" (some key.text) none).Frames (f.abort c status s)
      (f.aborting c status key s).result
  noTable : c.outputTable = none ∨ c.outputTable = some "" →
    (f.commit c s).events = [] ∧ (f.abort c status s).events = []

theorem spansTell (h : f.Apart ["job.commit", "job.abort"]) (c : JobContext)
    (status : Option Int) (s : σ) : f.SpansTell c status s where
  commit := by
    intro key hk
    rw [f.commit_eq, Run.ofExcept_bind_of_ok (JobContext.key_eq_ok hk)]
    exact Span.frames_around ((h.mono (by simp [Span.jobOperation])).committing c key) s
  abort := by
    intro key hk
    rw [f.abort_eq, Run.ofExcept_bind_of_ok (JobContext.key_eq_ok hk)]
    exact Span.frames_around ((h.mono (by simp [Span.jobOperation])).aborting c status key) s
  noTable := by
    intro hk
    rw [f.commit_eq, f.abort_eq, Run.ofExcept_bind_of_error (JobContext.key_eq_error hk),
      Run.ofExcept_bind_of_error (JobContext.key_eq_error hk)]
    exact ⟨rfl, rfl⟩

end Finalizer

/-- **Spans are bracketed and the truth is told of them.** Whatever the collaborators do and
come to, as long as they leave the names of these spans to the library: answers, commits and
aborts are each framed by their span, and a query by a second one inside that of the answer.
Each of these spans starts once and ends once, the inner one first. It is said to have
succeeded exactly if its work came to a result, and to have failed, with the problem and its
text, exactly if its work came to a problem other than an interruption; that problem then
leaves the span. A query that fails therefore marks both spans, and whatever fails after the
query or without one marks only the outer span. -/
theorem spans_tell_the_truth {σ τ δ : Type} (c : Clients σ δ) (r : Request) (f : Finalizer τ)
    (context : JobContext) (status : Option Int)
    (hc : c.Apart [r.span.name, Span.queryName]) (hf : f.Apart ["job.commit", "job.abort"]) :
    (∀ s, c.SpansTell r s) ∧ ∀ s, f.SpansTell context status s :=
  ⟨Clients.spansTell hc, Finalizer.spansTell hf context status⟩

/-- The warehouse answers a query but takes too long with its metadata, and a commit is
interrupted in the record: the query has succeeded, the answer has failed, and of the commit
neither is said. -/
theorem late_metadata_and_interrupted_commit :
    let c : Clients Unit Unit :=
      { Clients.sample (Clients.sampleTable Clients.sampleParameters) with
        getMetadata := fun _ => Run.ofExcept (.error (.error .timeout "too late")) }
    let r : Request := ⟨"c", "d", "t", .all 0⟩
    let f : Finalizer Unit :=
      { getDetails := fun _ => Run.fail (.interrupt "stop")
        commitJob := fun _ _ _ => Run.done ()
        abortJob := fun _ _ => Run.done ()
        clean := fun _ => Run.done () }
    let context : JobContext := ⟨some "sales.orders", [], none⟩
    (.spanSucceeded "warehouse.query" ∈ (c.answer r ()).events ∧
      (∀ reason, .spanFailed "warehouse.query" reason ∉ (c.answer r ()).events) ∧
      ∃ reason, .spanFailed "metastore.get_partitions" reason ∈ (c.answer r ()).events) ∧
      (f.commit context ()).events.getLast? = some (.spanEnded "job.commit") ∧
      .spanSucceeded "job.commit" ∉ (f.commit context ()).events ∧
      ∀ reason, .spanFailed "job.commit" reason ∉ (f.commit context ()).events := by
  intro c r f context
  obtain ⟨hanswer, hend⟩ := spans_tell_the_truth c r f context none
    ⟨fun _ _ _ => .ofExcept _, fun _ => .ofExcept _, fun _ => .ofExcept _, fun _ => .ofExcept _,
      fun _ => .ofExcept _⟩
    ⟨fun _ => .fail _, fun _ _ _ => .done _, fun _ _ => .done _, fun _ => .done _⟩
  have hposed : c.Posed r () _ Clients.sampleLink _ () :=
    ⟨rfl, by decide, rfl, none, .given rfl, rfl⟩
  obtain ⟨hquery, -⟩ := (hanswer ()).query _ _ _ _ hposed
  have hwhole := (hanswer ()).answer.tells
  have hcommit := (hend ()).commit ⟨"sales.orders", by decide⟩ rfl
  refine ⟨⟨hquery.succeeded_iff.mpr ⟨_, rfl⟩, ?_, _, (hwhole.failed_iff _).mpr ⟨_, rfl, rfl, rfl⟩⟩,
    hcommit.last, ?_, ?_⟩
  · intro reason hfailed
    obtain ⟨p, hp, -⟩ := (hquery.failed_iff reason).mp hfailed
    cases hp
  · intro hsucceeded
    obtain ⟨a, ha⟩ := hcommit.tells.succeeded_iff.mp hsucceeded
    cases ha
  · intro reason hfailed
    obtain ⟨p, hp, hinterrupt, -⟩ := (hcommit.tells.failed_iff reason).mp hfailed
    cases hp
    cases hinterrupt

end LinkedTables
