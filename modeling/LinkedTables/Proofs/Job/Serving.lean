import LinkedTables.Proofs.Job.Directories
import LinkedTables.Proofs.Job.Steps
import LinkedTables.Proofs.Trace.Respects
import Mathlib.Logic.Relation

set_option autoImplicit false

/-! # What a job sees of the files

A job looks at the files through its work directory only: it puts details there, reads them,
and removes the directory. So if these three come out the same in two trees of files, and
leave trees in which they come out the same again (`Serves`), then the job cannot tell the
two trees apart, whatever it does (`Serves.perform`). This needs write methods with outcomes
of their own: such as do not look at the files and leave them alone.
-/

namespace LinkedTables

open Files WorkDir

/-! ## Steps of one job -/

/-- What is done comes to the same whatever files there are, and leaves them alone. -/
def Run.Detached (r : Run Empty Files Unit) : Prop :=
  ∃ events result, ∀ files, r files = ⟨events, files, result⟩

/-- Write methods with any outcome that have nothing to do with the files. -/
structure Strategies.Detached (strategies : Strategies) : Prop where
  commitJob : ∀ m properties d, (strategies.commitJob m properties d).Detached
  abortJob : ∀ properties d, (strategies.abortJob properties d).Detached

theorem Run.Detached.respects {r : Run Empty Files Unit} (h : r.Detached)
    (R : Files → Files → Prop) : r.Respects R fun _ => True := by
  obtain ⟨events, result, hr⟩ := h
  intro files files' hfiles
  rw [hr files, hr files']
  exact ⟨rfl, rfl, hfiles, fun _ _ => trivial⟩

theorem Run.Detached.state_eq {r : Run Empty Files Unit} (h : r.Detached) (files : Files) :
    (r files).state = files := by
  obtain ⟨events, result, hr⟩ := h
  rw [hr]

namespace JobStep

/-- The job that a step is about, by its output table: details are put under their own one. -/
def job? (step : JobStep) : Option String :=
  match step.act with
  | .put d => some d.outputTable.text
  | .get key => some key
  | .commit _ context | .abort _ context _ => context.outputTable

/-- The write methods of a step have nothing to do with the files. -/
def Detached (step : JobStep) : Prop :=
  match step.act with
  | .commit strategies _ | .abort strategies _ _ => strategies.Detached
  | _ => True

end JobStep

/-- A commit that can get the details of its job comes down to the cleanup. -/
theorem JobStep.state_commit {strategies : Strategies} {c : JobContext} {key : Name}
    {d : JobDetails} {m : WriteMethod} {parent : Path} {files : Files} (hs : strategies.Detached)
    (hk : c.outputTable = some key.text)
    (hd : DetailsStore.readDetails parent files key.text = .ok d)
    (hm : WriteMethod.AskedFor c.properties m) :
    (perform ⟨parent, .commit strategies c⟩ files).state =
      (WorkDir.clean parent .shared d.outputTable.text files).state := by
  obtain ⟨o, ho, hcommit⟩ :=
    @Finalizer.commits_dispatched _ (strategies.finalizer parent) c files key d m hk hd hm
  have hperform : perform ⟨parent, .commit strategies c⟩ files =
      ((strategies.finalizer parent).commit c >>= fun state => pure (.ended state)) files := rfl
  have hwork : ((strategies.finalizer parent).commitJob m c.properties d files).state = files :=
    (hs.commitJob m c.properties d).state_eq files
  rw [hperform, Run.bind_pure_apply, hcommit]
  calc o.state
      = ((strategies.finalizer parent).clean d.outputTable.text
          ((strategies.finalizer parent).commitJob m c.properties d files).state).state :=
        ho.state_eq
    _ = (WorkDir.clean parent .shared d.outputTable.text files).state := by rw [hwork]; rfl

theorem JobContext.outputTable_of_key {c : JobContext} {key : Name} (h : c.key = .ok key) :
    c.outputTable = some key.text := by
  rcases c.table_cases with hnone | ⟨key', hk⟩
  · rw [key_eq_error hnone] at h
    cases h
  · rw [key_eq_ok hk] at h
    rw [hk, Except.ok.inj h]

/-! ## Two trees of files that serve a job alike -/

/-- What is done in the work directory of a name comes out the same in related trees of
files, and leaves related trees. What can be read there is a record of that directory. -/
structure Serves (R : Files → Files → Prop) (parent : Path) (n : String) : Prop where
  written : ∀ d, name d.outputTable.text = n → ∀ files files', R files files' →
    (DetailsStore.writeDetails parent files d.outputTable.text d).1 =
        (DetailsStore.writeDetails parent files' d.outputTable.text d).1 ∧
      R (DetailsStore.writeDetails parent files d.outputTable.text d).2
        (DetailsStore.writeDetails parent files' d.outputTable.text d).2
  loaded : ∀ key, name key = n → ∀ files files', R files files' →
    files.load (detailsPath parent key) = files'.load (detailsPath parent key)
  own : ∀ key, name key = n → ∀ files files', R files files' →
    ∀ d, DetailsStore.readDetails parent files key = .ok d → name d.outputTable.text = n
  removed : ∀ key, name key = n → ∀ files files', R files files' →
    (∃ e, files.removeDirectory .sound (path parent key) = (files, some e) ∧
      files'.removeDirectory .sound (path parent key) = (files', some e)) ∨
    ∃ rest rest', files.removeDirectory .sound (path parent key) = (rest, none) ∧
      files'.removeDirectory .sound (path parent key) = (rest', none) ∧ R rest rest'

namespace Serves

variable {R : Files → Files → Prop} {parent : Path} {n key : String}

/-! ### Composed relations -/

section

variable {S : Files → Files → Prop}

theorem symm (h : Serves R parent n) : Serves (flip R) parent n where
  written d hn files files' hR := by
    obtain ⟨hresult, hstate⟩ := h.written d hn files' files hR
    exact ⟨hresult.symm, hstate⟩
  loaded key hn files files' hR := (h.loaded key hn files' files hR).symm
  own key hn files files' hR d hd := by
    rw [DetailsStore.readDetails, ← h.loaded key hn files' files hR] at hd
    exact h.own key hn files' files hR d hd
  removed key hn files files' hR := by
    obtain ⟨e, hr, hr'⟩ | ⟨rest, rest', hr, hr', hrest⟩ := h.removed key hn files' files hR
    · exact .inl ⟨e, hr', hr⟩
    · exact .inr ⟨rest', rest, hr', hr, hrest⟩

theorem comp (h : Serves R parent n) (h' : Serves S parent n) :
    Serves (Relation.Comp R S) parent n where
  written d hn files files'' := by
    rintro ⟨files', hR, hS⟩
    obtain ⟨hresult, hstate⟩ := h.written d hn files files' hR
    obtain ⟨hresult', hstate'⟩ := h'.written d hn files' files'' hS
    exact ⟨hresult.trans hresult', _, hstate, hstate'⟩
  loaded key hn files files'' := by
    rintro ⟨files', hR, hS⟩
    exact (h.loaded key hn files files' hR).trans (h'.loaded key hn files' files'' hS)
  own key hn files files'' := by
    rintro ⟨files', hR, -⟩
    exact h.own key hn files files' hR
  removed key hn files files'' := by
    rintro ⟨files', hR, hS⟩
    obtain ⟨e, hr, hr'⟩ | ⟨rest, rest', hr, hr', hrest⟩ := h.removed key hn files files' hR <;>
      obtain ⟨e', hs, hs'⟩ | ⟨left, left', hs, hs', hleft⟩ := h'.removed key hn files' files'' hS
    · cases hr'.symm.trans hs
      exact .inl ⟨e, hr, hs'⟩
    · cases hr'.symm.trans hs
    · cases hr'.symm.trans hs
    · cases hr'.symm.trans hs
      exact .inr ⟨rest, left', hr, hs', rest', hrest, hleft⟩

end

/-! ### The store and the cleanup -/

theorem put (h : Serves R parent n) {d : JobDetails} (hn : name d.outputTable.text = n) :
    ((DetailsStore.inFiles parent .shared).put d.outputTable.text d).Respects R
      fun _ => True := by
  refine .followed (fun files files' hfiles => ?_) fun _ => .log _ _ _ _
  obtain ⟨hresult, hstate⟩ := h.written d hn files files' hfiles
  exact ⟨rfl, hresult, hstate, fun _ _ => trivial⟩

theorem get (h : Serves R parent n) (hn : name key = n) :
    ((DetailsStore.inFiles parent .shared).get key).Respects R
      fun d => name d.outputTable.text = n := by
  intro files files' hfiles
  refine ⟨rfl, ?_, hfiles, h.own key hn files files' hfiles⟩
  show DetailsStore.readDetails parent files key = DetailsStore.readDetails parent files' key
  rw [DetailsStore.readDetails, DetailsStore.readDetails, h.loaded key hn files files' hfiles]

theorem clean (h : Serves R parent n) (hn : name key = n) (channel : Channel) :
    (WorkDir.clean parent channel key).Respects R fun _ => True := by
  refine .followed (fun files files' hfiles => ?_) fun outcome => ?_
  · obtain ⟨e, hr, hr'⟩ | ⟨rest, rest', hr, hr', hrest⟩ := h.removed key hn files files' hfiles
    · simp only [Run.access, hr, hr']
      exact ⟨rfl, rfl, hfiles, fun _ _ => trivial⟩
    · simp only [Run.access, hr, hr']
      exact ⟨rfl, rfl, hrest, fun _ _ => trivial⟩
  · cases outcome with
    | none => exact .log _ _ _ _
    | some e =>
        by_cases he : e.fault = .notFound
        · simp only [if_pos he]
          exact .log _ _ _ _
        · simp only [if_neg he]
          exact .log _ _ _ _

/-! ### The end of a job -/

variable {strategies : Strategies}

theorem enter (key : String) (state : JobState) (others : Entries Value) :
    ((strategies.finalizer parent).enter key state others).Respects R fun _ => True :=
  .log _ _ _ _

theorem details (h : Serves R parent n) (hn : name key = n) :
    ((strategies.finalizer parent).details key).Respects R
      fun d => name d.outputTable.text = n :=
  (h.get hn).calling _

theorem cleanup (h : Serves R parent n) (strategies : Strategies) (hn : name key = n) :
    ((strategies.finalizer parent).cleanup key).Respects R fun _ => True := by
  refine .followed (enter key .cleanup []) fun _ => ?_
  exact ((h.clean hn .shared).calling _).handling fun p => .log _ _ _ _

theorem finalize (h : Serves R parent n) (hs : strategies.Detached)
    (properties : Entries String) {d : JobDetails} (hn : name d.outputTable.text = n) :
    ((strategies.finalizer parent).finalize properties d).Respects R fun _ => True := by
  refine .followed (.ofExcept fun _ _ => trivial) fun method => ?_
  have hwork := (((hs.commitJob method properties d).respects R).calling
    (JobCall.commitJob method properties d)).always (h.cleanup strategies hn)
  exact .followed (enter _ .strategyDispatch _) fun _ =>
    .followed hwork fun _ => enter _ .committed _

theorem undo (h : Serves R parent n) (hs : strategies.Detached)
    (properties : Entries String) {d : JobDetails} (hn : name d.outputTable.text = n) :
    ((strategies.finalizer parent).undo properties d).Respects R fun _ => True := by
  have hwork := (((hs.abortJob properties d).respects R).calling
    (JobCall.abortJob properties d)).always (h.cleanup strategies hn)
  exact .followed (enter _ .rollback []) fun _ =>
    .followed hwork fun _ => enter _ .aborted []

theorem commit (h : Serves R parent n) (hs : strategies.Detached) {c : JobContext}
    (hn : ∀ key, c.outputTable = some key → name key = n) :
    ((strategies.finalizer parent).commit c).Respects R fun _ => True := by
  refine .bind (.ofExcept fun _ => JobContext.outputTable_of_key) fun key hkey => ?_
  refine Run.Respects.around ?_ _
  refine .followed (enter _ .committing _) fun _ => ?_
  refine .bind (h.details (hn _ hkey)) fun d hd => ?_
  exact .followed (h.finalize hs c.properties hd) fun _ => .done trivial

theorem abort (h : Serves R parent n) (hs : strategies.Detached) {c : JobContext}
    (hn : ∀ key, c.outputTable = some key → name key = n) (status : Option Int) :
    ((strategies.finalizer parent).abort c status).Respects R fun _ => True := by
  refine .bind (.ofExcept fun _ => JobContext.outputTable_of_key) fun key hkey => ?_
  refine Run.Respects.around ?_ _
  refine .followed (enter _ .aborting _) fun _ => ?_
  refine .bind (h.details (hn _ hkey)) fun d hd => ?_
  by_cases hne : d.outputTable ≠ key
  · simp only [if_pos hne]
    exact .fail _
  · simp only [if_neg hne]
    exact .followed (h.undo hs c.properties hd) fun _ => .done trivial

/-- **A step of a job** cannot tell trees of files apart that serve its work directory
alike. -/
theorem perform {step : JobStep} (h : Serves R step.parent (name key))
    (hjob : step.job? = some key) (hs : step.Detached) :
    step.perform.Respects R fun _ => True := by
  obtain ⟨parent, act⟩ := step
  cases act with
  | put d =>
      obtain rfl : d.outputTable.text = key := Option.some.inj hjob
      exact .followed ((h.put rfl).calling _) fun _ => .done trivial
  | get key' =>
      obtain rfl : key' = key := Option.some.inj hjob
      exact .bind ((h.get rfl).calling _) fun _ _ => .done trivial
  | commit strategies c =>
      have hn (key' : String) (hk : c.outputTable = some key') : name key' = name key := by
        rw [Option.some.inj (hk.symm.trans hjob)]
      exact .followed (h.commit hs hn) fun _ => .done trivial
  | abort strategies c status =>
      have hn (key' : String) (hk : c.outputTable = some key') : name key' = name key := by
        rw [Option.some.inj (hk.symm.trans hjob)]
      exact .followed (h.abort hs hn status) fun _ => .done trivial

end Serves

end LinkedTables
