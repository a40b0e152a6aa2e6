import LinkedTables.Proofs.Trace.Run

set_option autoImplicit false

/-! # Runs from related states

A computation respects a relation between states if from related states it leaves the same
events and comes to the same result, and if the states it ends in are related again
(`Run.Respects`). What it comes to has a property then, since what a later part does may
depend on it. Respect goes through all compositions.
-/

namespace LinkedTables

variable {γ σ α β : Type} {R : σ → σ → Prop} {good : α → Prop}

/-- Two outcomes with the same events and the same result, a good one if there is one, whose
states are related. -/
structure Outcome.Matches (R : σ → σ → Prop) (good : α → Prop) (o o' : Outcome γ σ α) :
    Prop where
  events : o.events = o'.events
  result : o.result = o'.result
  state : R o.state o'.state
  good : ∀ a, o.result = .ok a → good a

/-- From related states a computation cannot tell which of them it started in. -/
def Run.Respects (R : σ → σ → Prop) (good : α → Prop) (r : Run γ σ α) : Prop :=
  ∀ s s', R s s' → (r s).Matches R good (r s')

namespace Run.Respects

variable {r : Run γ σ α} {good' : β → Prop}

theorem done {a : α} (ha : good a) : (Run.done a : Run γ σ α).Respects R good :=
  fun _ _ hs => ⟨rfl, rfl, hs, fun _ h => Except.ok.inj h ▸ ha⟩

theorem fail (p : Problem) : (Run.fail p : Run γ σ α).Respects R good :=
  fun _ _ hs => ⟨rfl, rfl, hs, fun _ h => nomatch h⟩

theorem ofExcept {e : Except Problem α} (he : ∀ a, e = .ok a → good a) :
    (Run.ofExcept e : Run γ σ α).Respects R good := by
  cases e with
  | error p => exact fail p
  | ok a => exact done (he a rfl)

theorem emit (e : Event γ) : (Run.emit e : Run γ σ Unit).Respects R fun _ => True :=
  fun _ _ hs => ⟨rfl, rfl, hs, fun _ _ => trivial⟩

theorem log (channel : Channel) (level : Level) (event : String) (fields : Entries Value) :
    (Run.log channel level event fields : Run γ σ Unit).Respects R fun _ => True :=
  emit _

theorem bind (hr : r.Respects R good) {f : α → Run γ σ β}
    (hf : ∀ a, good a → (f a).Respects R good') : (r >>= f).Respects R good' := by
  intro s s' hs
  have hfirst := hr s s' hs
  cases hres : (r s).result with
  | error p =>
      rw [bind_of_error hres, bind_of_error (hfirst.result ▸ hres)]
      exact ⟨hfirst.events, rfl, hfirst.state, fun _ h => nomatch h⟩
  | ok a =>
      have hnext := hf a (hfirst.good a hres) _ _ hfirst.state
      rw [bind_of_ok hres, bind_of_ok (hfirst.result ▸ hres)]
      refine ⟨?_, hnext.result, hnext.state, hnext.good⟩
      simp only [Outcome.preceded, hfirst.events, hnext.events]

/-- A composition whose second part does not depend on a property of the first result. -/
theorem followed (hr : r.Respects R fun _ => True) {f : α → Run γ σ β}
    (hf : ∀ a, (f a).Respects R good') : (r >>= f).Respects R good' :=
  hr.bind fun a _ => hf a

theorem calling {work : Run Empty σ α} (hw : work.Respects R good) (c : γ) :
    (Run.calling c work).Respects R good := by
  intro s s' hs
  have h := hw s s' hs
  rw [calling_apply, calling_apply]
  exact ⟨by rw [h.events], h.result, h.state, h.good⟩

theorem handling (hr : r.Respects R good) {handler : Problem → Run γ σ α}
    (hh : ∀ p, (handler p).Respects R good) : (r.handling handler).Respects R good := by
  intro s s' hs
  obtain ⟨hevents, hresult, hstate, hgood⟩ := hr s s' hs
  rw [Run.handling, Run.handling]
  generalize r s = o at *
  generalize r s' = o' at *
  obtain ⟨events, state, result⟩ := o
  obtain ⟨_, state', _⟩ := o'
  obtain rfl : events = _ := hevents
  obtain rfl : result = _ := hresult
  cases result with
  | ok a => exact ⟨rfl, rfl, hstate, hgood⟩
  | error p =>
      by_cases hp : p.isInterrupt = true
      · simp only [if_pos hp]
        exact ⟨rfl, rfl, hstate, fun _ h => nomatch h⟩
      · have hnext := hh p _ _ hstate
        simp only [if_neg hp]
        exact ⟨by rw [hnext.events], hnext.result, hnext.state, hnext.good⟩

theorem always (hr : r.Respects R good) {last : Run γ σ Unit} {good'' : Unit → Prop}
    (hl : last.Respects R good'') : (r.always last).Respects R good := by
  intro s s' hs
  have hfirst := hr s s' hs
  have hnext := hl _ _ hfirst.state
  refine ⟨?_, ?_, hnext.state, fun a ha => ?_⟩
  · rw [always_events, always_events, hfirst.events, hnext.events]
  · simp only [Run.always, hfirst.result, hnext.result]
  · simp only [Run.always] at ha
    split at ha
    · exact hfirst.good a ha
    · cases ha

theorem around (hr : r.Respects R good) (span : Span) :
    (span.around r : Run γ σ α).Respects R good := by
  intro s s' hs
  have h := hr s s' hs
  refine ⟨?_, h.result, h.state, h.good⟩
  simp only [Span.around, h.events, h.result]

end Run.Respects

end LinkedTables
