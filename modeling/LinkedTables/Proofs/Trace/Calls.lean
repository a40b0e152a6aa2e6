import LinkedTables.Proofs.Trace.Run

set_option autoImplicit false

/-! # What computations come to

Spans and log lines aside, a computation comes to the calls that it makes, the state that it
ends in and its result (`Run.ComesTo`). What a composition comes to follows from what its
parts come to: the calls of the parts stand one after the other, and the first problem ends
them.
-/

namespace LinkedTables

variable {γ σ α β : Type}

/-- What a computation comes to, spans and log lines aside. -/
structure Run.ComesTo (r : Run γ σ α) (s : σ) (calls : List γ) (s' : σ)
    (result : Except Problem α) : Prop where
  calls_eq : Event.calls (r s).events = calls
  state_eq : (r s).state = s'
  result_eq : (r s).result = result

namespace Run

variable {r : Run γ σ α} {s s' s'' : σ} {cs ds : List γ} {p : Problem}

theorem comesTo_pure (a : α) (s : σ) : (pure a : Run γ σ α).ComesTo s [] s (.ok a) :=
  ⟨rfl, rfl, rfl⟩

theorem comesTo_ofExcept (e : Except Problem α) (s : σ) :
    (ofExcept e : Run γ σ α).ComesTo s [] s e := by
  cases e <;> exact ⟨rfl, rfl, rfl⟩

theorem comesTo_log (channel : Channel) (level : Level) (event : String)
    (fields : Entries Value) (s : σ) :
    (log channel level event fields : Run γ σ Unit).ComesTo s [] s (.ok ()) :=
  ⟨rfl, rfl, rfl⟩

theorem comesTo_calling (c : γ) (work : Run Empty σ α) (s : σ) :
    (calling c work).ComesTo s [c] (work s).state (work s).result := by
  refine ⟨?_, rfl, rfl⟩
  rw [calling_apply, Event.calls_called, Event.calls_lifted]

namespace ComesTo

theorem bind {a : α} {result : Except Problem β} {f : α → Run γ σ β}
    (hr : r.ComesTo s cs s' (.ok a)) (hf : (f a).ComesTo s' ds s'' result) :
    (r >>= f).ComesTo s (cs ++ ds) s'' result := by
  obtain ⟨hcalls, rfl, hresult⟩ := hr
  rw [← hcalls, ← hf.calls_eq, ← hf.state_eq, ← hf.result_eq]
  constructor <;> rw [bind_of_ok hresult, Outcome.preceded]
  exact Event.calls_append _ _

theorem bind_error {f : α → Run γ σ β} (hr : r.ComesTo s cs s' (.error p)) :
    (r >>= f).ComesTo s cs s' (.error p) := by
  constructor <;> rw [bind_of_error hr.result_eq]
  · exact hr.calls_eq
  · exact hr.state_eq

/-- A result that is only rewritten. -/
theorem map {result : Except Problem α} (hr : r.ComesTo s cs s' result) (g : α → β) :
    (r >>= fun a => pure (g a)).ComesTo s cs s' (result.map g) := by
  constructor <;> rw [bind_pure_apply]
  · exact hr.calls_eq
  · exact hr.state_eq
  · rw [hr.result_eq]

theorem mapProblem {result : Except Problem α} (hr : r.ComesTo s cs s' result)
    (f : Problem → Problem) : (r.mapProblem f).ComesTo s cs s' (result.mapError f) :=
  ⟨hr.calls_eq, hr.state_eq, congrArg (Except.mapError f) hr.result_eq⟩

theorem around {result : Except Problem α} (hr : r.ComesTo s cs s' result) (span : Span) :
    (span.around r).ComesTo s cs s' result := by
  refine ⟨?_, hr.state_eq, hr.result_eq⟩
  simp [Span.around, hr.calls_eq]

end ComesTo

section

variable {e : Except Problem α} {f : α → Run γ σ β}

theorem comesTo_ofExcept_bind {a : α} {result : Except Problem β} (h : e = .ok a)
    (hf : (f a).ComesTo s cs s' result) : (ofExcept e >>= f).ComesTo s cs s' result := by
  subst h
  exact (comesTo_ofExcept _ s).bind hf

theorem comesTo_ofExcept_bind_error (h : e = .error p) :
    (ofExcept e >>= f).ComesTo s [] s (.error p) := by
  subst h
  exact (comesTo_ofExcept _ s).bind_error

end

end Run

end LinkedTables
