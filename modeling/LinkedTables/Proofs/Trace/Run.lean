import LinkedTables.Trace.Span

set_option autoImplicit false

/-! # Traces of composed computations

What a composition leaves behind, from what its parts leave behind: `Run.bind_of_ok` and
`Run.bind_of_error` take one step of a computation. Since collaborators make no calls of
their own, the calls of a trace are those that the computation has recorded itself.
-/

namespace LinkedTables

variable {γ σ α β : Type}

/-! ## Calls -/

namespace Event

/-- The calls among events, in order. -/
def calls (es : List (Event γ)) : List γ := es.filterMap call?

@[simp] theorem calls_nil : calls ([] : List (Event γ)) = [] := rfl

@[simp] theorem calls_append (es fs : List (Event γ)) : calls (es ++ fs) = calls es ++ calls fs :=
  List.filterMap_append

@[simp] theorem calls_called (c : γ) (es : List (Event γ)) :
    calls (.called c :: es) = c :: calls es := rfl

@[simp] theorem calls_logged (channel : Channel) (level : Level) (event : String)
    (fields : Entries Value) (es : List (Event γ)) :
    calls (.logged channel level event fields :: es) = calls es := rfl

/-- A collaborator's events hold no calls. -/
@[simp] theorem calls_lifted (es : List (Event Empty)) :
    calls (es.map (Event.map Empty.elim)) = ([] : List γ) := by
  induction es with
  | nil => rfl
  | cons e es ih =>
      cases e with
      | called c => exact c.elim
      | _ => exact ih

end Event

namespace Span

@[simp] theorem calls_opening (span : Span) : Event.calls (span.opening : List (Event γ)) = [] := by
  unfold opening
  split <;> rfl

@[simp] theorem calls_closing (span : Span) (result : Except Problem α) :
    Event.calls (span.closing result : List (Event γ)) = [] := by
  unfold closing
  split
  · split <;> rfl
  · rfl
  · rfl

end Span

/-! ## Outcomes -/

namespace Outcome

/-- An outcome with other events before its own. -/
def preceded (es : List (Event γ)) (o : Outcome γ σ α) : Outcome γ σ α :=
  ⟨es ++ o.events, o.state, o.result⟩

/-- An outcome with its result rewritten. -/
def map (g : α → β) (o : Outcome γ σ α) : Outcome γ σ β := ⟨o.events, o.state, o.result.map g⟩

@[simp] theorem map_map {τ : Type} (f : α → β) (g : β → τ) (o : Outcome γ σ α) :
    (o.map f).map g = o.map fun a => g (f a) := by
  obtain ⟨events, state, p | a⟩ := o <;> rfl

theorem exists_of_map {g : α → β} {o : Outcome γ σ α} {b : β} (h : (o.map g).result = .ok b) :
    ∃ a, o.result = .ok a ∧ b = g a := by
  obtain ⟨events, state, p | a⟩ := o
  · cases h
  · exact ⟨a, rfl, (Except.ok.inj h).symm⟩

/-- The events of a call: the call itself and what the collaborator did. -/
def ofCall (o : Outcome Empty σ α) (c : γ) : List (Event γ) :=
  .called c :: o.events.map (Event.map Empty.elim)

@[simp] theorem calls_ofCall (o : Outcome Empty σ α) (c : γ) :
    Event.calls (o.ofCall c) = [c] := by
  simp [ofCall]

theorem eq_of_result {o : Outcome γ σ α} {result : Except Problem α} (h : o.result = result) :
    o = ⟨o.events, o.state, result⟩ := by
  cases h
  rfl

end Outcome

namespace Run

variable {r : Run γ σ α} {s : σ} {p : Problem}

theorem bind_of_ok {a : α} (h : (r s).result = .ok a) (g : α → Run γ σ β) :
    (r >>= g) s = (g a (r s).state).preceded (r s).events := by
  rw [bind_apply, Outcome.eq_of_result h]
  rfl

theorem bind_of_error (h : (r s).result = .error p) (g : α → Run γ σ β) :
    (r >>= g) s = ⟨(r s).events, (r s).state, .error p⟩ := by
  rw [bind_apply, Outcome.eq_of_result h]

/-- A result that is only rewritten. -/
theorem bind_pure_apply (r : Run γ σ α) (g : α → β) (s : σ) :
    (r >>= fun a => pure (g a)) s = ⟨(r s).events, (r s).state, (r s).result.map g⟩ := by
  rw [bind_apply]
  generalize r s = o
  obtain ⟨events, state, p | a⟩ := o
  · rfl
  · simp [Except.map]

theorem bind_pure_eq_map (r : Run γ σ α) (g : α → β) (s : σ) :
    (r >>= fun a => pure (g a)) s = (r s).map g :=
  bind_pure_apply r g s

theorem ofExcept_bind_of_ok {e : Except Problem α} {a : α} (h : e = .ok a)
    (g : α → Run γ σ β) : (ofExcept e >>= g) s = g a s := by
  cases h
  rfl

theorem ofExcept_bind_of_error {e : Except Problem α} (h : e = .error p)
    (g : α → Run γ σ β) : (ofExcept e >>= g) s = ⟨[], s, .error p⟩ := by
  cases h
  rfl

/-- A computation returns after a value was given without calls. -/
theorem exists_of_ofExcept_bind {e : Except Problem α} {g : α → Run γ σ β} {b : β}
    (h : ((ofExcept e >>= g) s).result = .ok b) : ∃ a, e = .ok a ∧ (g a s).result = .ok b := by
  cases e with
  | error p => cases h
  | ok a => exact ⟨a, rfl, h⟩

end Run

end LinkedTables
