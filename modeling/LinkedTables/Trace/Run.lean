import LinkedTables.Trace.Event

set_option autoImplicit false

/-! # Computations that leave a trace

A `Run` starts in a state and ends in a state with a result or a problem, and the events
on the way form its trace. Runs are composed one after the other; a problem ends the
composition, and the state and the trace up to it remain.

Collaborators are runs too, of any behaviour, but over `Empty`: they may change the state,
write to the log and fail, and a call to them is an event that the caller records.
-/

namespace LinkedTables

/-- What a computation left behind. -/
structure Outcome (γ σ α : Type) where
  /-- What happened, in order. -/
  events : List (Event γ)
  /-- The state at the end. -/
  state : σ
  /-- The result, or what ended the computation early. -/
  result : Except Problem α

/-- A computation that leaves a trace. -/
def Run (γ σ α : Type) := σ → Outcome γ σ α

/-- A part of a larger state. -/
structure StatePart (τ σ : Type) where
  /-- The part as it is. -/
  get : τ → σ
  /-- The larger state with the part replaced. -/
  set : σ → τ → τ

/-- The whole of a state as a part of it. -/
def StatePart.whole (σ : Type) : StatePart σ σ := ⟨id, fun s _ => s⟩

namespace Run

variable {γ δ σ α β : Type}

/-- Does nothing and gives a result. -/
def done (a : α) : Run γ σ α := fun s => ⟨[], s, .ok a⟩

/-- Ends with a problem. -/
def fail (p : Problem) : Run γ σ α := fun s => ⟨[], s, .error p⟩

/-- Runs one computation and then another that depends on its result. -/
def andThen (r : Run γ σ α) (f : α → Run γ σ β) : Run γ σ β := fun s =>
  match r s with
  | ⟨events, s, .error p⟩ => ⟨events, s, .error p⟩
  | ⟨events, s, .ok a⟩ =>
    let next := f a s
    ⟨events ++ next.events, next.state, next.result⟩

instance : Monad (Run γ σ) where
  pure := done
  bind := andThen

/-- The given result, or the given problem. -/
def ofExcept : Except Problem α → Run γ σ α
  | .ok a => done a
  | .error p => fail p

/-- Records an event. -/
def emit (e : Event γ) : Run γ σ Unit := fun s => ⟨[e], s, .ok ()⟩

/-- Records a call to a collaborator. -/
def call (c : γ) : Run γ σ Unit := emit (.called c)

/-- Writes a log line. -/
def log (channel : Channel) (level : Level) (event : String) (fields : Entries Value) :
    Run γ σ Unit :=
  emit (.logged channel level event fields)

/-- Looks at the state and perhaps changes it. -/
def access (f : σ → Except Problem α × σ) : Run γ σ α := fun s => ⟨[], (f s).2, (f s).1⟩

/-- A computation without calls, as part of one with calls. -/
def lift (r : Run Empty σ α) : Run γ σ α := fun s =>
  let o := r s
  ⟨o.events.map (Event.map Empty.elim), o.state, o.result⟩

/-- Records a call to a collaborator and has the collaborator do its work. -/
def calling (c : γ) (work : Run Empty σ α) : Run γ σ α := (call c).andThen fun _ => work.lift

/-- A computation on a part of the state. -/
def onPart {τ : Type} (part : StatePart τ σ) (r : Run γ σ α) : Run γ τ α := fun s =>
  let o := r (part.get s)
  ⟨o.events, part.set o.state s, o.result⟩

/-- The same computation, with another problem in place of one that ends it. -/
def mapProblem (f : Problem → Problem) (r : Run γ σ α) : Run γ σ α := fun s =>
  let o := r s
  ⟨o.events, o.state, o.result.mapError f⟩

/-- Runs a computation and handles the problem that ends it, unless that is an
interruption. -/
def handling (r : Run γ σ α) (handler : Problem → Run γ σ α) : Run γ σ α := fun s =>
  match r s with
  | ⟨events, s, .ok a⟩ => ⟨events, s, .ok a⟩
  | ⟨events, s, .error p⟩ =>
    if p.isInterrupt then ⟨events, s, .error p⟩
    else
      let next := handler p s
      ⟨events ++ next.events, next.state, next.result⟩

/-- Runs a computation and then, on every way out, another one. A problem of the second
takes the place of what the first came to. -/
def always (r : Run γ σ α) (last : Run γ σ Unit) : Run γ σ α := fun s =>
  let first := r s
  let next := last first.state
  let result := match next.result with
    | .ok _ => first.result
    | .error p => .error p
  ⟨first.events ++ next.events, next.state, result⟩

/-! ## What a composition leaves behind -/

@[simp] theorem pure_apply (a : α) (s : σ) : (pure a : Run γ σ α) s = ⟨[], s, .ok a⟩ := rfl

@[simp] theorem fail_apply (p : Problem) (s : σ) :
    (fail p : Run γ σ α) s = ⟨[], s, .error p⟩ := rfl

@[simp] theorem emit_apply (e : Event γ) (s : σ) :
    (emit e : Run γ σ Unit) s = ⟨[e], s, .ok ()⟩ := rfl

@[simp] theorem ofExcept_apply (e : Except Problem α) (s : σ) :
    (ofExcept e : Run γ σ α) s = ⟨[], s, e⟩ := by cases e <;> rfl

theorem calling_apply (c : γ) (work : Run Empty σ α) (s : σ) :
    calling c work s =
      ⟨.called c :: (work s).events.map (Event.map Empty.elim), (work s).state,
        (work s).result⟩ := rfl

theorem always_events (r : Run γ σ α) (last : Run γ σ Unit) (s : σ) :
    (r.always last s).events = (r s).events ++ (last (r s).state).events := rfl

@[simp] theorem onPart_whole (r : Run γ σ α) : r.onPart (.whole σ) = r := rfl

theorem bind_apply (r : Run γ σ α) (f : α → Run γ σ β) (s : σ) :
    (r >>= f) s = match r s with
      | ⟨events, s, .error p⟩ => ⟨events, s, .error p⟩
      | ⟨events, s, .ok a⟩ => ⟨events ++ (f a s).events, (f a s).state, (f a s).result⟩ := rfl

end Run

end LinkedTables
