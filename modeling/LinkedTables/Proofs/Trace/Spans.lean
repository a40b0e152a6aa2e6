import LinkedTables.Proofs.Trace.Run

set_option autoImplicit false

/-! # Spans in traces

A trace is read event by event with the names of the spans that are open, the innermost one
first (`Event.next?`). It is bracketed if it leaves open what was open before, whatever that
was (`Event.Bracketed`): each span that it starts it ends as well, an inner one before the
outer ones, and a verdict is only ever given on the innermost span.

What a trace tells of a span agrees with what the work in the span came to (`Span.Tells`) as
soon as the work itself tells nothing of a span by that name. Work by others may use spans
of its own, as long as it keeps apart from certain names (`Event.Apart`), and this goes
through all compositions.
-/

namespace LinkedTables

variable {γ δ σ α β : Type}

namespace Event

/-! ## Open spans -/

/-- The spans that are open after an event. Only the innermost one may end or get a
verdict. -/
def next? (spans : List String) : Event γ → Option (List String)
  | called _ | logged .. => some spans
  | spanStarted name _ _ => some (name :: spans)
  | spanSucceeded name | spanFailed name _ | spanProblem name _ =>
    if spans.head? = some name then some spans else none
  | spanEnded name => if spans.head? = some name then some spans.tail else none

/-- Whatever spans are open before the events, the same ones are open after them. -/
def Bracketed (es : List (Event γ)) : Prop := ∀ spans, es.foldlM next? spans = some spans

theorem bracketed_nil : Bracketed ([] : List (Event γ)) := fun _ => rfl

theorem Bracketed.append {es fs : List (Event γ)} (h : Bracketed es) (h' : Bracketed fs) :
    Bracketed (es ++ fs) := by
  intro spans
  rw [List.foldlM_append, h spans]
  exact h' spans

theorem bracketed_called (c : γ) : Bracketed [called c] := fun _ => rfl

theorem bracketed_logged (channel : Channel) (level : Level) (event : String)
    (fields : Entries Value) : Bracketed [(logged channel level event fields : Event γ)] :=
  fun _ => rfl

theorem next?_map (g : γ → δ) (spans : List String) (e : Event γ) :
    next? spans (e.map g) = next? spans e := by
  cases e <;> rfl

theorem Bracketed.map {es : List (Event γ)} (h : Bracketed es) (g : γ → δ) :
    Bracketed (es.map (Event.map g)) := by
  intro spans
  simp only [List.foldlM_map, next?_map]
  exact h spans

/-! ## What is told of a span -/

/-- An event starts a span with a name. -/
def starts (name : String) : Event γ → Bool
  | spanStarted n _ _ => n == name
  | _ => false

/-- An event ends a span with a name. -/
def ends (name : String) : Event γ → Bool
  | spanEnded n => n == name
  | _ => false

/-- An event is about the spans with a name: their start, their end, a verdict, or the log
line that one of them has failed. -/
def isAbout (name : String) : Event γ → Bool
  | called _ => false
  | spanStarted n _ _ | spanSucceeded n | spanFailed n _ | spanProblem n _ | spanEnded n =>
    n == name
  | logged _ level event _ => level = .error && event == name ++ "_failed"

/-- The events about the spans with a name, in order. -/
def told (name : String) (es : List (Event γ)) : List (Event γ) := es.filter (isAbout name)

@[simp] theorem told_nil (name : String) : told name ([] : List (Event γ)) = [] := rfl

@[simp] theorem told_append (name : String) (es fs : List (Event γ)) :
    told name (es ++ fs) = told name es ++ told name fs :=
  List.filter_append es fs

@[simp] theorem told_called (name : String) (c : γ) (es : List (Event γ)) :
    told name (called c :: es) = told name es := rfl

theorem told_logged {level : Level} (h : level ≠ .error) (name : String) (channel : Channel)
    (event : String) (fields : Entries Value) (es : List (Event γ)) :
    told name (logged channel level event fields :: es) = told name es := by
  simp [told, isAbout, h]

theorem isAbout_map (name : String) (g : γ → δ) (e : Event γ) :
    isAbout name (e.map g) = isAbout name e := by
  cases e <;> rfl

theorem told_map (name : String) (g : γ → δ) (es : List (Event γ)) :
    told name (es.map (Event.map g)) = (told name es).map (Event.map g) := by
  simp only [told, List.filter_map, Function.comp_def, isAbout_map]

theorem mem_told {name : String} {e : Event γ} (h : isAbout name e = true)
    (es : List (Event γ)) : e ∈ told name es ↔ e ∈ es := by
  simp [told, h]

theorem countP_told {name : String} {p : Event γ → Bool}
    (h : ∀ e, p e = true → isAbout name e = true) (es : List (Event γ)) :
    (told name es).countP p = es.countP p := by
  rw [told, List.countP_filter]
  refine List.countP_congr fun e _ => ?_
  simpa using h e

theorem isAbout_of_starts {name : String} (e : Event γ) (h : starts name e = true) :
    isAbout name e = true := by
  cases e <;> first | exact h | cases h

theorem isAbout_of_ends {name : String} (e : Event γ) (h : ends name e = true) :
    isAbout name e = true := by
  cases e <;> first | exact h | cases h

theorem count_of_next? {spans spans' : List String} {e : Event γ}
    (h : next? spans e = some spans') (name : String) :
    spans.count name + [e].countP (starts name) =
      spans'.count name + [e].countP (ends name) := by
  cases e with
  | called | logged =>
      cases h
      rfl
  | spanStarted n kind attributes =>
      cases h
      simp [List.count_cons, starts, ends]
  | spanSucceeded | spanFailed | spanProblem =>
      simp only [next?] at h
      split at h
      · cases h
        rfl
      · cases h
  | spanEnded n =>
      simp only [next?] at h
      split at h
      case isTrue hhead =>
        cases h
        obtain ⟨rest, rfl⟩ := List.head?_eq_some_iff.mp hhead
        simp [List.count_cons, starts, ends]
      case isFalse => cases h

/-- Bracketed events end as many spans with a name as they start. -/
theorem Bracketed.countP_starts {es : List (Event γ)} (h : Bracketed es) (name : String) :
    es.countP (starts name) = es.countP (ends name) := by
  -- Stated for any spans that are open before and after, so that events may be dropped.
  have hcount : ∀ (es : List (Event γ)) (spans spans' : List String),
      es.foldlM next? spans = some spans' →
        spans.count name + es.countP (starts name) =
          spans'.count name + es.countP (ends name) := by
    intro es
    induction es with
    | nil =>
        intro spans spans' h
        cases h
        rfl
    | cons e es ih =>
        intro spans spans' h
        rw [List.foldlM_cons] at h
        obtain ⟨between, he, hes⟩ := Option.bind_eq_some_iff.mp h
        have hfirst := count_of_next? he name
        have hrest := ih between spans' hes
        rw [← List.singleton_append, List.countP_append, List.countP_append]
        omega
  exact Nat.add_left_cancel (hcount es [] [] (h []))

/-! ## Events of others -/

/-- Bracketed events that tell nothing of spans with certain names. -/
structure Apart (names : List String) (es : List (Event γ)) : Prop where
  bracketed : Bracketed es
  untold : ∀ name ∈ names, told name es = []

namespace Apart

variable {names : List String} {es fs : List (Event γ)}

theorem nil : Apart names ([] : List (Event γ)) := ⟨bracketed_nil, fun _ _ => rfl⟩

theorem mono {names' : List String} (h : Apart names es) (hn : names' ⊆ names) :
    Apart names' es :=
  ⟨h.bracketed, fun name hname => h.untold name (hn hname)⟩

theorem append (h : Apart names es) (h' : Apart names fs) : Apart names (es ++ fs) := by
  refine ⟨h.bracketed.append h'.bracketed, fun name hn => ?_⟩
  rw [told_append, h.untold name hn, h'.untold name hn, List.append_nil]

theorem map (h : Apart names es) (g : γ → δ) : Apart names (es.map (Event.map g)) := by
  refine ⟨h.bracketed.map g, fun name hn => ?_⟩
  rw [told_map, h.untold name hn, List.map_nil]

theorem called (c : γ) : Apart names [called c] := ⟨bracketed_called c, fun _ _ => rfl⟩

theorem logged {level : Level} (h : level ≠ .error) (channel : Channel) (event : String)
    (fields : Entries Value) :
    Apart names [(logged channel level event fields : Event γ)] :=
  ⟨bracketed_logged channel level event fields,
    fun name _ => told_logged h name channel event fields []⟩

end Apart

end Event

/-! ## One span -/

namespace Span

open Event

/-- The log line that a span has failed with a problem. -/
def failedLine (span : Span) (p : Problem) : Event γ :=
  .logged .shared .error (span.name ++ "_failed") (("error", .text p.text) :: span.attributes)

/-- What is told of a span between its start and its end, once its work has come to a
result. -/
def verdict (span : Span) : Except Problem α → List (Event γ)
  | .ok _ => [.spanSucceeded span.name]
  | .error p =>
    if p.isInterrupt then []
    else [.spanFailed span.name p.text, .spanProblem span.name p, span.failedLine p]

/-- All that is told of a span whose work comes to a result. -/
def account (span : Span) (result : Except Problem α) : List (Event γ) :=
  .spanStarted span.name span.kind span.attributes ::
    (span.verdict result ++ [.spanEnded span.name])

/-- Events tell the truth of a span whose work comes to a result. The span starts once and
ends once. It is said to have succeeded exactly if there is a result, and it is said to have
failed, with the problem and in a log line as well, exactly if there is a problem other than
an interruption. -/
structure Tells (span : Span) (es : List (Event γ)) (result : Except Problem α) : Prop where
  starts_once : es.countP (starts span.name) = 1
  ends_once : es.countP (ends span.name) = 1
  succeeded_iff : .spanSucceeded span.name ∈ es ↔ ∃ a, result = .ok a
  failed_iff : ∀ reason, .spanFailed span.name reason ∈ es ↔
    ∃ p, result = .error p ∧ p.isInterrupt = false ∧ reason = p.text
  problem_iff : ∀ p, .spanProblem span.name p ∈ es ↔ result = .error p ∧ p.isInterrupt = false
  line_iff : ∀ channel fields,
    .logged channel .error (span.name ++ "_failed") fields ∈ es ↔
      ∃ p, result = .error p ∧ p.isInterrupt = false ∧
        channel = .shared ∧ fields = ("error", .text p.text) :: span.attributes

theorem mem_verdict_iff {e : Event γ} {span : Span} {result : Except Problem α} :
    e ∈ span.verdict result ↔ (∃ a, result = .ok a ∧ e = .spanSucceeded span.name) ∨
      ∃ p, result = .error p ∧ p.isInterrupt = false ∧
        (e = .spanFailed span.name p.text ∨ e = .spanProblem span.name p ∨
          e = span.failedLine p) := by
  cases result with
  | ok a => simp [verdict]
  | error p => cases hp : p.isInterrupt <;> simp [verdict, hp]

theorem mem_account_iff {e : Event γ} {span : Span} (result : Except Problem α)
    (hs : starts span.name e = false) (he : ends span.name e = false) :
    e ∈ span.account result ↔ e ∈ span.verdict result := by
  have hne : e ≠ .spanStarted span.name span.kind span.attributes := by
    rintro rfl
    simp [starts] at hs
  have hne' : e ≠ .spanEnded span.name := by
    rintro rfl
    simp [ends] at he
  simp [account, hne, hne']

theorem countP_account {span : Span} {p : Event γ → Bool} (result : Except Problem α)
    (h : ∀ e ∈ (span.verdict result : List (Event γ)), p e = false) :
    (span.account result).countP p =
      [.spanStarted span.name span.kind span.attributes, .spanEnded span.name].countP p := by
  have hverdict : (span.verdict result).countP p = 0 :=
    List.countP_eq_zero.mpr fun e he => by simp [h e he]
  simp only [account, List.countP_cons, List.countP_append, hverdict, List.countP_nil, Nat.zero_add]

/-- The account of a span is all that the truth about it depends on. -/
theorem tells_of_told {span : Span} {es : List (Event γ)} {result : Except Problem α}
    (h : told span.name es = span.account result) : span.Tells es result := by
  have hmem : ∀ e : Event γ, isAbout span.name e = true → starts span.name e = false →
      ends span.name e = false → (e ∈ es ↔ e ∈ span.verdict result) := by
    intro e habout hstarts hends
    rw [← mem_told habout, h, mem_account_iff result hstarts hends]
  constructor
  · rw [← countP_told isAbout_of_starts, h, countP_account]
    · simp [starts]
    · intro e he
      rcases mem_verdict_iff.mp he with ⟨_, _, rfl⟩ | ⟨_, _, _, rfl | rfl | rfl⟩ <;> rfl
  · rw [← countP_told isAbout_of_ends, h, countP_account]
    · simp [ends]
    · intro e he
      rcases mem_verdict_iff.mp he with ⟨_, _, rfl⟩ | ⟨_, _, _, rfl | rfl | rfl⟩ <;> rfl
  · rw [hmem _ (by simp [isAbout]) rfl rfl, mem_verdict_iff]
    simp [failedLine]
  · intro reason
    rw [hmem _ (by simp [isAbout]) rfl rfl, mem_verdict_iff]
    simp [failedLine]
  · intro p
    rw [hmem _ (by simp [isAbout]) rfl rfl, mem_verdict_iff]
    simp [failedLine]
  · intro channel fields
    rw [hmem _ (by simp [isAbout]) rfl rfl, mem_verdict_iff]
    simp [failedLine]

/-! ## Work in a span -/

theorem isAbout_account {span : Span} {result : Except Problem α} {e : Event γ}
    (he : e ∈ span.account result) (name : String) :
    isAbout name e = (span.name == name) := by
  have hline : (span.name ++ "_failed" == name ++ "_failed") = (span.name == name) := by
    rw [Bool.eq_iff_iff, beq_iff_eq, beq_iff_eq, String.append_left_inj]
  rw [account, List.mem_cons, List.mem_append, List.mem_singleton, mem_verdict_iff] at he
  rcases he with rfl | (⟨_, _, rfl⟩ | ⟨_, _, _, rfl | rfl | rfl⟩) | rfl
  all_goals first | rfl | exact hline

/-- Nothing but the start of a span is told of spans before the work. -/
theorem exists_opening (span : Span) : ∃ notes : List (Event γ), (∀ names, Apart names notes) ∧
    span.opening = .spanStarted span.name span.kind span.attributes :: notes := by
  unfold opening
  split
  · exact ⟨_, fun _ => .logged (by decide) .., rfl⟩
  · exact ⟨[], fun _ => .nil, rfl⟩

/-- Nothing but a verdict and the end of a span is told of spans after the work. -/
theorem exists_closing (span : Span) (result : Except Problem α) :
    ∃ notes : List (Event γ), (∀ names, Apart names notes) ∧
      span.closing result = span.verdict result ++ (notes ++ [.spanEnded span.name]) := by
  rcases result with (_ | _ | _ | _) | a
  case ok =>
    simp only [closing]
    split
    · exact ⟨_, fun _ => .logged (by decide) .., rfl⟩
    · exact ⟨[], fun _ => .nil, rfl⟩
  all_goals exact ⟨[], fun _ => .nil, rfl⟩

theorem told_around_eq (span : Span) (name : String) (work : Run γ σ α) (s : σ) :
    told name (span.around work s).events =
      told name [.spanStarted span.name span.kind span.attributes] ++
        told name (work s).events ++
          told name (span.verdict (work s).result ++ [.spanEnded span.name]) := by
  obtain ⟨notes, hnotes, hopening⟩ := span.exists_opening (γ := γ)
  obtain ⟨notes', hnotes', hclosing⟩ := span.exists_closing (γ := γ) (work s).result
  have hn := (hnotes [name]).untold name List.mem_cons_self
  have hn' := (hnotes' [name]).untold name List.mem_cons_self
  rw [around, hopening, hclosing, ← List.singleton_append]
  simp only [told_append, hn, hn', List.append_nil, List.nil_append]

/-- Work that tells nothing of a span by the same name leaves the account of the span. -/
theorem told_around {span : Span} {work : Run γ σ α} {s : σ}
    (h : told span.name (work s).events = []) :
    told span.name (span.around work s).events = span.account (work s).result := by
  rw [told_around_eq, h, List.append_nil, ← told_append]
  refine List.filter_eq_self.mpr fun e he => ?_
  rw [isAbout_account he, beq_self_eq_true]

/-- Of other spans no more is told than by the work. -/
theorem told_around_other {span : Span} {name : String} (hname : span.name ≠ name)
    (work : Run γ σ α) (s : σ) :
    told name (span.around work s).events = told name (work s).events := by
  have hnone : told name (span.account (work s).result : List (Event γ)) = [] := by
    refine List.filter_eq_nil_iff.mpr fun e he => ?_
    rw [isAbout_account he, beq_iff_eq]
    exact hname
  rw [account, ← List.singleton_append, told_append, List.append_eq_nil_iff] at hnone
  rw [told_around_eq, hnone.1, hnone.2, List.nil_append, List.append_nil]

theorem bracketed_around (span : Span) {work : Run γ σ α} {s : σ}
    (h : Bracketed (work s).events) : Bracketed (span.around work s).events := by
  obtain ⟨notes, hnotes, hopening⟩ := span.exists_opening (γ := γ)
  obtain ⟨notes', hnotes', hclosing⟩ := span.exists_closing (γ := γ) (work s).result
  intro spans
  have hverdict : (span.verdict (work s).result : List (Event γ)).foldlM next?
      (span.name :: spans) = some (span.name :: spans) := by
    unfold verdict
    split
    · simp [next?]
    · split <;> simp [next?, failedLine]
  have hn := (hnotes []).bracketed (span.name :: spans)
  have hn' := (hnotes' []).bracketed (span.name :: spans)
  rw [around, hopening, hclosing]
  simp [List.foldlM_append, next?, hn, h _, hverdict, hn']

/-- What is left behind by work in a span. The span is the first thing to start and the last
to end, the spans inside are bracketed, so that as many of any name end as start, the truth is
told of the span, and what the work came to is passed on. -/
structure Frames (span : Span) (o : Outcome γ σ α) (worked : Except Problem α) : Prop where
  bracketed : Bracketed o.events
  balanced : ∀ name, o.events.countP (starts name) = o.events.countP (ends name)
  first : o.events.head? = some (.spanStarted span.name span.kind span.attributes)
  last : o.events.getLast? = some (.spanEnded span.name)
  tells : span.Tells o.events worked
  passes_on : o.result = worked

end Span

/-! ## Computations -/

/-- A computation keeps apart from spans with certain names, whatever state it starts in. -/
def Run.Apart (names : List String) (r : Run γ σ α) : Prop :=
  ∀ s, Event.Apart names (r s).events

namespace Run.Apart

open Event

variable {names : List String} {r : Run γ σ α}

theorem done (a : α) : (Run.done a : Run γ σ α).Apart names := fun _ => .nil

theorem fail (p : Problem) : (Run.fail p : Run γ σ α).Apart names := fun _ => .nil

theorem ofExcept (e : Except Problem α) : (Run.ofExcept e : Run γ σ α).Apart names := by
  cases e with
  | error p => exact fail p
  | ok a => exact done a

theorem log (channel : Channel) {level : Level} (h : level ≠ .error) (event : String)
    (fields : Entries Value) :
    (Run.log channel level event fields : Run γ σ Unit).Apart names :=
  fun _ => .logged h ..

theorem bind (hr : r.Apart names) {f : α → Run γ σ β} (hf : ∀ a, (f a).Apart names) :
    (r >>= f).Apart names := by
  intro s
  cases hresult : (r s).result with
  | error p =>
      rw [bind_of_error hresult]
      exact hr s
  | ok a =>
      rw [bind_of_ok hresult]
      exact (hr s).append (hf a _)

theorem calling {work : Run Empty σ α} (h : work.Apart names) (c : γ) :
    (Run.calling c work).Apart names :=
  fun s => (Event.Apart.called c).append ((h s).map _)

theorem mapProblem (hr : r.Apart names) (f : Problem → Problem) :
    (r.mapProblem f).Apart names := hr

theorem handling (hr : r.Apart names) {handler : Problem → Run γ σ α}
    (hh : ∀ p, (handler p).Apart names) : (r.handling handler).Apart names := by
  intro s
  have h := hr s
  rw [Run.handling]
  generalize r s = o at h
  obtain ⟨events, state, p | a⟩ := o
  · by_cases hp : p.isInterrupt = true
    · simpa only [if_pos hp] using h
    · simpa only [if_neg hp] using h.append (hh p state)
  · exact h

theorem always (hr : r.Apart names) {last : Run γ σ Unit} (hl : last.Apart names) :
    (r.always last).Apart names := by
  intro s
  rw [always_events]
  exact (hr s).append (hl _)

theorem around (hr : r.Apart names) {span : Span} (hname : span.name ∉ names) :
    (span.around r).Apart names := by
  refine fun s => ⟨span.bracketed_around (hr s).bracketed, fun name hn => ?_⟩
  rw [Span.told_around_other (by rintro rfl; exact hname hn)]
  exact (hr s).untold name hn

theorem told_eq {name : String} (hr : r.Apart [name]) (s : σ) : told name (r s).events = [] :=
  (hr s).untold name List.mem_cons_self

/-- What comes before apart from a span adds nothing to what is told of it. -/
theorem told_bind_of_ok {name : String} (hr : r.Apart [name]) {s : σ} {a : α}
    (h : (r s).result = .ok a) (f : α → Run γ σ β) :
    told name ((r >>= f) s).events = told name (f a (r s).state).events := by
  rw [bind_of_ok h, Outcome.preceded, told_append, hr.told_eq, List.nil_append]

/-- What follows apart from a span adds nothing to what is told of it. -/
theorem told_bind {f : α → Run γ σ β} {name : String} (hf : ∀ a, (f a).Apart [name])
    (r : Run γ σ α) (s : σ) : told name ((r >>= f) s).events = told name (r s).events := by
  cases hresult : (r s).result with
  | error p => rw [bind_of_error hresult]
  | ok a =>
      rw [bind_of_ok hresult, Outcome.preceded, told_append, (hf a).told_eq, List.append_nil]

end Run.Apart

theorem Span.frames_around {span : Span} {work : Run γ σ α} (h : work.Apart [span.name])
    (s : σ) : span.Frames (span.around work s) (work s).result where
  bracketed := span.bracketed_around (h s).bracketed
  balanced := (span.bracketed_around (h s).bracketed).countP_starts
  first := by
    obtain ⟨notes, -, hopening⟩ := span.exists_opening (γ := γ)
    simp [around, hopening]
  last := by
    obtain ⟨notes, -, hclosing⟩ := span.exists_closing (γ := γ) (work s).result
    simp [around, hclosing]
  tells := tells_of_told (told_around (h.told_eq s))
  passes_on := rfl

end LinkedTables
