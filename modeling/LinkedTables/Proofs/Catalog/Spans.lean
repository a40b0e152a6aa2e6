import LinkedTables.Proofs.Catalog.Agreement
import LinkedTables.Proofs.Trace.Spans

set_option autoImplicit false

/-! # Spans of an answer

An answer is work in one span. If a query is posed in its course, then the query and the
reading of its rows are work in a second span inside the first one, and nothing else is.
What becomes of the answer after the query is told of the outer span only.
-/

namespace LinkedTables

open Event

/-- The name of the span around a query. -/
def Span.queryName : String := "warehouse.query"

theorem Request.span_name_ne_queryName (r : Request) : r.span.name ≠ Span.queryName := by
  obtain ⟨_, _, _, question⟩ := r
  cases question <;>
    simp [Request.span, Span.metastoreOperation, Span.queryName, Question.operation]

namespace Clients

variable {σ δ : Type}

/-- Whatever collaborators are called with, they keep apart from spans with certain names. -/
structure Apart (c : Clients σ δ) (names : List String) : Prop where
  getTable : ∀ catalog database table, (c.getTable catalog database table).Apart names
  query : ∀ sql, (c.query sql).Apart names
  getMetadata : ∀ id, (c.getMetadata id).Apart names
  decode : ∀ bytes, (c.decode bytes).Apart names
  delegate : ∀ r, (c.delegate r).Apart names

theorem Apart.mono {c : Clients σ δ} {names names' : List String} (h : c.Apart names)
    (hn : names' ⊆ names) : c.Apart names' where
  getTable _ _ _ s := (h.getTable _ _ _ s).mono hn
  query _ s := (h.query _ s).mono hn
  getMetadata _ s := (h.getMetadata _ s).mono hn
  decode _ s := (h.decode _ s).mono hn
  delegate _ s := (h.delegate _ s).mono hn

variable {c : Clients σ δ} {names : List String} {t : Table} {link : Link}
  {f : Option Filter} {limit : Int} {sql : String} {s s' : σ}

/-! ## Parts of an answer -/

namespace Apart

theorem linkedTable (h : c.Apart names) (r : Request) :
    (c.linkedTable r.catalog r.database r.table).Apart names :=
  (((h.getTable r.catalog r.database r.table).calling _).mapProblem _).bind fun _ => .done _

theorem decoded (h : c.Apart names) (bytes : ByteArray) : (c.decoded bytes).Apart names :=
  ((h.decode bytes).calling _).mapProblem _

theorem queriedIds (h : c.Apart names) (sql : String) : (c.queriedIds sql).Apart names :=
  (((h.query sql).calling _).bind fun _ => .ofExcept _).mapProblem _

theorem metadata (h : c.Apart names) (id : TableId) : (c.metadata id).Apart names :=
  ((h.getMetadata id).calling _).mapProblem _

end Apart

/-- What follows on a query: the ids become values. -/
def valuesOf (c : Clients σ δ) (t : Table) (link : Link) (ids : List String) :
    Run CatalogCall σ (List String) := do
  let m ← c.metadata link.target
  let values ← Run.ofExcept (DayId.convert ids m.timePartitioning)
  if !ids.isEmpty && values.isEmpty then
    Run.log c.channel .warning "partition_enumeration_unsupported"
      (logNames t link ++
        [("time_partitioning", .ofText? (m.timePartitioning.map (·.granularity.word)))])
  Run.log c.channel .debug "partition_ids_fetched"
    (logNames t link ++ [("count", .int values.length)])
  return values

theorem fetchValues_eq (c : Clients σ δ) (t : Table) (f : Option Filter) (limit : Int) :
    c.fetchValues t f limit = Run.ofExcept (Link.ofTable t) >>= fun link =>
      Run.ofExcept (link.target.filteredQuery f limit) >>= fun sql =>
        (Span.warehouseQuery sql).around (c.queriedIds sql) >>= c.valuesOf t link := rfl

namespace Apart

theorem valuesOf (h : c.Apart names) (t : Table) (link : Link) (ids : List String) :
    (c.valuesOf t link ids).Apart names := by
  refine (h.metadata link.target).bind fun m => .bind (.ofExcept _) fun values => ?_
  split
  · exact .bind (.log _ (by decide) _ _) fun _ => .bind (.log _ (by decide) _ _) fun _ => .done _
  · exact .bind (.log _ (by decide) _ _) fun _ => .done _

theorem fetchValues (h : c.Apart names) (hq : Span.queryName ∉ names) (t : Table)
    (f : Option Filter) (limit : Int) : (c.fetchValues t f limit).Apart names :=
  .bind (.ofExcept _) fun _ => .bind (.ofExcept _) fun sql =>
    ((h.queriedIds sql).around hq).bind (h.valuesOf t _)

theorem fetchPartitions (h : c.Apart names) (hq : Span.queryName ∉ names) (t : Table)
    (f : Option Filter) (limit : Int) : (c.fetchPartitions t f limit).Apart names :=
  .bind (.ofExcept _) fun _ => (h.fetchValues hq t f limit).bind fun _ => .done _

theorem fetchNames (h : c.Apart names) (hq : Span.queryName ∉ names) (t : Table)
    (f : Option Filter) (limit : Int) : (c.fetchNames t f limit).Apart names :=
  .bind (.ofExcept _) fun _ => (h.fetchValues hq t f limit).bind fun _ => .done _

theorem answerLinked (h : c.Apart names) (hq : Span.queryName ∉ names) (t : Table)
    (q : Question) : (c.answerLinked t q).Apart names := by
  cases q with
  | byFilter bytes defaultName limit =>
      exact (h.decoded bytes).bind fun f => .bind (.ofExcept _) fun g =>
        (h.fetchPartitions hq t _ _).bind fun _ => .done _
  | all | byValues => exact (h.fetchPartitions hq t _ _).bind fun _ => .done _
  | names | namesByValues => exact (h.fetchNames hq t _ _).bind fun _ => .done _

/-- An answer uses one span more than its collaborators, that of the query. -/
theorem work (h : c.Apart names) (hq : Span.queryName ∉ names) (r : Request) :
    (c.work r).Apart names := by
  refine (h.linkedTable r).bind fun found => ?_
  cases found with
  | none => exact ((h.delegate r).calling _).bind fun _ => .done _
  | some t => exact h.answerLinked hq t r.question

end Apart

/-! ## The span of the query -/

section

variable (h : c.Apart [Span.queryName])
include h

theorem told_fetchValues (hl : Link.ofTable t = .ok link)
    (hs : link.target.filteredQuery f limit = .ok sql) :
    told Span.queryName (c.fetchValues t f limit s).events =
      (Span.warehouseQuery sql).account (c.queriedIds sql s).result := by
  have hwork : told (Span.warehouseQuery sql).name (c.queriedIds sql s).events = [] :=
    (h.queriedIds sql).told_eq s
  rw [fetchValues_eq, Run.ofExcept_bind_of_ok hl, Run.ofExcept_bind_of_ok hs,
    Run.Apart.told_bind (h.valuesOf t link)]
  exact Span.told_around hwork

/-- A filter that can be decoded tells nothing of the query yet. -/
theorem told_answerLinked_of_decoded {bytes : ByteArray} {g : Filter}
    (hg : (c.decode bytes s).result = .ok g) (defaultName : String) (limit : Int) :
    told Span.queryName (c.answerLinked t (.byFilter bytes defaultName limit) s).events =
      told Span.queryName ((Run.ofExcept g.toPartitionId >>=
        fun onIds => c.fetchPartitions t (some onIds) (-1)) (c.decode bytes s).state).events := by
  have hend := c.comesTo_decoded bytes s
  rw [hg] at hend
  rw [Clients.answerLinked, (h.decoded bytes).told_bind_of_ok hend.result_eq, hend.state_eq]
  cases g.toPartitionId with
  | error e => rfl
  | ok onIds =>
      exact Run.Apart.told_bind (fun _ => .done _) (c.fetchPartitions t (some onIds) (-1)) _

/-- What is told of the query in the course of an answer is what is told of it when the values
are fetched. -/
theorem told_answerLinked {q : Question} (hq : c.Selects q s f s')
    (hl : Link.ofTable t = .ok link) :
    told Span.queryName (c.answerLinked t q s).events =
      told Span.queryName (c.fetchValues t f q.limit s').events := by
  cases hq with
  | given hb =>
      rw [c.answerLinked_of_link hb hl]
      rfl
  | @decoded bytes g g' hb hg hcarried =>
      cases q <;> cases hb
      rw [told_answerLinked_of_decoded h hg, hcarried]
      exact congrArg (fun o => told Span.queryName o.events)
        (c.fetchPartitions_of_link hl (some g') (-1))

/-- Without a filter and a link there is no query. -/
theorem told_answerLinked_of_unposed {q : Question}
    (hnone : ∀ link f s', Link.ofTable t = .ok link → ¬ c.Selects q s f s') :
    told Span.queryName (c.answerLinked t q s).events = [] := by
  cases hb : q.bytes? with
  | none =>
      cases hl : Link.ofTable t with
      | ok link => exact absurd (.given hb) (hnone link _ _ hl)
      | error p =>
          rw [c.answerLinked_of_unlinkable hb hl]
          rfl
  | some bytes =>
      cases q <;> cases hb
      cases hf : (c.decode bytes s).result with
      | error p =>
          have hend := c.comesTo_decoded bytes s
          rw [hf] at hend
          rw [Clients.answerLinked, Run.bind_of_error hend.result_eq]
          exact (h.decoded bytes).told_eq s
      | ok g =>
          rw [told_answerLinked_of_decoded h hf]
          cases hg : g.toPartitionId with
          | error e => rfl
          | ok g' =>
              cases hl : Link.ofTable t with
              | ok link => exact absurd (.decoded rfl hf hg) (hnone link _ _ hl)
              | error p =>
                  have hfetch : c.fetchPartitions t (some g') (-1) (c.decode bytes s).state =
                      ⟨[], _, .error p⟩ := Run.ofExcept_bind_of_error hl _
                  exact congrArg (fun o => told Span.queryName o.events) hfetch

/-! ## The whole answer -/

variable {r : Request}

omit h in
theorem told_answer (r : Request) (s : σ) :
    told Span.queryName (c.answer r s).events = told Span.queryName (c.work r s).events :=
  Span.told_around_other r.span_name_ne_queryName (c.work r) s

theorem told_answer_of_posed (hp : c.Posed r s t link sql s') :
    told Span.queryName (c.answer r s).events =
      (Span.warehouseQuery sql).account (c.queriedIds sql s').result := by
  obtain ⟨f, hf, hs⟩ := hp.query
  rw [told_answer, c.work_of_marked hp.found hp.marked, Outcome.preceded, told_append,
    (h.linkedTable r).told_eq, told_answerLinked h hf hp.link_eq,
    told_fetchValues h hp.link_eq hs, List.nil_append]

theorem told_answer_of_unposed (hnone : ∀ t link sql s', ¬ c.Posed r s t link sql s') :
    told Span.queryName (c.answer r s).events = [] := by
  rw [told_answer]
  cases ht : (c.looked r s).result with
  | error p =>
      rw [c.work_of_unfound ht]
      exact (h.linkedTable r).told_eq s
  | ok t =>
      cases hm : t.isLinked with
      | true =>
          rw [c.work_of_marked ht hm, Outcome.preceded, told_append,
            (h.linkedTable r).told_eq, List.nil_append]
          refine told_answerLinked_of_unposed h fun link f s' hl hf => ?_
          obtain ⟨sql, hp⟩ := hf.exists_posed ht hm hl
          exact hnone t link sql s' hp
      | false =>
          have hend := c.comesTo_linkedTable r s
          simp only [ht, Except.mapError, Except.map, hm] at hend
          rw [Clients.work, (h.linkedTable r).told_bind_of_ok hend.result_eq]
          exact (((h.delegate r).calling _).bind fun _ => .done _).told_eq _

end

/-- The truth is told of the spans of an answer. The answer is framed by its own span. If a
query is posed, the truth is told of the query, and what breaks it off is also what breaks
off the answer; otherwise nothing is told of a query. -/
structure SpansTell (c : Clients σ δ) (r : Request) (s : σ) : Prop where
  answer : r.span.Frames (c.answer r s) (c.work r s).result
  query : ∀ t link sql s', c.Posed r s t link sql s' →
    (Span.warehouseQuery sql).Tells (c.answer r s).events (c.queriedIds sql s').result ∧
      ∀ p, (c.queriedIds sql s').result = .error p → (c.answer r s).result = .error p
  noQuery : (∀ t link sql s', ¬ c.Posed r s t link sql s') →
    told Span.queryName (c.answer r s).events = []

theorem spansTell {r : Request} (h : c.Apart [r.span.name, Span.queryName]) (s : σ) :
    c.SpansTell r s where
  answer := by
    have hown : c.Apart [r.span.name] := h.mono (by simp)
    have hquery : Span.queryName ∉ [r.span.name] := by
      simpa using r.span_name_ne_queryName.symm
    exact Span.frames_around (hown.work hquery r) s
  query := by
    intro t link sql s' hp
    refine ⟨Span.tells_of_told (told_answer_of_posed (h.mono (by simp)) hp), ?_⟩
    intro p hresult
    rw [(c.comesTo_queriedIds sql s').result_eq] at hresult
    cases hi : c.listed sql s' with
    | ok ids =>
        rw [hi] at hresult
        cases hresult
    | error p' =>
        rw [hi] at hresult
        cases hresult
        exact (comesTo_answer_of_unlisted hp hi).result_eq
  noQuery := told_answer_of_unposed (h.mono (by simp))

end Clients

end LinkedTables
