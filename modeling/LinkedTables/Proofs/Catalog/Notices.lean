import LinkedTables.Proofs.Catalog.Places
import LinkedTables.Proofs.Catalog.Spans

set_option autoImplicit false

/-! # Notices about partition ids

When values are made of partition ids, the log is told of it in notices: how many values there
are, and whether there are ids of which none were made. A collaborator might write such lines
too, so that a trace is read with those lines apart that come from a collaborator
(`Clients.Notes`). The rest are the notices of the library's own, and these tell an empty
answer that is empty because there are no partitions from one that is empty because they
cannot be enumerated (`Clients.emptiness_told_apart`).
-/

namespace LinkedTables

variable {γ σ δ α β : Type}

/-! ## Notices -/

namespace Event

/-- A warning that there are partition ids, but no values are made of them. -/
def isUnsupported : Event γ → Bool
  | logged _ level event _ => level = .warning && event == "partition_enumeration_unsupported"
  | _ => false

/-- A line that says how many values were made of partition ids. -/
def isFetched : Event γ → Bool
  | logged _ _ event _ => event == "partition_ids_fetched"
  | _ => false

/-- The events among some that are notices about partition ids, in order. -/
def notices (es : List (Event γ)) : List (Event γ) :=
  es.filter fun e => e.isUnsupported || e.isFetched

@[simp] theorem notices_append (es fs : List (Event γ)) :
    notices (es ++ fs) = notices es ++ notices fs :=
  List.filter_append es fs

@[simp] theorem notices_called (c : γ) (es : List (Event γ)) :
    notices (called c :: es) = notices es := rfl

end Event

namespace Span

open Event

/-- The names of log lines about spans end in a way in which no name of a notice ends. -/
theorem notices_logged {suffix : String} (hsuffix : suffix ∈ ["_started", "_completed", "_failed"])
    (name : String) (channel : Channel) (level : Level) (fields : Entries Value) :
    notices [(logged channel level (name ++ suffix) fields : Event γ)] = [] := by
  have hne {text : String} (h : ¬ suffix.toList <:+ text.toList) : name ++ suffix ≠ text := by
    rintro rfl
    exact h ⟨name.toList, String.toList_append.symm⟩
  have hunsupported : name ++ suffix ≠ "partition_enumeration_unsupported" := hne (by
    rcases hsuffix with _ | ⟨_, _ | ⟨_, _ | ⟨_, ⟨⟩⟩⟩⟩ <;> decide)
  have hfetched : name ++ suffix ≠ "partition_ids_fetched" := hne (by
    rcases hsuffix with _ | ⟨_, _ | ⟨_, _ | ⟨_, ⟨⟩⟩⟩⟩ <;> decide)
  simp [notices, isUnsupported, isFetched, hunsupported, hfetched]

theorem notices_opening (span : Span) : notices (span.opening : List (Event γ)) = [] := by
  unfold opening
  split
  · exact notices_logged (by simp) ..
  · rfl

theorem notices_closing (span : Span) (result : Except Problem α) :
    notices (span.closing result : List (Event γ)) = [] := by
  unfold closing
  split
  · split
    · exact notices_logged (by simp) ..
    · rfl
  · rfl
  · exact notices_logged (by simp) ..

end Span

/-! ## What collaborators leave in a trace -/

namespace Clients

open Event

/-- Events that a collaborator leaves when it is asked about a linked table. -/
inductive Utters (c : Clients σ δ) : Event CatalogCall → Prop
  | getTable {catalog database table : String} {s : σ} {e : Event Empty}
      (h : e ∈ (c.getTable catalog database table s).events) : Utters c (e.map Empty.elim)
  | decode {bytes : ByteArray} {s : σ} {e : Event Empty} (h : e ∈ (c.decode bytes s).events) :
      Utters c (e.map Empty.elim)
  | query {sql : String} {s : σ} {e : Event Empty} (h : e ∈ (c.query sql s).events) :
      Utters c (e.map Empty.elim)
  | getMetadata {id : TableId} {s : σ} {e : Event Empty} (h : e ∈ (c.getMetadata id s).events) :
      Utters c (e.map Empty.elim)

/-- All notices that a computation leaves come from collaborators. -/
def Unremarked (c : Clients σ δ) (r : Run CatalogCall σ α) : Prop :=
  ∀ s, ∀ e ∈ notices (r s).events, c.Utters e

/-- The notices among events are some that come from collaborators, and then certain ones. -/
def Notes (c : Clients σ δ) (es own : List (Event CatalogCall)) : Prop :=
  ∃ heard, notices es = heard ++ own ∧ ∀ e ∈ heard, c.Utters e

variable {c : Clients σ δ} {t : Table} {link : Link} {f : Option Filter} {limit : Int}
  {sql : String} {s s' : σ} {ids values : List String} {rows : Rows} {m : TableMetadata}
  {own : List (Event CatalogCall)}

namespace Unremarked

variable {r : Run CatalogCall σ α}

theorem done (a : α) : c.Unremarked (Run.done a) := fun _ => List.forall_mem_nil _

theorem ofExcept (e : Except Problem α) : c.Unremarked (Run.ofExcept e) := by
  cases e <;> exact fun _ => List.forall_mem_nil _

theorem bind (hr : c.Unremarked r) {g : α → Run CatalogCall σ β}
    (hg : ∀ a, c.Unremarked (g a)) : c.Unremarked (r >>= g) := by
  intro s
  cases hresult : (r s).result with
  | error p =>
      rw [Run.bind_of_error hresult]
      exact hr s
  | ok a =>
      rw [Run.bind_of_ok hresult, Outcome.preceded, notices_append]
      exact List.forall_mem_append.mpr ⟨hr s, hg a _⟩

theorem calling {work : Run Empty σ α}
    (h : ∀ s, ∀ e ∈ (work s).events, c.Utters (e.map Empty.elim)) (call : CatalogCall) :
    c.Unremarked (Run.calling call work) := by
  intro s e he
  rw [Run.calling_apply, notices_called] at he
  obtain ⟨e', he', rfl⟩ := List.mem_map.mp (List.mem_filter.mp he).1
  exact h s e' he'

theorem mapProblem (hr : c.Unremarked r) (change : Problem → Problem) :
    c.Unremarked (r.mapProblem change) := hr

theorem around (hr : c.Unremarked r) (span : Span) : c.Unremarked (span.around r) := by
  intro s
  rw [Span.around, notices_append, notices_append, span.notices_opening, span.notices_closing,
    List.nil_append, List.append_nil]
  exact hr s

theorem linkedTable (catalog database table : String) :
    c.Unremarked (c.linkedTable catalog database table) :=
  ((calling (fun _ _ => .getTable) _).mapProblem _).bind fun _ => .done _

theorem decoded (bytes : ByteArray) : c.Unremarked (c.decoded bytes) :=
  (calling (fun _ _ => .decode) _).mapProblem _

theorem queriedIds (sql : String) : c.Unremarked (c.queriedIds sql) :=
  ((calling (fun _ _ => .query) _).bind fun _ => .ofExcept _).mapProblem _

theorem metadata (id : TableId) : c.Unremarked (c.metadata id) :=
  (calling (fun _ _ => .getMetadata) _).mapProblem _

end Unremarked

/-- What is done before adds no notices to those of the library's own. -/
theorem Notes.after {r : Run CatalogCall σ α} (hr : c.Unremarked r) {a : α}
    (ha : (r s).result = .ok a) {g : α → Run CatalogCall σ β}
    (h : c.Notes (g a (r s).state).events own) : c.Notes ((r >>= g) s).events own := by
  obtain ⟨heard, hnotices, hheard⟩ := h
  rw [Run.bind_of_ok ha, Outcome.preceded]
  refine ⟨notices (r s).events ++ heard, ?_, List.forall_mem_append.mpr ⟨hr s, hheard⟩⟩
  rw [notices_append, hnotices, List.append_assoc]

theorem Notes.around {work : Run CatalogCall σ α} (h : c.Notes (work s).events own)
    (span : Span) : c.Notes (span.around work s).events own := by
  obtain ⟨heard, hnotices, hheard⟩ := h
  refine ⟨heard, ?_, hheard⟩
  rw [Span.around, notices_append, notices_append, span.notices_opening, span.notices_closing,
    hnotices, List.nil_append, List.append_nil]

/-! ## The notices of the library's own -/

/-- What is noticed in the log once ids have become values. -/
def remarks (c : Clients σ δ) (t : Table) (link : Link) (m : TableMetadata)
    (ids values : List String) : List (Event CatalogCall) :=
  (if !ids.isEmpty && values.isEmpty then
    [.logged c.channel .warning "partition_enumeration_unsupported" (logNames t link ++
      [("time_partitioning", .ofText? (m.timePartitioning.map (·.granularity.word)))])]
  else []) ++
    [.logged c.channel .debug "partition_ids_fetched"
      (logNames t link ++ [("count", .int values.length)])]

theorem notes_valuesOf (hm : (c.getMetadata link.target s).result = .ok m)
    (hv : DayId.convert ids m.timePartitioning = .ok values) :
    c.Notes (c.valuesOf t link ids s).events (c.remarks t link m ids values) := by
  have hend := c.comesTo_metadata link.target s
  rw [hm] at hend
  refine .after (.metadata _) hend.result_eq ?_
  rw [Run.ofExcept_bind_of_ok hv]
  refine ⟨[], ?_, List.forall_mem_nil _⟩
  rw [remarks]
  split <;> rfl

theorem notes_fetchValues (hl : Link.ofTable t = .ok link)
    (hs : link.target.filteredQuery f limit = .ok sql) (hi : c.listed sql s = .ok ids)
    (hm : (c.getMetadata link.target (c.query sql s).state).result = .ok m)
    (hv : DayId.convert ids m.timePartitioning = .ok values) :
    c.Notes (c.fetchValues t f limit s).events (c.remarks t link m ids values) := by
  have hend := (c.comesTo_queriedIds sql s).around (Span.warehouseQuery sql)
  rw [hi] at hend
  rw [fetchValues_eq, Run.ofExcept_bind_of_ok hl, Run.ofExcept_bind_of_ok hs]
  refine .after ((Unremarked.queriedIds sql).around _) hend.result_eq ?_
  rw [hend.state_eq]
  exact notes_valuesOf hm hv

theorem notes_answerLinked {q : Question} (hq : c.Selects q s f s')
    (hl : Link.ofTable t = .ok link) (h : c.Notes (c.fetchValues t f q.limit s').events own) :
    c.Notes (c.answerLinked t q s).events own := by
  cases hq with
  | given hb =>
      rw [c.answerLinked_of_link hb hl]
      exact h
  | @decoded bytes g g' hb hg hcarried =>
      cases q <;> cases hb
      have hend := c.comesTo_decoded bytes s
      rw [hg] at hend
      refine .after (.decoded bytes) hend.result_eq ?_
      rw [hend.state_eq, Run.ofExcept_bind_of_ok hcarried, Run.bind_pure_eq_map,
        c.fetchPartitions_of_link hl]
      exact h

theorem notes_answer {r : Request} (ht : (c.looked r s).result = .ok t) (hm : t.isLinked = true)
    (h : c.Notes (c.answerLinked t r.question (c.looked r s).state).events own) :
    c.Notes (c.answer r s).events own := by
  have hend := c.comesTo_linkedTable r s
  simp only [ht, Except.mapError, Except.map, hm, if_true] at hend
  have hwork : c.Notes (c.work r s).events own := by
    refine .after (.linkedTable r.catalog r.database r.table) hend.result_eq ?_
    rw [hend.state_eq]
    exact h
  exact hwork.around r.span

end Clients

/-! ## Empty answers -/

/-- A table of the warehouse is partitioned by day. -/
def TableMetadata.Daily (m : TableMetadata) : Prop :=
  ∃ p ∈ m.timePartitioning, p.granularity = .day

theorem TableMetadata.isDaily_iff {m : TableMetadata} :
    DayId.isDaily m.timePartitioning = true ↔ m.Daily := by
  obtain ⟨_ | p⟩ := m <;> simp [DayId.isDaily, Daily]

/-- Each row that is read gives one id. -/
theorem Rows.length_of_texts {rows : Rows} {ids : List String} (h : rows.texts = .ok ids) :
    ids.length = rows.rows.length := by
  obtain ⟨rows, ending⟩ := rows
  unfold texts at h
  fun_induction firstCells ending rows generalizing ids <;> grind

theorem Question.length_reply (q : Question) (t : Table) (key : String) (values : List String) :
    (q.reply t key values : Reply δ).listed.length +
      (q.reply t key values : Reply δ).named.length = values.length := by
  cases q <;> simp [reply, Reply.listed, Reply.named]

namespace Clients

open Event

variable {c : Clients σ δ} {t : Table} {link : Link} {f : Option Filter} {limit : Int}
  {s s' : σ} {ids values : List String} {rows : Rows} {m : TableMetadata}

/-- The query for partitions of a linked table is answered with rows, and then the warehouse
describes its table. -/
structure Supplied (c : Clients σ δ) (t : Table) (f : Option Filter) (limit : Int) (s : σ)
    (link : Link) (rows : Rows) (m : TableMetadata) : Prop where
  link_eq : Link.ofTable t = .ok link
  answered : ∃ sql, link.target.filteredQuery f limit = .ok sql ∧
    (c.query sql s).result = .ok rows ∧
    (c.getMetadata link.target (c.query sql s).state).result = .ok m

/-- Notices tell an answer with some number of entries that is empty because there are no rows
from one that is empty because its table is not partitioned by day. -/
structure TellsApart (c : Clients σ δ) (t : Table) (link : Link) (rows : Rows)
    (m : TableMetadata) (size : Nat) (own : List (Event CatalogCall)) : Prop where
  unsupported_iff : (∃ e ∈ own, e.isUnsupported = true) ↔ rows.rows ≠ [] ∧ ¬ m.Daily
  at_most_once : own.countP isUnsupported ≤ 1
  empty_of_unsupported : (∃ e ∈ own, e.isUnsupported = true) → size = 0
  no_rows : size = 0 → (∀ e ∈ own, e.isUnsupported = false) → rows.rows = []
  supported_of_daily : m.Daily → ∀ e ∈ own, e.isUnsupported = false
  fetched_eq : own.filter isFetched = [.logged c.channel .debug "partition_ids_fetched"
    (logNames t link ++ [("count", .int size)])]

/-- There is a warning if there are ids, but no values. -/
theorem exists_unsupported_iff : (∃ e ∈ c.remarks t link m ids values, e.isUnsupported = true) ↔
    ids ≠ [] ∧ values = [] := by
  cases ids <;> cases values <;> simp [remarks, isUnsupported]

/-- Ids that are converted without values are those of a table that is not partitioned by
day. -/
theorem converted_to_none_iff (hids : ids ≠ [])
    (hv : DayId.convert ids m.timePartitioning = .ok values) : values = [] ↔ ¬ m.Daily := by
  rw [← TableMetadata.isDaily_iff]
  unfold DayId.convert at hv
  split at hv
  case isTrue hdaily =>
    have hlength := (DayId.toValues_eq_ok_iff.mp hv).length_eq
    constructor
    · rintro rfl
      exact absurd (List.length_eq_zero_iff.mp hlength) hids
    · exact fun hnot => absurd hdaily hnot
  case isFalse hdaily =>
    cases hv
    exact iff_of_true rfl hdaily

theorem tellsApart_remarks (hi : rows.texts = .ok ids)
    (hv : DayId.convert ids m.timePartitioning = .ok values) :
    c.TellsApart t link rows m values.length (c.remarks t link m ids values) := by
  have hrows : ids ≠ [] ↔ rows.rows ≠ [] := by
    rw [← List.length_pos_iff, ← List.length_pos_iff, Rows.length_of_texts hi]
  have hiff : (∃ e ∈ c.remarks t link m ids values, e.isUnsupported = true) ↔
      rows.rows ≠ [] ∧ ¬ m.Daily := by
    rw [exists_unsupported_iff, ← hrows]
    exact and_congr_right fun hids => converted_to_none_iff hids hv
  have hnone : (∀ e ∈ c.remarks t link m ids values, e.isUnsupported = false) ↔
      ¬ (rows.rows ≠ [] ∧ ¬ m.Daily) := by
    rw [← hiff]
    simp
  constructor
  · exact hiff
  · cases ids <;> cases values <;> simp [remarks, isUnsupported]
  · intro hexists
    rw [(exists_unsupported_iff.mp hexists).2, List.length_nil]
  · intro hsize hno
    by_contra hne
    have hvalues := List.length_eq_zero_iff.mp hsize
    exact hnone.mp hno ⟨hne, (converted_to_none_iff (hrows.mpr hne) hv).mp hvalues⟩
  · exact fun hdaily => hnone.mpr fun h => h.2 hdaily
  · cases ids <;> cases values <;> simp [remarks, isFetched]

/-- The notices of the library's own among the events of a call, which returns a number of
entries, tell from what the warehouse supplied why there are none, if there are none. -/
def Explains (c : Clients σ δ) (t : Table) (f : Option Filter) (limit : Int) (s : σ)
    (size : Nat) (es : List (Event CatalogCall)) : Prop :=
  ∃ link rows m own, c.Supplied t f limit s link rows m ∧ c.Notes es own ∧
    c.TellsApart t link rows m size own

theorem explains_of_notes {sql : String} (hl : Link.ofTable t = .ok link)
    (hs : link.target.filteredQuery f limit = .ok sql) (hi : c.listed sql s = .ok ids)
    (hm : (c.getMetadata link.target (c.query sql s).state).result = .ok m)
    (hv : DayId.convert ids m.timePartitioning = .ok values) {es : List (Event CatalogCall)}
    (h : c.Notes es (c.remarks t link m ids values)) :
    c.Explains t f limit s values.length es := by
  cases hrows : (c.query sql s).result with
  | error p => cases (listed_of_error hrows).symm.trans hi
  | ok rows =>
      have htexts := (listed_of_ok hrows).symm.trans hi
      exact ⟨link, rows, m, _, ⟨hl, sql, hs, hrows, hm⟩, h, tellsApart_remarks htexts hv⟩

theorem explains_fetchValues (h : (c.fetchValues t f limit s).result = .ok values) :
    c.Explains t f limit s values.length (c.fetchValues t f limit s).events := by
  obtain ⟨link, hl, hquery⟩ := Run.exists_of_ofExcept_bind h
  obtain ⟨sql, hs, -⟩ := Run.exists_of_ofExcept_bind hquery
  cases hi : c.listed sql s with
  | error p => cases h.symm.trans (comesTo_fetchValues_of_unlisted hl hs hi).result_eq
  | ok ids =>
      cases hm : (c.getMetadata link.target (c.query sql s).state).result with
      | error p =>
          cases h.symm.trans (comesTo_fetchValues_of_undescribed hl hs hi hm).result_eq
      | ok m =>
          have hv := (comesTo_fetchValues hl hs hi hm).result_eq.symm.trans h
          exact explains_of_notes hl hs hi hm hv (notes_fetchValues hl hs hi hm hv)

theorem explains_fetchPartitions {ps : List Partition}
    (h : (c.fetchPartitions t f limit s).result = .ok ps) :
    c.Explains t f limit s ps.length (c.fetchPartitions t f limit s).events := by
  obtain ⟨link, hl, -⟩ := Run.exists_of_ofExcept_bind h
  rw [c.fetchPartitions_of_link hl] at h ⊢
  obtain ⟨values, hvalues, rfl⟩ := Outcome.exists_of_map h
  rw [List.length_map]
  exact explains_fetchValues hvalues

theorem explains_fetchNames {names : List String}
    (h : (c.fetchNames t f limit s).result = .ok names) :
    c.Explains t f limit s names.length (c.fetchNames t f limit s).events := by
  obtain ⟨link, hl, -⟩ := Run.exists_of_ofExcept_bind h
  rw [c.fetchNames_of_link hl] at h ⊢
  obtain ⟨values, hvalues, rfl⟩ := Outcome.exists_of_map h
  rw [List.length_map]
  exact explains_fetchValues hvalues

/-- **An empty answer is told apart from an unsupported one.** Whatever fetches the values of
a linked table's partitions and returns, with any rows and any partitioning: among the notices
of the library's own there is a warning if and only if there are rows and the table is not
partitioned by day, and then the answer is empty; there is no second one. So there are no rows
if the answer is empty without a warning, and none is given of a table partitioned by day. One
notice says how many entries there are. -/
theorem emptiness_told_apart (c : Clients σ δ) (s : σ) :
    (∀ t f limit values, (c.fetchValues t f limit s).result = .ok values →
      c.Explains t f limit s values.length (c.fetchValues t f limit s).events) ∧
    (∀ t f limit ps, (c.fetchPartitions t f limit s).result = .ok ps →
      c.Explains t f limit s ps.length (c.fetchPartitions t f limit s).events) ∧
    (∀ t f limit names, (c.fetchNames t f limit s).result = .ok names →
      c.Explains t f limit s names.length (c.fetchNames t f limit s).events) ∧
    ∀ r t reply, (c.looked r s).result = .ok t → t.isLinked = true →
      (c.answer r s).result = .ok reply → ∃ f s',
        c.Selects r.question (c.looked r s).state f s' ∧
          c.Explains t f r.question.limit s' (reply.listed.length + reply.named.length)
            (c.answer r s).events := by
  refine ⟨fun _ _ _ _ => explains_fetchValues, fun _ _ _ _ => explains_fetchPartitions,
    fun _ _ _ _ => explains_fetchNames, ?_⟩
  intro r t reply ht hm hreply
  have hlinked : ∀ t, (c.looked r s).result = .ok t → t.isLinked = true := by
    intro t' ht'
    cases ht.symm.trans ht'
    exact hm
  obtain ⟨t', link, sql, ids, m, _, values, hd, hv, rfl⟩ :=
    exists_described_of_reply hlinked hreply
  obtain ⟨⟨hp, hi⟩, hmeta⟩ := hd
  cases ht.symm.trans hp.found
  obtain ⟨f, hf, hs⟩ := hp.query
  have hnotes := notes_fetchValues hp.link_eq hs hi hmeta hv
  refine ⟨f, _, hf, ?_⟩
  rw [Question.length_reply]
  exact explains_of_notes hp.link_eq hs hi hmeta hv
    (notes_answer ht hm (notes_answerLinked hf hp.link_eq hnotes))

/-- With the same rows there is a warning for a table that is partitioned by month and none for
one that is partitioned by day; without rows there is none for either. -/
theorem emptiness_told_apart_sample :
    let c (rows : List (List Value)) (granularity : Granularity) : Clients Unit Unit :=
      { sample (sampleTable sampleParameters) with
        query := fun _ => Run.ofExcept (.ok ⟨rows, none⟩)
        getMetadata := fun _ => Run.ofExcept (.ok ⟨some ⟨granularity, none⟩⟩) }
    let warned (rows : List (List Value)) (granularity : Granularity) : Bool :=
      ((c rows granularity).answer ⟨"c", "d", "t", .all 0⟩ ()).events.any isUnsupported
    (c [[.text "202306"]] .month).Explains (sampleTable sampleParameters) none 0 () 0
        ((c [[.text "202306"]] .month).answer ⟨"c", "d", "t", .all 0⟩ ()).events ∧
      warned [[.text "202306"]] .month = true ∧ warned [] .month = false ∧
      warned [[.text "20230615"]] .day = false ∧ warned [] .day = false := by
  intro c warned
  obtain ⟨-, -, -, hanswer⟩ := emptiness_told_apart (c [[.text "202306"]] .month) ()
  obtain ⟨f, s', hf, hexplains⟩ :=
    hanswer ⟨"c", "d", "t", .all 0⟩ _ (.partitions []) rfl (by decide) rfl
  cases hf with
  | decoded hb => cases hb
  | given hb => exact ⟨hexplains, rfl, rfl, rfl, rfl⟩

end Clients

end LinkedTables
