import LinkedTables.Catalog.Answer
import LinkedTables.Proofs.Filter.Carried
import LinkedTables.Proofs.Trace.Calls

set_option autoImplicit false

/-! # Courses of an answer

A request about a linked table is answered in stages: the table is looked up, a filter that
came in bytes is decoded and carried over to partition ids, the link is read off the table,
the warehouse is queried and then asked for its metadata, and the ids are converted. This
module says what each stage needs of those before it (`Selects`, `Posed`, `Queried`,
`Described`) and what an answer comes to when it ends at a stage or goes through all of them.

The five questions differ only in what they select by (`Question.bytes?`, `Question.values`),
in the limit that the warehouse is told and in the form of the reply (`Question.reply`).
-/

namespace LinkedTables

namespace Question

/-- The bytes of the filter that a question brings, if it brings one. -/
def bytes? : Question → Option ByteArray
  | byFilter bytes _ _ => some bytes
  | _ => none

/-- The values that a question gives for the partition keys. -/
def values : Question → List String
  | namesByValues values _ => values
  | byValues values _ _ _ => values
  | _ => []

/-- The limit that the warehouse is told for a question. -/
def limit : Question → Int
  | byFilter .. => -1
  | all limit => limit
  | names limit => limit
  | namesByValues _ limit => limit
  | byValues _ limit _ _ => limit

/-- The call by which a filter that came in bytes is decoded. -/
def decoding (q : Question) : List CatalogCall := (q.bytes?.map .decode).toList

/-- The reply to a question with the partitions of a linked table that have given values. -/
def reply {δ : Type} (t : Table) (key : String) (values : List String) : Question → Reply δ
  | byFilter .. => .listing ⟨values.map (Clients.synthesized t key), true⟩
  | all _ => .partitions (values.map (Clients.synthesized t key))
  | names _ => .names (values.map (PartitionPath.partitionName key))
  | namesByValues .. => .names (values.map (PartitionPath.partitionName key))
  | byValues .. => .partitions (values.map (Clients.synthesized t key))

end Question

namespace Rows

/-- A row can be read: it has a first cell, and this has a text. -/
def Readable (row : List Value) : Prop := ∃ text, firstCell row = .ok text

theorem firstCell_cons {v : Value} (h : v.HasText) (cells : List Value) :
    firstCell (v :: cells) = .ok v.shown := by
  rw [firstCell, show v.noText? = none from h]

theorem firstCell_of_noText {v : Value} {e : NoText} (h : v.noText? = some e)
    (cells : List Value) : firstCell (v :: cells) = .error e.problem := by
  rw [firstCell, h]

/-- A row cannot be read because it has no cells or because its first cell has no text. -/
theorem firstCell_eq_error_cases {row : List Value} {p : Problem}
    (h : firstCell row = .error p) :
    (row = [] ∧ p = noCell) ∨
      ∃ v cells e, row = v :: cells ∧ v.noText? = some e ∧ p = e.problem := by
  cases row with
  | nil =>
      cases h
      exact .inl ⟨rfl, rfl⟩
  | cons v cells =>
      cases hv : v.noText? with
      | none =>
          rw [firstCell_cons hv] at h
          cases h
      | some e =>
          rw [firstCell_of_noText hv] at h
          cases h
          exact .inr ⟨v, cells, e, rfl, hv, rfl⟩

/-- A row that cannot be read is at fault, whatever comes after it. -/
theorem firstCells_of_unread {ending : Option Problem} {before after : List (List Value)}
    {row : List Value} {p : Problem} (hbefore : ∀ earlier ∈ before, Readable earlier)
    (hrow : firstCell row = .error p) :
    firstCells ending (before ++ row :: after) = .error p := by
  induction before with
  | nil => rw [List.nil_append, firstCells, hrow]
  | cons earlier before ih =>
      obtain ⟨⟨text, htext⟩, hbefore⟩ := List.forall_mem_cons.mp hbefore
      rw [List.cons_append, firstCells, htext, ih hbefore]

/-- What breaks an answer off is found once all rows before it are read. -/
theorem firstCells_of_ending {p : Problem} {rows : List (List Value)}
    (h : ∀ row ∈ rows, Readable row) : firstCells (some p) rows = .error p := by
  induction rows with
  | nil => rfl
  | cons row rows ih =>
      obtain ⟨⟨text, htext⟩, hrows⟩ := List.forall_mem_cons.mp h
      rw [firstCells, htext, ih hrows]

/-- Rows that each have a first cell with a text, and more cells or none. -/
theorem firstCells_map_cons {rows : List (Value × List Value)}
    (h : ∀ row ∈ rows, row.1.HasText) :
    firstCells none (rows.map fun row => row.1 :: row.2) =
      .ok (rows.map fun row => row.1.shown) := by
  induction rows with
  | nil => rfl
  | cons row rows ih =>
      obtain ⟨hrow, hrows⟩ := List.forall_mem_cons.mp h
      rw [List.map_cons, firstCells, firstCell_cons hrow, ih hrows]
      rfl

/-- Rows cannot be read because of the first that cannot, or because they break off. -/
theorem firstCells_eq_error_cases {ending : Option Problem} {rows : List (List Value)}
    {p : Problem} (h : firstCells ending rows = .error p) :
    (ending = some p ∧ ∀ row ∈ rows, Readable row) ∨
      ∃ before row after, rows = before ++ row :: after ∧
        (∀ earlier ∈ before, Readable earlier) ∧ firstCell row = .error p := by
  induction rows with
  | nil =>
      cases ending with
      | none => cases h
      | some p' =>
          cases h
          exact .inl ⟨rfl, by simp⟩
  | cons row rows ih =>
      rw [firstCells] at h
      cases hrow : firstCell row with
      | error p' =>
          rw [hrow] at h
          cases h
          exact .inr ⟨[], row, rows, rfl, by simp, hrow⟩
      | ok text =>
          have hread : Readable row := ⟨text, hrow⟩
          cases hrows : firstCells ending rows with
          | ok texts =>
              rw [hrow, hrows] at h
              cases h
          | error p' =>
              rw [hrow, hrows] at h
              cases h
              obtain ⟨hending, hall⟩ | ⟨before, row', after, rfl, hbefore, hrow'⟩ := ih hrows
              · exact .inl ⟨hending, List.forall_mem_cons.mpr ⟨hread, hall⟩⟩
              · exact .inr ⟨row :: before, row', after, rfl,
                  List.forall_mem_cons.mpr ⟨hread, hbefore⟩, hrow'⟩

end Rows

namespace Clients

variable {σ δ : Type} (c : Clients σ δ)

/-! ## What stages need -/

/-- The table that a request is about, as the catalog gives it. -/
def looked (r : Request) (s : σ) : Outcome Empty σ Table :=
  c.getTable r.catalog r.database r.table s

/-- What partitions a question asks for, as a filter over partition ids, and the state in
which this is known. -/
inductive Selects (q : Question) (s : σ) : Option Filter → σ → Prop
  | decoded {bytes : ByteArray} {f g : Filter} (hb : q.bytes? = some bytes)
      (hf : (c.decode bytes s).result = .ok f) (hg : f.toPartitionId = .ok g) :
      Selects q s (some g) (c.decode bytes s).state
  | given (hb : q.bytes? = none) : Selects q s (valuesFilter q.values) s

/-- A request is about a linked table, and all is known that its query is made of. -/
structure Posed (r : Request) (s : σ) (t : Table) (link : Link) (sql : String) (s' : σ) :
    Prop where
  found : (c.looked r s).result = .ok t
  marked : t.isLinked = true
  link_eq : Link.ofTable t = .ok link
  query : ∃ f, c.Selects r.question (c.looked r s).state f s' ∧
    link.target.filteredQuery f r.question.limit = .ok sql

/-- The ids that the warehouse gives in answer to a query, once all rows are read. -/
def listed (sql : String) (s : σ) : Except Problem (List String) :=
  (c.query sql s).result >>= Rows.texts

/-- The query of a request is answered with ids. -/
inductive Queried (r : Request) (s : σ) (t : Table) (link : Link) (sql : String) :
    List String → σ → Prop
  | intro {s' : σ} {ids : List String} (posed : c.Posed r s t link sql s')
      (hi : c.listed sql s' = .ok ids) :
      Queried r s t link sql ids (c.query sql s').state

/-- The warehouse has told its metadata of the table that a request is about. -/
inductive Described (r : Request) (s : σ) (t : Table) (link : Link) (sql : String) :
    List String → TableMetadata → σ → Prop
  | intro {s' : σ} {ids : List String} {m : TableMetadata}
      (queried : c.Queried r s t link sql ids s')
      (hm : (c.getMetadata link.target s').result = .ok m) :
      Described r s t link sql ids m (c.getMetadata link.target s').state

section

variable {c} {q : Question} {f : Option Filter} {s s' : σ}

theorem listed_of_error {sql : String} {p : Problem} (h : (c.query sql s).result = .error p) :
    c.listed sql s = .error p := by
  unfold listed
  rw [h]
  rfl

theorem listed_of_ok {sql : String} {rows : Rows} (h : (c.query sql s).result = .ok rows) :
    c.listed sql s = rows.texts := by
  unfold listed
  rw [h]
  rfl

theorem Selects.overIds (h : c.Selects q s f s') : ∀ g ∈ f, g.OverIds := by
  intro g hg
  cases h with
  | @decoded bytes g' _ hb hf hcarried =>
      cases hg
      exact Filter.overIds_of_toPartitionId g' hcarried
  | given hb =>
      unfold valuesFilter at hg
      split at hg
      · cases hg
      · split at hg
        · cases hg
        · cases hg
          refine .call "=" (List.forall_mem_cons.mpr ⟨.column, ?_⟩)
          exact List.forall_mem_singleton.mpr (.constant Filter.defaultType _)

/-- A filter over partition ids always has an expression, so there is a query for it. -/
theorem Selects.exists_query (h : c.Selects q s f s') (id : TableId) (limit : Int) :
    ∃ sql, id.filteredQuery f limit = .ok sql := by
  cases f with
  | none => exact ⟨_, rfl⟩
  | some g =>
      -- A filter over ids holds no foreign value, and its constants are texts.
      have hsql := (h.overIds g rfl).sql_eq
      refine ⟨id.query (some (String.ofList g.sqlChars)) limit, ?_⟩
      simp only [TableId.filteredQuery, hsql]

/-- All is known for a query once the table, its link and the filter are. -/
theorem Selects.exists_posed {r : Request} {t : Table} {link : Link}
    (hf : c.Selects r.question (c.looked r s).state f s') (ht : (c.looked r s).result = .ok t)
    (hm : t.isLinked = true) (hl : Link.ofTable t = .ok link) :
    ∃ sql, c.Posed r s t link sql s' := by
  obtain ⟨sql, hs⟩ := hf.exists_query link.target r.question.limit
  exact ⟨sql, ht, hm, hl, f, hf, hs⟩

end

/-! ## Single calls -/

theorem comesTo_linkedTable (r : Request) (s : σ) :
    (c.linkedTable r.catalog r.database r.table).ComesTo s
      [.getTable r.catalog r.database r.table] (c.looked r s).state
      (((c.looked r s).result.mapError
        (Problem.wrapped fun text => .catalogCall (some "get_table") (some text))).map
          fun t => if t.isLinked then some t else none) :=
  ((Run.comesTo_calling _ _ s).mapProblem _).map _

theorem comesTo_decoded (bytes : ByteArray) (s : σ) :
    (c.decoded bytes).ComesTo s [.decode bytes] (c.decode bytes s).state
      ((c.decode bytes s).result.mapError
        (Problem.wrapped fun text => .filterBytes (some text))) :=
  (Run.comesTo_calling _ _ s).mapProblem _

theorem comesTo_metadata (id : TableId) (s : σ) :
    (c.metadata id).ComesTo s [.getMetadata id] (c.getMetadata id s).state
      ((c.getMetadata id s).result.mapError
        (Problem.wrapped fun text => .warehouseCall (some "get_table_metadata") (some text))) :=
  (Run.comesTo_calling _ _ s).mapProblem _

theorem comesTo_queriedIds (sql : String) (s : σ) :
    (c.queriedIds sql).ComesTo s [.query sql] (c.query sql s).state
      ((c.listed sql s).mapError
        (Problem.wrapped fun text => .warehouseCall (some "query") (some text))) := by
  refine Run.ComesTo.mapProblem ?_ _
  have hcall := Run.comesTo_calling (CatalogCall.query sql) (c.query sql) s
  unfold listed
  cases hr : (c.query sql s).result with
  | error p =>
      rw [hr] at hcall
      exact hcall.bind_error
  | ok rows =>
      rw [hr] at hcall
      exact hcall.bind (Run.comesTo_ofExcept rows.texts _)

/-! ## The values of partitions -/

section

variable {c} {t : Table} {link : Link} {f : Option Filter} {limit : Int} {sql : String} {s : σ}

theorem comesTo_fetchValues_of_unlisted (hl : Link.ofTable t = .ok link)
    (hs : link.target.filteredQuery f limit = .ok sql) {p : Problem}
    (hi : c.listed sql s = .error p) :
    (c.fetchValues t f limit).ComesTo s [.query sql] (c.query sql s).state
      (.error (p.wrapped fun text => .warehouseCall (some "query") (some text))) := by
  have hq := (c.comesTo_queriedIds sql s).around (Span.warehouseQuery sql)
  rw [hi] at hq
  exact Run.comesTo_ofExcept_bind hl (Run.comesTo_ofExcept_bind hs hq.bind_error)

theorem comesTo_fetchValues_of_undescribed (hl : Link.ofTable t = .ok link)
    (hs : link.target.filteredQuery f limit = .ok sql) {ids : List String}
    (hi : c.listed sql s = .ok ids) {p : Problem}
    (hm : (c.getMetadata link.target (c.query sql s).state).result = .error p) :
    (c.fetchValues t f limit).ComesTo s [.query sql, .getMetadata link.target]
      (c.getMetadata link.target (c.query sql s).state).state
      (.error (p.wrapped fun text =>
        .warehouseCall (some "get_table_metadata") (some text))) := by
  have hq := (c.comesTo_queriedIds sql s).around (Span.warehouseQuery sql)
  have hd := c.comesTo_metadata link.target (c.query sql s).state
  rw [hi] at hq
  rw [hm] at hd
  exact Run.comesTo_ofExcept_bind hl (Run.comesTo_ofExcept_bind hs (hq.bind hd.bind_error))

/-- Once the warehouse has answered twice, only the ids can be at fault. -/
theorem comesTo_fetchValues (hl : Link.ofTable t = .ok link)
    (hs : link.target.filteredQuery f limit = .ok sql) {ids : List String}
    (hi : c.listed sql s = .ok ids) {m : TableMetadata}
    (hm : (c.getMetadata link.target (c.query sql s).state).result = .ok m) :
    (c.fetchValues t f limit).ComesTo s [.query sql, .getMetadata link.target]
      (c.getMetadata link.target (c.query sql s).state).state
      (DayId.convert ids m.timePartitioning) := by
  have hq := (c.comesTo_queriedIds sql s).around (Span.warehouseQuery sql)
  have hd := c.comesTo_metadata link.target (c.query sql s).state
  rw [hi] at hq
  rw [hm] at hd
  refine Run.comesTo_ofExcept_bind hl (Run.comesTo_ofExcept_bind hs (hq.bind (hd.bind ?_)))
  cases hv : DayId.convert ids m.timePartitioning with
  | error p => exact Run.comesTo_ofExcept_bind_error rfl
  | ok values =>
      refine Run.comesTo_ofExcept_bind rfl ?_
      -- What is logged makes no call and does not touch the values.
      split
      · exact (Run.comesTo_log ..).bind ((Run.comesTo_log ..).bind (Run.comesTo_pure values _))
      · exact (Run.comesTo_log ..).bind (Run.comesTo_pure values _)

/-! ## The reply -/

theorem comesTo_fetchPartitions (hl : Link.ofTable t = .ok link) {cs : List CatalogCall}
    {s' : σ} {values : Except Problem (List String)}
    (hv : (c.fetchValues t f limit).ComesTo s cs s' values) :
    (c.fetchPartitions t f limit).ComesTo s cs s'
      (values.map fun vs => vs.map (synthesized t link.partitionKey.text)) :=
  Run.comesTo_ofExcept_bind hl (hv.map _)

theorem comesTo_fetchNames (hl : Link.ofTable t = .ok link) {cs : List CatalogCall}
    {s' : σ} {values : Except Problem (List String)}
    (hv : (c.fetchValues t f limit).ComesTo s cs s' values) :
    (c.fetchNames t f limit).ComesTo s cs s'
      (values.map fun vs => vs.map (PartitionPath.partitionName link.partitionKey.text)) :=
  Run.comesTo_ofExcept_bind hl (hv.map _)

theorem comesTo_answerLinked_of_undecoded {q : Question} {bytes : ByteArray}
    (hb : q.bytes? = some bytes) {p : Problem} (hf : (c.decode bytes s).result = .error p) :
    (c.answerLinked t q).ComesTo s [.decode bytes] (c.decode bytes s).state
      (.error (p.wrapped fun text => .filterBytes (some text))) := by
  have hd := c.comesTo_decoded bytes s
  rw [hf] at hd
  cases q <;> cases hb
  exact hd.bind_error

theorem comesTo_answerLinked_of_uncarried {q : Question} {bytes : ByteArray}
    (hb : q.bytes? = some bytes) {g : Filter} (hf : (c.decode bytes s).result = .ok g)
    {p : Problem} (hg : g.toPartitionId = .error p) :
    (c.answerLinked t q).ComesTo s [.decode bytes] (c.decode bytes s).state (.error p) := by
  have hd := c.comesTo_decoded bytes s
  rw [hf] at hd
  cases q <;> cases hb
  exact hd.bind (Run.comesTo_ofExcept_bind_error hg)

/-- What follows on a filter that is decoded and carried over. -/
theorem comesTo_decoded_bind {α : Type} {bytes : ByteArray} {g g' : Filter}
    (hf : (c.decode bytes s).result = .ok g) (hg : g.toPartitionId = .ok g')
    {k : Filter → Run CatalogCall σ α} {cs : List CatalogCall} {s' : σ}
    {result : Except Problem α} (hk : (k g').ComesTo (c.decode bytes s).state cs s' result) :
    (c.decoded bytes >>= fun g => Run.ofExcept g.toPartitionId >>= k).ComesTo s
      (.decode bytes :: cs) s' result := by
  have hd := c.comesTo_decoded bytes s
  rw [hf] at hd
  exact hd.bind (Run.comesTo_ofExcept_bind hg hk)

theorem comesTo_answerLinked_of_unlinkable {q : Question} {s' : σ}
    (hq : c.Selects q s f s') {p : Problem} (hl : Link.ofTable t = .error p) :
    (c.answerLinked t q).ComesTo s q.decoding s' (.error p) := by
  have hpartitions : (c.fetchPartitions t f q.limit).ComesTo s' [] s' (.error p) :=
    Run.comesTo_ofExcept_bind_error hl
  have hnames : (c.fetchNames t f q.limit).ComesTo s' [] s' (.error p) :=
    Run.comesTo_ofExcept_bind_error hl
  cases hq with
  | decoded hb hf hg =>
      cases q <;> cases hb
      exact comesTo_decoded_bind hf hg hpartitions.bind_error
  | given hb =>
      cases q with
      | byFilter => cases hb
      | all | byValues => exact hpartitions.bind_error
      | names | namesByValues => exact hnames.bind_error

/-- Once it is known what to select and where, the values make the reply. -/
theorem comesTo_answerLinked {q : Question} {s' s'' : σ} {cs : List CatalogCall}
    (hq : c.Selects q s f s') (hl : Link.ofTable t = .ok link)
    {values : Except Problem (List String)}
    (hv : (c.fetchValues t f q.limit).ComesTo s' cs s'' values) :
    (c.answerLinked t q).ComesTo s (q.decoding ++ cs) s''
      (values.map fun vs => q.reply t link.partitionKey.text vs) := by
  have hpartitions := comesTo_fetchPartitions hl hv
  have hnames := comesTo_fetchNames hl hv
  cases hq with
  | decoded hb hf hg =>
      cases q <;> cases hb
      refine comesTo_decoded_bind hf hg ?_
      cases values <;> exact hpartitions.map _
  | given hb =>
      cases q with
      | byFilter => cases hb
      | all | byValues => cases values <;> exact hpartitions.map _
      | names | namesByValues => cases values <;> exact hnames.map _

end

/-! ## The whole answer -/

section

variable {c} {r : Request} {s : σ} {t : Table}

theorem comesTo_answer_of_unfound {p : Problem} (ht : (c.looked r s).result = .error p) :
    (c.answer r).ComesTo s [.getTable r.catalog r.database r.table] (c.looked r s).state
      (.error (p.wrapped fun text => .catalogCall (some "get_table") (some text))) := by
  have hlookup := c.comesTo_linkedTable r s
  rw [ht] at hlookup
  exact hlookup.bind_error.around _

theorem comesTo_answer_of_unmarked (ht : (c.looked r s).result = .ok t)
    (hm : t.isLinked = false) :
    (c.answer r).ComesTo s [.getTable r.catalog r.database r.table, .delegate r]
      (c.delegate r (c.looked r s).state).state
      ((c.delegate r (c.looked r s).state).result.map .delegated) := by
  have hlookup := c.comesTo_linkedTable r s
  have hdelegate := Run.comesTo_calling (CatalogCall.delegate r) (c.delegate r) (c.looked r s).state
  simp only [ht, Except.mapError, Except.map, hm] at hlookup
  exact (hlookup.bind (hdelegate.map _)).around _

theorem comesTo_answer_of_marked (ht : (c.looked r s).result = .ok t)
    (hm : t.isLinked = true) {cs : List CatalogCall} {s' : σ}
    {result : Except Problem (Reply δ)}
    (h : (c.answerLinked t r.question).ComesTo (c.looked r s).state cs s' result) :
    (c.answer r).ComesTo s (.getTable r.catalog r.database r.table :: cs) s' result := by
  have hlookup := c.comesTo_linkedTable r s
  simp only [ht, Except.mapError, Except.map, hm] at hlookup
  exact (hlookup.bind h).around _

variable {link : Link} {sql : String} {s' : σ} {ids : List String}

theorem comesTo_answer_of_unlisted (hp : c.Posed r s t link sql s') {p : Problem}
    (hi : c.listed sql s' = .error p) :
    (c.answer r).ComesTo s
      (.getTable r.catalog r.database r.table :: (r.question.decoding ++ [.query sql]))
      (c.query sql s').state
      (.error (p.wrapped fun text => .warehouseCall (some "query") (some text))) := by
  obtain ⟨f, hf, hs⟩ := hp.query
  have hv := comesTo_fetchValues_of_unlisted hp.link_eq hs hi
  exact comesTo_answer_of_marked hp.found hp.marked (comesTo_answerLinked hf hp.link_eq hv)

theorem comesTo_answer_of_undescribed (hq : c.Queried r s t link sql ids s') {p : Problem}
    (hm : (c.getMetadata link.target s').result = .error p) :
    (c.answer r).ComesTo s
      (.getTable r.catalog r.database r.table ::
        (r.question.decoding ++ [.query sql, .getMetadata link.target]))
      (c.getMetadata link.target s').state
      (.error (p.wrapped fun text =>
        .warehouseCall (some "get_table_metadata") (some text))) := by
  obtain ⟨hp, hi⟩ := hq
  obtain ⟨f, hf, hs⟩ := hp.query
  have hv := comesTo_fetchValues_of_undescribed hp.link_eq hs hi hm
  exact comesTo_answer_of_marked hp.found hp.marked (comesTo_answerLinked hf hp.link_eq hv)

/-- What an answer comes to when the warehouse has answered twice: the reply with the values
of the partitions, unless an id is at fault. -/
theorem comesTo_answer_of_described {m : TableMetadata}
    (hd : c.Described r s t link sql ids m s') :
    (c.answer r).ComesTo s
      (.getTable r.catalog r.database r.table ::
        (r.question.decoding ++ [.query sql, .getMetadata link.target]))
      s' ((DayId.convert ids m.timePartitioning).map fun vs =>
        r.question.reply t link.partitionKey.text vs) := by
  obtain ⟨⟨hp, hi⟩, hm⟩ := hd
  obtain ⟨f, hf, hs⟩ := hp.query
  have hv := comesTo_fetchValues hp.link_eq hs hi hm
  exact comesTo_answer_of_marked hp.found hp.marked (comesTo_answerLinked hf hp.link_eq hv)

end

/-! ## A small catalog -/

/-- The table `d.t` with the partition key `day` and given parameters. -/
def sampleTable (parameters : Entries String) : Table where
  catalog := "c"
  database := ⟨"d", by decide⟩
  name := ⟨"t", by decide⟩
  parameters := parameters
  partitionKeys := ["day"]
  storage := .unknown

/-- A catalog with one table, and a warehouse that holds no partitions. Every filter compares
a column with itself. -/
def sample (t : Table) : Clients Unit Unit where
  getTable _ _ _ := Run.ofExcept (.ok t)
  query _ := Run.ofExcept (.ok ⟨[], none⟩)
  getMetadata _ := Run.ofExcept (.ok ⟨none⟩)
  decode _ := Run.ofExcept (.ok (.call "=" [.column "day", .column "day"]))
  delegate _ := Run.ofExcept (.ok ())

/-- The parameters of a table that is linked to `p.d.t`. -/
def sampleParameters : Entries String :=
  [(storageHandlerKey, storageHandler), (addressKey, "p.d.t")]

/-- The table `d.t`, linked to `p.d.t`, with given partition keys. -/
def keyedTable (keys : List String) : Table :=
  { sampleTable sampleParameters with partitionKeys := keys }

/-- The link that `sampleParameters` describe. -/
def sampleLink : Link where
  target := ⟨⟨"p", by decide⟩, ⟨"d", by decide⟩, ⟨"t", by decide⟩⟩
  partitionKey := ⟨"day", by decide⟩

end Clients

end LinkedTables
