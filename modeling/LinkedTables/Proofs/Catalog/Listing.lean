import LinkedTables.Proofs.Catalog.Courses
import LinkedTables.Proofs.Partition.DayId

set_option autoImplicit false

/-! # Listings of linked tables

What an answer lists is fixed by the rows and the metadata that the warehouse gives. If the
table is not partitioned by day nothing is listed; if it is, each row stands for one
partition, in order, or one row that is no day spoils the whole answer
(`Clients.lists_all_or_none`).

The replies to the five questions are partitions, a listing of partitions or names; for each,
`Question.Lists` says what it is to list given values.
-/

namespace LinkedTables

/-- A partition is the one of a table with a given value: it has the names of the table, this
value alone, the table's settings for rows and no parameters. -/
structure Partition.IsOf (t : Table) (p : Partition) (value : String) : Prop where
  catalog_eq : p.catalog = t.catalog
  database_eq : p.database = t.database.text
  table_eq : p.table = t.name.text
  values_eq : p.values = [value]
  serDe_eq : p.storage.serDe = t.storage.serDe
  parameters_eq : p.parameters = []

/-- A reply to a question about a linked table lists the partitions with given values, one
for each value, in order. A listing by a filter also says that it may exceed the filter. -/
inductive Question.Lists {δ : Type} (t : Table) (key : String) (values : List String) :
    Question → Reply δ → Prop
  | byFilter {filter : ByteArray} {defaultName : String} {limit : Int} {ps : List Partition}
      (h : List.Forall₂ (Partition.IsOf t) ps values) :
      Lists t key values (.byFilter filter defaultName limit) (.listing ⟨ps, true⟩)
  | all {limit : Int} {ps : List Partition} (h : List.Forall₂ (Partition.IsOf t) ps values) :
      Lists t key values (.all limit) (.partitions ps)
  | names {limit : Int} :
      Lists t key values (.names limit) (.names (values.map fun value => key ++ "=" ++ value))
  | namesByValues {wanted : List String} {limit : Int} :
      Lists t key values (.namesByValues wanted limit)
        (.names (values.map fun value => key ++ "=" ++ value))
  | byValues {wanted : List String} {limit : Int} {user : Option String}
      {groups : Option (List String)} {ps : List Partition}
      (h : List.Forall₂ (Partition.IsOf t) ps values) :
      Lists t key values (.byValues wanted limit user groups) (.partitions ps)

theorem Partition.forall₂_isOf (t : Table) (key : String) (values : List String) :
    List.Forall₂ (Partition.IsOf t) (values.map (Clients.synthesized t key)) values := by
  rw [List.forall₂_map_left_iff]
  exact List.forall₂_same.mpr fun value _ => ⟨rfl, rfl, rfl, rfl, rfl, rfl⟩

/-- The reply that is made of given values lists them. -/
theorem Question.lists_reply {δ : Type} (t : Table) (key : String) (values : List String)
    (q : Question) : q.Lists t key values (q.reply t key values : Reply δ) := by
  have hps := Partition.forall₂_isOf t key values
  cases q with
  | byFilter => exact .byFilter hps
  | all => exact .all hps
  | names => exact .names
  | namesByValues => exact .namesByValues
  | byValues => exact .byValues hps

theorem DayId.isDaily_eq_false {partitioning : Option TimePartitioning}
    (h : ∀ p ∈ partitioning, p.granularity ≠ .day) : DayId.isDaily partitioning = false := by
  cases partitioning with
  | none => rfl
  | some p => exact beq_eq_false_iff_ne.mpr (h p rfl)

theorem DayId.isDaily_eq_true {partitioning : Option TimePartitioning} {p : TimePartitioning}
    (hp : p ∈ partitioning) (h : p.granularity = .day) : DayId.isDaily partitioning = true := by
  cases hp
  exact beq_iff_eq.mpr h

namespace Clients

variable {σ δ : Type} {c : Clients σ δ} {r : Request} {s : σ} {t : Table} {link : Link}
  {sql : String} {s' : σ} {rows : List (Value × List Value)} {m : TableMetadata}

/-- What an answer comes to is what comes of the texts of the first cells. -/
theorem result_of_rows (hp : c.Posed r s t link sql s')
    (hrows : (c.query sql s').result = .ok ⟨rows.map fun row => row.1 :: row.2, none⟩)
    (htexts : ∀ row ∈ rows, row.1.HasText)
    (hm : (c.getMetadata link.target (c.query sql s').state).result = .ok m) :
    (c.answer r s).result =
      (DayId.convert (rows.map fun row => row.1.shown) m.timePartitioning).map fun values =>
        r.question.reply t link.partitionKey.text values := by
  have hlisted := (listed_of_ok hrows).trans (Rows.firstCells_map_cons htexts)
  exact (comesTo_answer_of_described ⟨⟨hp, hlisted⟩, hm⟩).result_eq

/-- **A listing is complete and in order, or there is none.** Let the warehouse answer the
query of a linked table with rows that each have a first cell which has a text, and then tell
its metadata. If the table is not partitioned by day, the reply lists nothing, whatever the rows
are. If it is, and the text of each first cell is the id of a day, the reply lists one partition
for each row, in the order of the rows, with the value of the row's id. If it is, and some text
is no such id, the answer fails with the first that is none. -/
theorem lists_all_or_none (hp : c.Posed r s t link sql s')
    (hrows : (c.query sql s').result = .ok ⟨rows.map fun row => row.1 :: row.2, none⟩)
    (htexts : ∀ row ∈ rows, row.1.HasText)
    (hm : (c.getMetadata link.target (c.query sql s').state).result = .ok m) :
    ((∀ p ∈ m.timePartitioning, p.granularity ≠ .day) →
      ∃ reply, (c.answer r s).result = .ok reply ∧
        r.question.Lists t link.partitionKey.text [] reply) ∧
    ∀ p ∈ m.timePartitioning, p.granularity = .day →
      (∀ values, List.Forall₂ (fun row value => DayId.toValue row.1.shown = .ok value)
        rows values →
          ∃ reply, (c.answer r s).result = .ok reply ∧
            r.question.Lists t link.partitionKey.text values reply) ∧
      ∀ before row after problem, rows = before ++ row :: after →
        (∀ earlier ∈ before, ∃ value, DayId.toValue earlier.1.shown = .ok value) →
          DayId.toValue row.1.shown = .error problem →
            (c.answer r s).result = .error problem ∧
              ∃ message cause,
                problem = .failure (.partitionId row.1.shown (some message)) cause := by
  have hresult := result_of_rows hp hrows htexts hm
  constructor
  · intro hgranularity
    rw [DayId.convert, DayId.isDaily_eq_false hgranularity] at hresult
    exact ⟨_, hresult, Question.lists_reply ..⟩
  · intro p hmem hgranularity
    rw [DayId.convert, DayId.isDaily_eq_true hmem hgranularity, if_pos rfl] at hresult
    constructor
    · intro values hvalues
      have hconverted := DayId.toValues_eq_ok_iff.mpr (List.forall₂_map_left_iff.mpr hvalues)
      rw [hconverted] at hresult
      exact ⟨_, hresult, Question.lists_reply ..⟩
    · -- The rows after the first that is no day are not looked at.
      intro before row after problem hsplit hbefore hrow
      have hconverted :
          DayId.toValues (rows.map fun row => row.1.shown) = .error problem := by
        rw [hsplit, List.map_append, List.map_cons]
        exact DayId.toValues_eq_error (List.forall_mem_map.mpr hbefore) hrow
      rw [hconverted] at hresult
      exact ⟨hresult, DayId.exists_of_toValue_eq_error hrow⟩

/-- A catalog with a linked table that is partitioned by day, for which the warehouse lists
two ids that are days, one of them beside a second cell, and then some more. -/
def daily (more : List (Value × List Value)) : Clients Unit Unit :=
  { sample (sampleTable sampleParameters) with
    query := fun _ => Run.ofExcept (.ok
      ⟨((.text "20240229", []) :: (.text "20230615", [.null]) :: more).map
        fun row => row.1 :: row.2, none⟩)
    getMetadata := fun _ => Run.ofExcept (.ok ⟨some ⟨.day, none⟩⟩) }

theorem texts_daily : ∀ row ∈ [(Value.text "20240229", []), (.text "20230615", [Value.null])],
    row.1.HasText :=
  List.forall_mem_cons.mpr ⟨rfl, List.forall_mem_singleton.mpr rfl⟩

/-- All days are listed, and none of them if `20231305`, which has no thirteenth month, comes
after them. -/
theorem daily_listing :
    let r : Request := ⟨"c", "d", "t", .byFilter ByteArray.empty "none" 5⟩
    (∃ ps, ((daily []).answer r ()).result = .ok (.listing ⟨ps, true⟩) ∧
      ps.map (·.values) = [["2024-02-29"], ["2023-06-15"]]) ∧
    ∃ message cause,
      ((daily [(.text "20231305", []), (.text "20230616", [])]).answer r ()).result =
        .error (.failure (.partitionId "20231305" (some message)) cause) := by
  intro r
  have hposed (more : List (Value × List Value)) :
      (daily more).Posed r () _ sampleLink _ () :=
    ⟨rfl, by decide, rfl, _, .decoded rfl rfl rfl, rfl⟩
  have hday (more : List (Value × List Value)) (hmore : ∀ row ∈ more, row.1.HasText) :=
    (lists_all_or_none (hposed more) rfl
      (List.forall_mem_cons.mpr ⟨rfl, List.forall_mem_cons.mpr ⟨rfl, hmore⟩⟩) rfl).2
      ⟨.day, none⟩ rfl rfl
  constructor
  · obtain ⟨reply, hreply, hlists⟩ := (hday [] (by simp)).1 ["2024-02-29", "2023-06-15"]
      (.cons rfl (.cons rfl .nil))
    obtain ⟨_ | ⟨hfirst, _ | ⟨hsecond, ⟨⟩⟩⟩⟩ := hlists
    refine ⟨_, hreply, ?_⟩
    simp only [List.map_cons, List.map_nil, hfirst.values_eq, hsecond.values_eq]
  · have hbefore : ∀ earlier ∈ [(Value.text "20240229", []), (.text "20230615", [Value.null])],
        ∃ value, DayId.toValue earlier.1.shown = .ok value :=
      List.forall_mem_cons.mpr ⟨⟨_, rfl⟩, List.forall_mem_singleton.mpr ⟨_, rfl⟩⟩
    have hrow : DayId.toValue "20231305" = .error (DayId.failure "20231305" (.leftover "5")) := rfl
    have hmore : ∀ row ∈ [(Value.text "20231305", []), (.text "20230616", ([] : List Value))],
        row.1.HasText := List.forall_mem_cons.mpr ⟨rfl, List.forall_mem_singleton.mpr rfl⟩
    obtain ⟨hresult, message, cause, heq⟩ :=
      (hday _ hmore).2 _ (.text "20231305", []) _ _ rfl hbefore hrow
    rw [heq] at hresult
    exact ⟨message, cause, hresult⟩

end Clients

end LinkedTables
