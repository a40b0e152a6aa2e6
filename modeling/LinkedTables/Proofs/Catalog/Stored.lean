import LinkedTables.Proofs.Catalog.Agreement
import LinkedTables.Proofs.Catalog.ByValue
import LinkedTables.Proofs.Filter.Pushdown

set_option autoImplicit false

/-! # Partitions that are stored

If the warehouse holds days and answers each query with those that fulfil its filter
(`Clients.Holds`), then a listing by value is a part of the full listing: the days whose value
is the one that is asked for, once the dashes are left out of both (`Clients.lists_by_value`).
The query compares ids, which have no dashes, and so a text that has the digits of a day but
not the dashes is answered with that day as well (`Clients.undashed_lists_day`).
-/

namespace LinkedTables

/-- The rows of an answer that lists ids. -/
def Rows.ofIds (ids : List String) : Rows := ⟨ids.map fun id => [.text id], none⟩

namespace Filter

/-- An id is selected if it is the text that is asked for. -/
theorem truth?_idIs (text id : String) :
    truth? (fun _ => id) (idIs text) = some (decide (id = text)) := by
  rw [idIs, equal]
  exact truth?_comparison rfl rfl (show form "=" 2 = .chain ['='] from rfl) rfl rfl

theorem readable_idIs (text : String) : Readable (idIs text) := by
  refine ⟨.call (.inl (by decide)) (fun _ => le_rfl) ?_, .call _ ?_⟩
  · exact List.forall_mem_cons.mpr ⟨.column _, List.forall_mem_singleton.mpr (.constant _ _)⟩
  · exact List.forall_mem_cons.mpr ⟨.column, List.forall_mem_singleton.mpr (.constant _ _)⟩

/-- The text that is asked for can be told from the expression. -/
theorem eq_of_sqlChars_idIs_eq {a b : String} (h : (idIs a).sqlChars = (idIs b).sqlChars) :
    a = b := by
  have hfolded := folded_eq_of_sqlChars_eq (readable_idIs a) (readable_idIs b) h
  simp only [idIs, equal, folded, foldedAll] at hfolded
  cases hfolded
  rfl

theorem toValue_withoutDashes {value : String} (h : DayValue value) :
    DayId.toValue (withoutDashes value) = .ok value := by
  obtain ⟨id, d, hid, hy, rfl⟩ := h
  rw [withoutDashes_dashed hid hy, DayId.toValue_of_spells hid]

/-- The values of days are converted from the values without their dashes. -/
theorem forall₂_toValue {values : List String} (h : ∀ value ∈ values, DayValue value) :
    List.Forall₂ (fun id value => DayId.toValue id = .ok value) (values.map withoutDashes)
      values := by
  rw [List.forall₂_map_left_iff]
  exact List.forall₂_same.mpr fun value hvalue => toValue_withoutDashes (h value hvalue)

/-- The ids of days are the values of these days without their dashes. -/
theorem exists_dayValues {ids : List String}
    (h : ∀ id ∈ ids, ∃ d, DayId.Spells id d ∧ 1000 ≤ d.year) :
    ∃ values : List String,
      (∀ value ∈ values, DayValue value) ∧ ids = values.map withoutDashes := by
  induction ids with
  | nil => exact ⟨[], by simp, rfl⟩
  | cons id ids ih =>
      obtain ⟨⟨d, hid, hy⟩, hids⟩ := List.forall_mem_cons.mp h
      obtain ⟨values, hvalues, rfl⟩ := ih hids
      refine ⟨d.dashed :: values, List.forall_mem_cons.mpr ⟨⟨id, d, hid, hy, rfl⟩, hvalues⟩, ?_⟩
      rw [List.map_cons, withoutDashes_dashed hid hy]

end Filter

namespace Clients

open LinkedTables.Filter

variable {σ δ : Type} {c : Clients σ δ} {catalog database table : String} {t : Table}
  {link : Link} {ids : List String}

/-- The catalog has a table that is linked to a table of the warehouse, which is partitioned
by day and holds partitions with given ids, all of them days from the year 1000 on. Queries
are answered with the ids that fulfil their filter, in the order in which they are stored. -/
structure Holds (c : Clients σ δ) (catalog database table : String) (t : Table) (link : Link)
    (ids : List String) : Prop where
  /-- The table is found. -/
  found : ∀ s, (c.getTable catalog database table s).result = .ok t
  /-- The table is linked. -/
  marked : t.isLinked = true
  /-- The table has a link. -/
  link_eq : Link.ofTable t = .ok link
  /-- The ids are days. -/
  days : ∀ id ∈ ids, ∃ d, DayId.Spells id d ∧ 1000 ≤ d.year
  /-- Without a filter all ids are given. -/
  all : ∀ sql s, link.target.filteredQuery none (-1) = .ok sql →
    (c.query sql s).result = .ok (.ofIds ids)
  /-- With the filter that the id is some text, the ids are given for which this is true. -/
  matching : ∀ text sql s, link.target.filteredQuery (some (idIs text)) (-1) = .ok sql →
    (c.query sql s).result =
      .ok (.ofIds (ids.filter fun id => truth? (fun _ => id) (idIs text) = some true))
  /-- The table of the warehouse is partitioned by day. -/
  daily : ∀ s, ∃ m, (c.getMetadata link.target s).result = .ok m ∧
    ∃ p ∈ m.timePartitioning, p.granularity = .day

/-- The query for the partition whose id is a given text. -/
def queryFor (text : String) : String :=
  sampleLink.target.query (some (String.ofList (idIs text).sqlChars)) (-1)

theorem filteredQuery_idIs (text : String) :
    sampleLink.target.filteredQuery (some (idIs text)) (-1) = .ok (queryFor text) := by
  simp only [TableId.filteredQuery, (readable_idIs text).overIds.sql_eq, queryFor]

theorem queryFor_inj {a b : String} (h : queryFor a = queryFor b) : a = b :=
  eq_of_sqlChars_idIs_eq (String.ofList_injective (condition_eq_of_query_eq h))

/-- The query for one partition is another one than the query for all. -/
theorem queryFor_ne (text : String) : queryFor text ≠ sampleLink.target.query none (-1) := by
  intro h
  have hlists := congrArg String.toList h
  simp only [queryFor, TableId.query, TableId.conditionClause, String.toList_append] at hlists
  simpa using List.append_cancel_left (List.append_cancel_right hlists)

/-- A catalog with a linked table, and a warehouse that holds given ids: a query for one of
them is answered with this one, and the query for all with all. -/
def holding (ids : List String) : Clients Unit Unit :=
  { sample (sampleTable sampleParameters) with
    query := fun sql => Run.ofExcept (.ok (.ofIds
      (if sql = sampleLink.target.query none (-1) then ids
      else ids.filter fun id => sql = queryFor id)))
    getMetadata := fun _ => Run.ofExcept (.ok ⟨some ⟨.day, none⟩⟩) }

theorem holds_holding {ids : List String}
    (h : ∀ id ∈ ids, ∃ d, DayId.Spells id d ∧ 1000 ≤ d.year) :
    (holding ids).Holds "c" "d" "t" (sampleTable sampleParameters) sampleLink ids where
  found _ := rfl
  marked := by decide
  link_eq := rfl
  days := h
  all := by
    rintro sql s ⟨⟩
    simp only [holding, Run.ofExcept_apply, if_pos]
  matching := by
    intro text sql s hs
    obtain rfl : queryFor text = sql := Except.ok.inj ((filteredQuery_idIs text).symm.trans hs)
    -- The query shows which text is asked for, and so it is the one for this id and no other.
    have hselected : (ids.filter fun id => queryFor text = queryFor id) =
        ids.filter fun id => truth? (fun _ => id) (idIs text) = some true := by
      refine List.filter_congr fun id _ => decide_eq_decide.mpr ?_
      rw [truth?_idIs, Option.some.injEq, decide_eq_true_eq]
      exact ⟨fun heq => (queryFor_inj heq).symm, fun heq => by rw [heq]⟩
    simp only [holding, Run.ofExcept_apply, if_neg (queryFor_ne text), hselected]
  daily _ := ⟨_, rfl, _, rfl, rfl⟩

theorem spells_february : DayId.Spells "20240229" ⟨2024, 2, 29⟩ :=
  ⟨rfl, List.all_eq_true.mp rfl, rfl, rfl, rfl, by decide⟩

theorem spells_june : DayId.Spells "20230615" ⟨2023, 6, 15⟩ :=
  ⟨rfl, List.all_eq_true.mp rfl, rfl, rfl, rfl, by decide⟩

theorem holds_two_days :
    (holding ["20240229", "20230615"]).Holds "c" "d" "t" (sampleTable sampleParameters)
      sampleLink ["20240229", "20230615"] :=
  holds_holding (List.forall_mem_cons.mpr ⟨⟨_, spells_february, by decide⟩,
    List.forall_mem_singleton.mpr ⟨_, spells_june, by decide⟩⟩)

/-! ## Listings -/

/-- The names that a question is answered with are those of the values whose ids the warehouse
gives. -/
theorem Holds.lists (h : c.Holds catalog database table t link ids) {q : Question}
    (hq : q.bytes? = none) (hlimit : q.limit ≤ 0) {values : List String}
    (hvalues : ∀ value ∈ values, DayValue value)
    (hrows : ∀ sql s, link.target.filteredQuery (valuesFilter q.values) (-1) = .ok sql →
      (c.query sql s).result = .ok (.ofIds (values.map withoutDashes))) (s : σ) :
    (c.answer ⟨catalog, database, table, q⟩ s).result =
      .ok (q.reply t link.partitionKey.text values) := by
  let r : Request := ⟨catalog, database, table, q⟩
  have hselects : c.Selects r.question (c.looked r s).state (valuesFilter q.values)
      (c.looked r s).state := .given hq
  obtain ⟨sql, hs⟩ := hselects.exists_query link.target q.limit
  have hposed : c.Posed r s t link sql (c.looked r s).state :=
    ⟨h.found s, h.marked, h.link_eq, _, hselects, hs⟩
  rw [TableId.filteredQuery_of_nonpos hlimit] at hs
  obtain ⟨m, hm, p, hp, hday⟩ := h.daily (c.query sql (c.looked r s).state).state
  let rows : List (Value × List Value) :=
    values.map fun value => (.text (withoutDashes value), [])
  have hgiven : (c.query sql (c.looked r s).state).result =
      .ok ⟨rows.map fun row => row.1 :: row.2, none⟩ := by
    rw [hrows sql _ hs, Rows.ofIds, List.map_map, List.map_map]
    rfl
  have htexts : ∀ row ∈ rows, row.1.HasText :=
    List.forall_mem_map.mpr fun value _ => Value.hasText_text (withoutDashes value)
  have hconverted :
      DayId.convert (rows.map fun row => row.1.shown) m.timePartitioning = .ok values := by
    rw [DayId.convert, DayId.isDaily_eq_true hp hday, if_pos rfl, DayId.toValues_eq_ok_iff,
      List.map_map]
    exact forall₂_toValue hvalues
  calc (c.answer r s).result
      = (DayId.convert (rows.map fun row => row.1.shown) m.timePartitioning).map fun values =>
          q.reply t link.partitionKey.text values := result_of_rows hposed hgiven htexts hm
    _ = .ok (q.reply t link.partitionKey.text values) := by rw [hconverted]; rfl

/-- All days are listed if nothing is asked for. -/
theorem Holds.lists_all (h : c.Holds catalog database table t link ids) {q : Question}
    (hq : q.bytes? = none) (hlimit : q.limit ≤ 0) (hfilter : valuesFilter q.values = none)
    {values : List String} (hvalues : ∀ value ∈ values, DayValue value)
    (hids : ids = values.map withoutDashes) (s : σ) :
    (c.answer ⟨catalog, database, table, q⟩ s).result =
      .ok (q.reply t link.partitionKey.text values) := by
  refine h.lists hq hlimit hvalues (fun sql s hs => ?_) s
  rw [hfilter] at hs
  rw [h.all sql s hs, hids]

/-- Those days are listed whose values are the one that is asked for, up to dashes. -/
theorem Holds.lists_matching (h : c.Holds catalog database table t link ids) {q : Question}
    (hq : q.bytes? = none) (hlimit : q.limit ≤ 0) {v : String}
    (hfilter : valuesFilter q.values = some (idIs (withoutDashes v))) {values : List String}
    (hvalues : ∀ value ∈ values, DayValue value) (hids : ids = values.map withoutDashes) (s : σ) :
    (c.answer ⟨catalog, database, table, q⟩ s).result =
      .ok (q.reply t link.partitionKey.text
        (values.filter fun value => withoutDashes value = withoutDashes v)) := by
  refine h.lists hq hlimit (fun value hvalue => hvalues value (List.mem_of_mem_filter hvalue))
    (fun sql s hs => ?_) s
  rw [hfilter] at hs
  -- The ids that are asked for are those of the values that are the same up to dashes.
  rw [h.matching _ sql s hs, hids, List.filter_map]
  simp [truth?_idIs, Function.comp_def]

theorem partitionName_injective (key : String) :
    Function.Injective (PartitionPath.partitionName key) := by
  intro a b h
  have hlists := congrArg String.toList h
  simp only [PartitionPath.partitionName, String.toList_append] at hlists
  exact String.toList_inj.mp (List.append_cancel_left hlists)

/-- The names of the values that are some text up to dashes are the names of the values that
are this text, if and only if no other value is the same up to dashes. -/
theorem names_eq_iff {key v : String} {values : List String} :
    (values.filter fun value => withoutDashes value = withoutDashes v).map
        (PartitionPath.partitionName key) =
      (values.filter fun value => value = v).map (PartitionPath.partitionName key) ↔
        ∀ value ∈ values, withoutDashes value = withoutDashes v → value = v := by
  rw [(List.map_injective_iff.mpr (partitionName_injective key)).eq_iff]
  constructor
  · intro heq value hvalue hdashes
    have hmem : value ∈ values.filter fun value => withoutDashes value = withoutDashes v :=
      List.mem_filter.mpr ⟨hvalue, decide_eq_true hdashes⟩
    rw [heq] at hmem
    exact of_decide_eq_true (List.mem_filter.mp hmem).2
  · intro honly
    refine List.filter_congr fun value hvalue => decide_eq_decide.mpr ?_
    exact ⟨honly value hvalue, fun heq => by rw [heq]⟩

/-- **A listing by value is a part of the full listing.** Let the warehouse hold days and
answer queries with those that fulfil their filter. Without limits, the full listing has the
names of all days, in the order in which they are stored. A listing by values has all of them
if there is no first value or an empty one; else it has those, in the same order, whose value
is the first one that is given, once the dashes are left out of both. These are the days with
just this value if and only if no other one is the same up to dashes, in particular if the
dashes of what is asked for are where a date has them. -/
theorem lists_by_value (h : c.Holds catalog database table t link ids) (s s' : σ)
    {all limit : Int} (hall : all ≤ 0) (hlimit : limit ≤ 0) :
    let names (values : List String) : Reply δ :=
      .names (values.map (PartitionPath.partitionName link.partitionKey.text))
    let listed (wanted : List String) :=
      (c.answer ⟨catalog, database, table, .namesByValues wanted limit⟩ s).result
    ∃ values, List.Forall₂ (fun id value => DayId.toValue id = .ok value) ids values ∧
      (c.answer ⟨catalog, database, table, .names all⟩ s').result = .ok (names values) ∧
      (∀ wanted, wanted.headD "" = "" → listed wanted = .ok (names values)) ∧
      ∀ v more, v ≠ "" →
        listed (v :: more) =
          .ok (names (values.filter fun value => withoutDashes value = withoutDashes v)) ∧
        (listed (v :: more) = .ok (names (values.filter fun value => value = v)) ↔
          ∀ value ∈ values, withoutDashes value = withoutDashes v → value = v) ∧
        (DateAligned v →
          listed (v :: more) = .ok (names (values.filter fun value => value = v))) := by
  intro names listed
  obtain ⟨values, hvalues, hids⟩ := exists_dayValues h.days
  refine ⟨values, hids ▸ forall₂_toValue hvalues,
    h.lists_all (q := .names all) rfl hall rfl hvalues hids s',
    fun wanted hwanted => ?_, fun v more hv => ?_⟩
  · exact h.lists_all (q := .namesByValues wanted limit) rfl hlimit
      (Question.valuesFilter_of_headD hwanted) hvalues hids s
  · have hmatching : listed (v :: more) =
        .ok (names (values.filter fun value => withoutDashes value = withoutDashes v)) :=
      h.lists_matching (q := .namesByValues (v :: more) limit) rfl hlimit
        (valuesFilter_cons hv more) hvalues hids s
    have hexact : listed (v :: more) = .ok (names (values.filter fun value => value = v)) ↔
        ∀ value ∈ values, withoutDashes value = withoutDashes v → value = v := by
      rw [hmatching, Except.ok.injEq, Reply.names.injEq]
      exact names_eq_iff
    refine ⟨hmatching, hexact, fun haligned => ?_⟩
    apply hexact.mpr
    intro value hvalue hdashes
    have hdate : DateAligned value := (hvalues value hvalue).dateShaped.dateAligned
    exact (keepsOrder_dateAligned.eq_iff hdate haligned).mp hdashes

/-- Of two days the one with a certain value is found with the dashes and without them, and
none of them is found by its year alone. -/
theorem two_days_by_value :
    let c := holding ["20240229", "20230615"]
    let listed (wanted : List String) :=
      (c.answer ⟨"c", "d", "t", .namesByValues wanted 0⟩ ()).result
    c.Holds "c" "d" "t" (sampleTable sampleParameters) sampleLink ["20240229", "20230615"] ∧
      listed [] = .ok (.names ["day=2024-02-29", "day=2023-06-15"]) ∧
      listed ["2023-06-15", "x"] = .ok (.names ["day=2023-06-15"]) ∧
      listed ["20230615"] = .ok (.names ["day=2023-06-15"]) ∧
      listed ["2023"] = .ok (.names []) := by
  intro c listed
  obtain ⟨values, hvalues, -, hnone, hgiven⟩ :=
    lists_by_value holds_two_days () () le_rfl le_rfl
  obtain _ | ⟨hfirst, _ | ⟨hsecond, ⟨⟩⟩⟩ := hvalues
  obtain rfl : "2024-02-29" = _ :=
    Except.ok.inj ((show DayId.toValue "20240229" = .ok "2024-02-29" from rfl).symm.trans hfirst)
  obtain rfl : "2023-06-15" = _ :=
    Except.ok.inj ((show DayId.toValue "20230615" = .ok "2023-06-15" from rfl).symm.trans hsecond)
  exact ⟨holds_two_days, hnone [] rfl, (hgiven "2023-06-15" ["x"] (by decide)).1.trans rfl,
    (hgiven "20230615" [] (by decide)).1.trans rfl, (hgiven "2023" [] (by decide)).1.trans rfl⟩

/-- A text with the digits of a day and without dashes is not the value of any day, and still
this day is listed for it. -/
theorem undashed_lists_day :
    let c := holding ["20240229", "20230615"]
    let names (values : List String) : Reply Unit :=
      .names (values.map (PartitionPath.partitionName "day"))
    c.Holds "c" "d" "t" (sampleTable sampleParameters) sampleLink ["20240229", "20230615"] ∧
      (c.answer ⟨"c", "d", "t", .names 0⟩ ()).result =
        .ok (names ["2024-02-29", "2023-06-15"]) ∧
      (c.answer ⟨"c", "d", "t", .namesByValues ["20230615"] 0⟩ ()).result =
        .ok (names ["2023-06-15"]) ∧
      (c.answer ⟨"c", "d", "t", .namesByValues ["20230615"] 0⟩ ()).result ≠
        .ok (names (["2024-02-29", "2023-06-15"].filter fun value => value = "20230615")) := by
  intro c names
  have hvalues : ∀ value ∈ ["2024-02-29", "2023-06-15"], DayValue value :=
    List.forall_mem_cons.mpr ⟨⟨_, _, spells_february, by decide, rfl⟩,
      List.forall_mem_singleton.mpr ⟨_, _, spells_june, by decide, rfl⟩⟩
  have hall := holds_two_days.lists_all (q := .names 0) rfl le_rfl rfl hvalues rfl ()
  have hlisted := holds_two_days.lists_matching (q := .namesByValues ["20230615"] 0) rfl le_rfl
    (valuesFilter_cons (by decide) []) hvalues rfl ()
  refine ⟨holds_two_days, hall, hlisted, fun hnone => ?_⟩
  exact List.cons_ne_nil _ _ (Reply.names.inj (Except.ok.inj (hlisted.symm.trans hnone)))

end Clients

end LinkedTables
