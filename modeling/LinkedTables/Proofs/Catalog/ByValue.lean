import LinkedTables.Proofs.Catalog.Listing
import LinkedTables.Proofs.Filter.Delimited
import LinkedTables.Proofs.Filter.RoundTrip

set_option autoImplicit false

/-! # Partitions by value

The partition with a certain value can be asked for by giving the value, or by a filter in
bytes that compares a column with it. Both lead to the same query and to the same partitions
(`Clients.filter_agrees_with_value`): the query is for the partition whose id is the value
without its dashes.

A value that was reported for an id leads back to this id if the id is written as dates are
written, with ASCII digits and a year from 1000 on; it does not for other ids, although they
are converted (`Clients.leads_back_iff`).
-/

namespace LinkedTables

namespace Filter

/-- The filter over partition ids that selects the one that is a given text. -/
def idIs (text : String) : Filter := equal partitionIdColumn (.text text) defaultType

theorem decode_encode_equal {column : String} (hc : column ≠ "") (v typeName : String) :
    decode (encode (equal column (.text v) typeName)).toUTF8 =
      .ok (equal column (.text v) typeName) := by
  have hoperands : ∀ f ∈ [Filter.column column, .constant typeName (.text v)], f.Storable :=
    List.forall_mem_cons.mpr
      ⟨.column hc, List.forall_mem_singleton.mpr (.constant typeName (.text v))⟩
  exact decode_encode_of_finite (.call (by decide) hoperands) rfl (Nat.le_of_ble_eq_true rfl)

end Filter

/-- All limits that are not positive ask for the same. -/
theorem TableId.filteredQuery_of_nonpos {limit : Int} (h : limit ≤ 0) (id : TableId)
    (f : Option Filter) : id.filteredQuery f limit = id.filteredQuery f (-1) := by
  have hclause : limitClause limit = limitClause (-1) := by
    rw [limitClause, if_neg (not_lt.mpr h), limitClause, if_neg (by decide)]
  simp only [filteredQuery, query, hclause]

namespace Clients

variable {σ δ : Type} {c : Clients σ δ} {t : Table} {link : Link} {s : σ}

theorem valuesFilter_cons {v : String} (hv : v ≠ "") (more : List String) :
    valuesFilter (v :: more) = some (.idIs (Filter.withoutDashes v)) := by
  rw [valuesFilter, if_neg (by simpa using hv)]
  rfl

theorem fetchValues_of_nonpos {limit : Int} (h : limit ≤ 0) (f : Option Filter) :
    c.fetchValues t f limit = c.fetchValues t f (-1) := by
  simp only [fetchValues, TableId.filteredQuery_of_nonpos h]

/-- The values of a linked table are asked for by a query before anything else. -/
theorem exists_comesTo_fetchValues (hl : Link.ofTable t = .ok link) {f : Option Filter}
    {limit : Int} {sql : String} (hs : link.target.filteredQuery f limit = .ok sql) :
    ∃ rest s' values, (c.fetchValues t f limit).ComesTo s (.query sql :: rest) s' values := by
  cases hi : c.listed sql s with
  | error p => exact ⟨_, _, _, comesTo_fetchValues_of_unlisted hl hs hi⟩
  | ok ids =>
      cases hm : (c.getMetadata link.target (c.query sql s).state).result with
      | error p => exact ⟨_, _, _, comesTo_fetchValues_of_undescribed hl hs hi hm⟩
      | ok m => exact ⟨_, _, _, comesTo_fetchValues hl hs hi hm⟩

/-- The bytes of a filter that compares a column with a value select by its id. -/
theorem selects_equal (hdecode : ∀ bytes, c.decode bytes = Run.ofExcept (Filter.decode bytes))
    {column v : String} (hc : column ≠ "") {q : Question}
    (hq : q.bytes? = some (Filter.encode (.equal column (.text v) Filter.defaultType)).toUTF8) :
    c.Selects q s (some (.idIs (Filter.withoutDashes v))) s := by
  have hdecoded : c.decode (Filter.encode (.equal column (.text v) Filter.defaultType)).toUTF8 s =
      ⟨[], s, .ok (.equal column (.text v) Filter.defaultType)⟩ := by
    rw [hdecode, Run.ofExcept_apply, Filter.decode_encode_equal hc]
  have hselects := Selects.decoded (c := c) hq (congrArg Outcome.result hdecoded) rfl
  rwa [hdecoded] at hselects

/-- **A filter for a value does what the value does.** Let filters be decoded from JSON, and a
filter compare any column with a value. On a linked table, the bytes of this filter and the
value itself, with further values or without and with no limit, lead to the same query, which
asks for the value without its dashes, and, but for the decoding, to the same calls. Either
both answers fail with the same problem, or they list the same partitions. -/
theorem filter_agrees_with_value
    (hdecode : ∀ bytes, c.decode bytes = Run.ofExcept (Filter.decode bytes))
    (catalog database table : String) (ht : (c.getTable catalog database table s).result = .ok t)
    (hm : t.isLinked = true) (hl : Link.ofTable t = .ok link) {column v : String}
    (hc : column ≠ "") (hv : v ≠ "") (more : List String) {limit : Int} (hlimit : limit ≤ 0)
    (user : Option String) (groups : Option (List String)) (defaultName : String) (cap : Int) :
    let bytes := (Filter.encode (.equal column (.text v) Filter.defaultType)).toUTF8
    let byFilter := c.answer ⟨catalog, database, table, .byFilter bytes defaultName cap⟩ s
    let byValue := c.answer ⟨catalog, database, table, .byValues (v :: more) limit user groups⟩ s
    (∃ sql rest,
      link.target.filteredQuery (some (.idIs (Filter.withoutDashes v))) (-1) = .ok sql ∧
        Event.calls byFilter.events =
          .getTable catalog database table :: .decode bytes :: .query sql :: rest ∧
        Event.calls byValue.events = .getTable catalog database table :: .query sql :: rest) ∧
      byFilter.state = byValue.state ∧
      ((∃ p, byFilter.result = .error p ∧ byValue.result = .error p) ∨
        ∃ ps, byFilter.result = .ok (.listing ⟨ps, true⟩) ∧
          byValue.result = .ok (.partitions ps)) := by
  intro bytes byFilter byValue
  let r : Request := ⟨catalog, database, table, .byFilter bytes defaultName cap⟩
  let r' : Request := ⟨catalog, database, table, .byValues (v :: more) limit user groups⟩
  -- Both select by the same filter, one once it is decoded and the other one at once.
  have hfilter : c.Selects r.question (c.looked r s).state
      (some (.idIs (Filter.withoutDashes v))) (c.looked r s).state := selects_equal hdecode hc rfl
  have hvalue : c.Selects r'.question (c.looked r' s).state
      (some (.idIs (Filter.withoutDashes v))) (c.looked r' s).state :=
    valuesFilter_cons hv more ▸ .given rfl
  -- From there on both come to the same values, since neither has a limit.
  obtain ⟨sql, hs⟩ := hfilter.exists_query link.target (-1)
  obtain ⟨rest, s', values, hvalues⟩ :=
    exists_comesTo_fetchValues (c := c) (s := (c.looked r s).state) hl hs
  have hends := comesTo_answer_of_marked (r := r) ht hm
    (comesTo_answerLinked hfilter hl hvalues)
  rw [← fetchValues_of_nonpos hlimit] at hvalues
  have hends' := comesTo_answer_of_marked (r := r') ht hm
    (comesTo_answerLinked hvalue hl hvalues)
  refine ⟨⟨sql, rest, hs, hends.calls_eq, hends'.calls_eq⟩,
    hends.state_eq.trans hends'.state_eq.symm, ?_⟩
  cases values with
  | error p => exact .inl ⟨p, hends.result_eq, hends'.result_eq⟩
  | ok values => exact .inr ⟨_, hends.result_eq, hends'.result_eq⟩

/-- A value with a dash, a quote and a backslash leads to the same query in both ways. -/
theorem quoted_value_agrees :
    let c : Clients Unit Unit :=
      { daily [] with decode := fun bytes => Run.ofExcept (Filter.decode bytes) }
    let bytes := (Filter.encode (.equal "dt" (.text "2023-06'15\\") Filter.defaultType)).toUTF8
    let byFilter := c.answer ⟨"c", "d", "t", .byFilter bytes "none" 5⟩ ()
    let byValue := c.answer ⟨"c", "d", "t", .byValues ["2023-06'15\\", "x"] 0 (some "u") none⟩ ()
    (∃ sql rest,
      sql = "SELECT partition_id FROM `p.d.INFORMATION_SCHEMA.PARTITIONS` " ++
          "WHERE table_name = 't' AND (partition_id = '202306\\'15\\\\')" ∧
        Event.calls byFilter.events =
          .getTable "c" "d" "t" :: .decode bytes :: .query sql :: rest ∧
        Event.calls byValue.events = .getTable "c" "d" "t" :: .query sql :: rest) ∧
      ∃ ps, byFilter.result = .ok (.listing ⟨ps, true⟩) ∧ byValue.result = .ok (.partitions ps) ∧
        ps.map (·.values) = [["2024-02-29"], ["2023-06-15"]] := by
  have hquery : sampleLink.target.filteredQuery
      (some (.idIs (Filter.withoutDashes "2023-06'15\\"))) (-1) =
        .ok ("SELECT partition_id FROM `p.d.INFORMATION_SCHEMA.PARTITIONS` " ++
          "WHERE table_name = 't' AND (partition_id = '202306\\'15\\\\')") := rfl
  intro c bytes byFilter byValue
  let r : Request := ⟨"c", "d", "t", .byValues ["2023-06'15\\", "x"] 0 (some "u") none⟩
  have hposed : c.Posed r () _ sampleLink _ () := ⟨rfl, by decide, rfl, _, .given rfl, rfl⟩
  have hlisted : byValue.result = _ := result_of_rows hposed rfl texts_daily rfl
  obtain ⟨⟨sql, rest, hsql, hcalls⟩, -, hresult⟩ :=
    filter_agrees_with_value (c := c) (s := ()) (fun _ => rfl) "c" "d" "t" rfl (by decide)
      (show _ = Except.ok sampleLink from rfl) (show "dt" ≠ "" by decide)
      (show "2023-06'15\\" ≠ "" by decide) ["x"] (le_refl (0 : Int)) (some "u") none "none" 5
  refine ⟨⟨sql, rest, (Except.ok.inj (hquery.symm.trans hsql)).symm, hcalls⟩, ?_⟩
  rcases hresult with ⟨p, -, hp⟩ | ⟨ps, hps, hps'⟩
  · cases hlisted.symm.trans hp
  · cases hlisted.symm.trans hps'
    exact ⟨_, hps, hps', rfl⟩

/-! ## Values that were reported -/

/-- **Which values lead back to their partition.** Let the ids of a table that is partitioned
by day be converted. The value that is reported for an id, be it compared with a column or
given for the partition key, becomes a filter over ids that asks for one text. This text is
the id if and only if all digits of the id are ASCII digits and its year is 1000 or later;
else the value selects another partition, or none. -/
theorem leads_back_iff {partitioning : Option TimePartitioning} {p : TimePartitioning}
    (hp : p ∈ partitioning) (hday : p.granularity = .day) {ids values : List String}
    (h : DayId.convert ids partitioning = .ok values) :
    List.Forall₂ (fun id value => ∃ d text, DayId.parse id = .ok d ∧ value = d.dashed ∧
      (∀ column typeName, (Filter.equal column (.text value) typeName).toPartitionId =
        .ok (.equal Filter.partitionIdColumn (.text text) typeName)) ∧
      (∀ more, valuesFilter (value :: more) = some (.idIs text)) ∧
      (text = id ↔ (∀ digit ∈ id.toList, digit.isDigit = true) ∧ 1000 ≤ d.year)) ids values := by
  rw [DayId.convert, DayId.isDaily_eq_true hp hday, if_pos rfl, DayId.toValues_eq_ok_iff] at h
  refine h.imp fun id value hvalue => ?_
  obtain ⟨d, hd, rfl⟩ := DayId.exists_of_toValue hvalue
  exact ⟨d, Filter.withoutDashes d.dashed, hd, rfl, fun _ _ => rfl,
    valuesFilter_cons (DayId.dashed_ne_empty d),
    Filter.withoutDashes_dashed_eq_iff (DayId.aligned_of_parse hd)⟩

/-- A day of the present leads back to its partition, and the last day of the year 999 does
not. -/
theorem june_leads_back :
    DayId.convert ["20230615", "09991231"] (some ⟨.day, none⟩) =
        .ok ["2023-06-15", "999-12-31"] ∧
      valuesFilter ["2023-06-15"] = some (.idIs "20230615") ∧
      valuesFilter ["999-12-31"] ≠ some (.idIs "09991231") := by
  have hconverted : DayId.convert ["20230615", "09991231"] (some ⟨.day, none⟩) =
      .ok ["2023-06-15", "999-12-31"] := rfl
  obtain _ | ⟨⟨june, text, hjune, -, -, hfilter, hback⟩,
      _ | ⟨⟨december, text', hdecember, -, -, hfilter', hback'⟩, -⟩⟩ :=
    leads_back_iff (p := ⟨.day, none⟩) rfl rfl hconverted
  obtain rfl : ⟨2023, 6, 15⟩ = june := Except.ok.inj hjune
  obtain rfl : ⟨999, 12, 31⟩ = december := Except.ok.inj hdecember
  obtain rfl : text = "20230615" := hback.mpr ⟨List.all_eq_true.mp rfl, by decide⟩
  refine ⟨hconverted, hfilter [], fun hsame => ?_⟩
  cases (hfilter' []).symm.trans hsame
  exact absurd (hback'.mp rfl).2 (by decide)

/-- The year 999 is written with three digits, and digits of other scripts are written as
ASCII digits. In both cases another id is asked for than the one that was reported. -/
theorem early_year_leads_elsewhere :
    DayId.convert ["09991231", "2023061\u0665"] (some ⟨.day, none⟩) =
        .ok ["999-12-31", "2023-06-15"] ∧
      (Filter.equal "dt" (.text "999-12-31") Filter.defaultType).toPartitionId =
        .ok (.equal Filter.partitionIdColumn (.text "9991231") Filter.defaultType) ∧
      "9991231" ≠ "09991231" ∧
      (Filter.equal "dt" (.text "2023-06-15") Filter.defaultType).toPartitionId =
        .ok (.equal Filter.partitionIdColumn (.text "20230615") Filter.defaultType) ∧
      "20230615" ≠ "2023061\u0665" :=
  ⟨rfl, rfl, by decide, rfl, by decide⟩

end Clients

end LinkedTables
