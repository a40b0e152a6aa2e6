import LinkedTables.Proofs.Catalog.Links
import LinkedTables.Proofs.Catalog.Listing

set_option autoImplicit false

/-! # Names and partitions agree

The names of partitions and the partitions themselves are asked for by questions of their
own, with values for the partition keys or without. For questions that select alike
(`Question.Alike`) the same happens inside the spans of their answers, and the replies are
made of the same values or there is the same problem (`Clients.work_alike`). So names are
those of the partitions that the matching question lists, and to give no value, or an empty
one, is to ask for everything (`Clients.names_agree`).
-/

namespace LinkedTables

namespace Question

/-- Two questions ask for the same partitions, the first one only for their names. -/
inductive NamesOf : Question → Question → Prop
  | all (limit : Int) : NamesOf (.names limit) (.all limit)
  | byValues (values : List String) (limit : Int) (user : Option String)
      (groups : Option (List String)) :
      NamesOf (.namesByValues values limit) (.byValues values limit user groups)

/-- The first question gives values of which the first is missing or empty, and the second
one asks for the same without giving values. -/
inductive Unrestricted : Question → Question → Prop
  | names {values : List String} (h : values.headD "" = "") (limit : Int) :
      Unrestricted (.namesByValues values limit) (.names limit)
  | partitions {values : List String} (h : values.headD "" = "") (limit : Int)
      (user : Option String) (groups : Option (List String)) :
      Unrestricted (.byValues values limit user groups) (.all limit)

/-- Two questions bring no filter in bytes and have the same to ask of the warehouse. -/
structure Alike (q q' : Question) : Prop where
  bytes_eq : q.bytes? = none
  bytes_eq' : q'.bytes? = none
  filter_eq : Clients.valuesFilter q.values = Clients.valuesFilter q'.values
  limit_eq : q.limit = q'.limit

theorem valuesFilter_of_headD {values : List String} (h : values.headD "" = "") :
    Clients.valuesFilter values = none := by
  cases values with
  | nil => rfl
  | cons v more =>
      obtain rfl : v = "" := h
      rfl

theorem NamesOf.alike {q q' : Question} (h : q.NamesOf q') : q.Alike q' := by
  cases h <;> exact ⟨rfl, rfl, rfl, rfl⟩

theorem Unrestricted.alike {q q' : Question} (h : q.Unrestricted q') : q.Alike q' := by
  cases h with
  | names h => exact ⟨rfl, rfl, valuesFilter_of_headD h, rfl⟩
  | partitions h => exact ⟨rfl, rfl, valuesFilter_of_headD h, rfl⟩

theorem Unrestricted.reply_eq {δ : Type} {q q' : Question} (h : q.Unrestricted q') (t : Table)
    (key : String) (values : List String) :
    (q.reply t key values : Reply δ) = q'.reply t key values := by
  cases h <;> rfl

end Question

/-- The span around the answer to a request. -/
def Request.span (r : Request) : Span :=
  Span.metastoreOperation r.question.operation (some r.catalog) (some r.database) (some r.table)

/-- Two outcomes are those of requests with the same events inside the spans of their answers,
and the same state at the end. -/
structure Request.SameWork {σ δ : Type} (r r' : Request)
    (o o' : Outcome CatalogCall σ (Reply δ)) : Prop where
  events_eq : ∃ es, o.events = r.span.opening ++ es ++ r.span.closing o.result ∧
    o'.events = r'.span.opening ++ es ++ r'.span.closing o'.result
  state_eq : o.state = o'.state

theorem Request.SameWork.calls_eq {σ δ : Type} {r r' : Request}
    {o o' : Outcome CatalogCall σ (Reply δ)} (h : r.SameWork r' o o') :
    Event.calls o.events = Event.calls o'.events := by
  obtain ⟨es, hes, hes'⟩ := h.events_eq
  rw [hes, hes']
  simp only [Event.calls_append, Span.calls_opening, Span.calls_closing]

namespace Clients

variable {σ δ : Type} (c : Clients σ δ) {t : Table} {s : σ} {r r' : Request} {q q' : Question}

/-! ## Answers about a linked table -/

theorem fetchPartitions_of_link {link : Link} (hl : Link.ofTable t = .ok link)
    (f : Option Filter) (limit : Int) :
    c.fetchPartitions t f limit s =
      (c.fetchValues t f limit s).map (List.map (synthesized t link.partitionKey.text)) := by
  rw [fetchPartitions, Run.ofExcept_bind_of_ok hl, Run.bind_pure_eq_map]

theorem fetchNames_of_link {link : Link} (hl : Link.ofTable t = .ok link)
    (f : Option Filter) (limit : Int) :
    c.fetchNames t f limit s =
      (c.fetchValues t f limit s).map
        (List.map (PartitionPath.partitionName link.partitionKey.text)) := by
  rw [fetchNames, Run.ofExcept_bind_of_ok hl, Run.bind_pure_eq_map]

/-- What comes of the values of partitions for a question without a filter in bytes. -/
theorem answerLinked_of_link {link : Link} (hq : q.bytes? = none)
    (hl : Link.ofTable t = .ok link) :
    c.answerLinked t q s =
      (c.fetchValues t (valuesFilter q.values) q.limit s).map fun values =>
        q.reply t link.partitionKey.text values := by
  cases q with
  | byFilter => cases hq
  | all | byValues =>
      rw [answerLinked, Run.bind_pure_eq_map, c.fetchPartitions_of_link hl, Outcome.map_map]
      rfl
  | names | namesByValues =>
      rw [answerLinked, Run.bind_pure_eq_map, c.fetchNames_of_link hl, Outcome.map_map]
      rfl

theorem answerLinked_of_unlinkable {p : Problem} (hq : q.bytes? = none)
    (hl : Link.ofTable t = .error p) : c.answerLinked t q s = ⟨[], s, .error p⟩ := by
  cases q with
  | byFilter => cases hq
  | all | byValues =>
      rw [answerLinked, Run.bind_pure_eq_map, fetchPartitions, Run.ofExcept_bind_of_error hl]
      rfl
  | names | namesByValues =>
      rw [answerLinked, Run.bind_pure_eq_map, fetchNames, Run.ofExcept_bind_of_error hl]
      rfl

/-! ## Questions that select alike -/

theorem answerLinked_alike (h : q.Alike q') :
    (c.answerLinked t q s).events = (c.answerLinked t q' s).events ∧
      (c.answerLinked t q s).state = (c.answerLinked t q' s).state ∧
      ((∃ p, (c.answerLinked t q s).result = .error p ∧
          (c.answerLinked t q' s).result = .error p) ∨
        ∃ link values, Link.ofTable t = .ok link ∧
          (c.answerLinked t q s).result = .ok (q.reply t link.partitionKey.text values) ∧
          (c.answerLinked t q' s).result = .ok (q'.reply t link.partitionKey.text values)) := by
  cases hl : Link.ofTable t with
  | error p =>
      -- Without a link nothing is asked of the warehouse.
      rw [c.answerLinked_of_unlinkable h.bytes_eq hl, c.answerLinked_of_unlinkable h.bytes_eq' hl]
      exact ⟨rfl, rfl, .inl ⟨p, rfl, rfl⟩⟩
  | ok link =>
      -- With one, the values are fetched for the same filter and limit, whoever asks.
      rw [c.answerLinked_of_link h.bytes_eq hl, c.answerLinked_of_link h.bytes_eq' hl,
        h.filter_eq, h.limit_eq]
      refine ⟨rfl, rfl, ?_⟩
      cases hv : (c.fetchValues t (valuesFilter q'.values) q'.limit s).result with
      | error p =>
          refine .inl ⟨p, ?_, ?_⟩ <;> rw [Outcome.map, hv, Except.map]
      | ok values =>
          refine .inr ⟨link, values, rfl, ?_, ?_⟩ <;> rw [Outcome.map, hv, Except.map]

/-- What the answer to a request does inside its span. -/
def work (r : Request) : Run CatalogCall σ (Reply δ) :=
  c.linkedTable r.catalog r.database r.table >>= fun found =>
    match found with
    | some t => c.answerLinked t r.question
    | none => Run.calling (.delegate r) (c.delegate r) >>= fun answer => pure (.delegated answer)

theorem work_of_unfound {p : Problem} (h : (c.looked r s).result = .error p) :
    c.work r s = ⟨(c.linkedTable r.catalog r.database r.table s).events, (c.looked r s).state,
      .error (p.wrapped fun text => .catalogCall (some "get_table") (some text))⟩ := by
  have hlookup := c.comesTo_linkedTable r s
  rw [h] at hlookup
  rw [work, Run.bind_of_error hlookup.result_eq, hlookup.state_eq]

theorem work_of_marked (ht : (c.looked r s).result = .ok t) (hm : t.isLinked = true) :
    c.work r s =
      (c.answerLinked t r.question (c.looked r s).state).preceded
        (c.linkedTable r.catalog r.database r.table s).events := by
  have hlookup := c.comesTo_linkedTable r s
  simp only [ht, Except.mapError, Except.map, hm, if_true] at hlookup
  rw [work, Run.bind_of_ok hlookup.result_eq, hlookup.state_eq]

/-- Inside the spans of answers to questions that select alike the same happens. -/
theorem work_alike {catalog database table : String}
    (hlinked : ∀ t, (c.getTable catalog database table s).result = .ok t → t.isLinked = true)
    (h : q.Alike q') :
    let o := c.work ⟨catalog, database, table, q⟩ s
    let o' := c.work ⟨catalog, database, table, q'⟩ s
    o.events = o'.events ∧ o.state = o'.state ∧
      ((∃ p, o.result = .error p ∧ o'.result = .error p) ∨
        ∃ t link values, (c.getTable catalog database table s).result = .ok t ∧
          Link.ofTable t = .ok link ∧
          o.result = .ok (q.reply t link.partitionKey.text values) ∧
          o'.result = .ok (q'.reply t link.partitionKey.text values)) := by
  intro o o'
  cases ht : (c.getTable catalog database table s).result with
  | error p =>
      have ho : o = _ := c.work_of_unfound ht
      have ho' : o' = _ := c.work_of_unfound ht
      rw [ho, ho']
      exact ⟨rfl, rfl, .inl ⟨_, rfl, rfl⟩⟩
  | ok t =>
      have ho : o = _ := c.work_of_marked ht (hlinked t ht)
      have ho' : o' = _ := c.work_of_marked ht (hlinked t ht)
      obtain ⟨hevents, hstate, hresult⟩ := c.answerLinked_alike (t := t)
        (s := (c.getTable catalog database table s).state) h
      rw [ho, ho']
      refine ⟨congrArg (_ ++ ·) hevents, hstate, ?_⟩
      rcases hresult with hfails | ⟨link, values, hl, hreply, hreply'⟩
      · exact .inl hfails
      · exact .inr ⟨t, link, values, rfl, hl, hreply, hreply'⟩

theorem sameWork_of_alike {catalog database table : String}
    (hlinked : ∀ t, (c.getTable catalog database table s).result = .ok t → t.isLinked = true)
    (h : q.Alike q') :
    let r : Request := ⟨catalog, database, table, q⟩
    let r' : Request := ⟨catalog, database, table, q'⟩
    r.SameWork r' (c.answer r s) (c.answer r' s) := by
  intro r r'
  obtain ⟨hevents, hstate, -⟩ := c.work_alike hlinked h
  refine ⟨⟨(c.work r s).events, rfl, ?_⟩, hstate⟩
  rw [hevents]
  rfl

/-! ## Names and partitions -/

theorem forall₂_partitionName (t : Table) (key : String) (values : List String) :
    List.Forall₂
      (fun name p => ∃ value, p.values.head? = some value ∧
        name = PartitionPath.partitionName key value)
      (values.map (PartitionPath.partitionName key)) (values.map (synthesized t key)) := by
  rw [List.forall₂_map_left_iff, List.forall₂_map_right_iff]
  exact List.forall₂_same.mpr fun value _ => ⟨value, rfl, rfl⟩

/-- **Names are those of the partitions.** The same happens inside the spans of the answers to
a question for names and to the matching question for partitions; in particular they make
the same calls, with the same queries. Either they fail with the same problem or both reply,
and the names are then made, one by one and in order, of the first partition key and the
first values of the partitions. To give no values, or an empty first one, makes no
difference beside the span. -/
theorem names_agree (c : Clients σ δ) (catalog database table : String) (s : σ)
    (hlinked : ∀ t, (c.getTable catalog database table s).result = .ok t → t.isLinked = true) :
    (∀ q q', Question.NamesOf q q' →
      let r : Request := ⟨catalog, database, table, q⟩
      let r' : Request := ⟨catalog, database, table, q'⟩
      r.SameWork r' (c.answer r s) (c.answer r' s) ∧
        Event.calls (c.answer r s).events = Event.calls (c.answer r' s).events ∧
        ((∃ p, (c.answer r s).result = .error p ∧ (c.answer r' s).result = .error p) ∨
          ∃ t key names ps, (c.getTable catalog database table s).result = .ok t ∧
            t.partitionKeys.head? = some key ∧
            (c.answer r s).result = .ok (.names names) ∧
            (c.answer r' s).result = .ok (.partitions ps) ∧
            List.Forall₂ (fun name p => ∃ value, p.values.head? = some value ∧
              name = PartitionPath.partitionName key value) names ps)) ∧
    ∀ q q', Question.Unrestricted q q' →
      let r : Request := ⟨catalog, database, table, q⟩
      let r' : Request := ⟨catalog, database, table, q'⟩
      r.SameWork r' (c.answer r s) (c.answer r' s) ∧
        Event.calls (c.answer r s).events = Event.calls (c.answer r' s).events ∧
        (c.answer r s).result = (c.answer r' s).result := by
  constructor
  · intro q q' h r r'
    have hsame := c.sameWork_of_alike hlinked h.alike
    obtain ⟨-, -, hresult⟩ := c.work_alike hlinked h.alike
    refine ⟨hsame, hsame.calls_eq, ?_⟩
    rcases hresult with hfails | ⟨t, link, values, ht, hl, hreply, hreply'⟩
    · exact .inl hfails
    · obtain ⟨hkey, -⟩ := Link.ofParameters_eq_ok_iff.mp hl
      have hnames := forall₂_partitionName t link.partitionKey.text values
      cases h <;> exact .inr ⟨t, _, _, _, ht, hkey, hreply, hreply', hnames⟩
  · intro q q' h r r'
    have hsame := c.sameWork_of_alike hlinked h.alike
    obtain ⟨-, -, hresult⟩ := c.work_alike hlinked h.alike
    refine ⟨hsame, hsame.calls_eq, ?_⟩
    rcases hresult with ⟨p, hp, hp'⟩ | ⟨t, link, values, -, -, hreply, hreply'⟩
    · exact hp.trans hp'.symm
    · rw [h.reply_eq] at hreply
      exact hreply.trans hreply'.symm

/-- Two days are listed by name and as partitions, whatever the value that is asked for, since
this warehouse does not look at the query. -/
theorem daily_names_agree :
    let r : Request := ⟨"c", "d", "t", .namesByValues ["2024-02-29", "x"] 5⟩
    let r' : Request := ⟨"c", "d", "t", .byValues ["2024-02-29", "x"] 5 (some "u") none⟩
    let all : Request := ⟨"c", "d", "t", .namesByValues ["", "x"] 5⟩
    let all' : Request := ⟨"c", "d", "t", .names 5⟩
    Event.calls ((daily []).answer r ()).events = Event.calls ((daily []).answer r' ()).events ∧
      (∃ ps, ((daily []).answer r ()).result =
          .ok (.names ["day=2024-02-29", "day=2023-06-15"]) ∧
        ((daily []).answer r' ()).result = .ok (.partitions ps) ∧
        List.Forall₂ (fun name p => ∃ value, p.values.head? = some value ∧
          name = PartitionPath.partitionName "day" value)
          ["day=2024-02-29", "day=2023-06-15"] ps) ∧
      ((daily []).answer all ()).result = ((daily []).answer all' ()).result := by
  intro r r' all all'
  obtain ⟨hnames, hall⟩ := names_agree (daily []) "c" "d" "t" () (by rintro _ ⟨⟩; decide)
  obtain ⟨-, hcalls, hresult⟩ := hnames _ _ (.byValues ["2024-02-29", "x"] 5 (some "u") none)
  obtain ⟨-, -, hall⟩ := hall _ _ (.names (show ["", "x"].headD "" = "" from rfl) 5)
  have hposed : (daily []).Posed r () _ sampleLink _ () :=
    ⟨rfl, by decide, rfl, _, .given rfl, rfl⟩
  have hlisted : ((daily []).answer r ()).result =
      .ok (.names ["day=2024-02-29", "day=2023-06-15"]) := 
        result_of_rows hposed rfl texts_daily rfl
  refine ⟨hcalls, ?_, hall⟩
  rcases hresult with ⟨p, hp, -⟩ | ⟨t, key, names, ps, ht, hkey, hr, hr', hps⟩
  · cases hlisted.symm.trans hp
  · cases ht
    cases hkey
    cases hlisted.symm.trans hr
    exact ⟨ps, hlisted, hr', hps⟩

end Clients

end LinkedTables
