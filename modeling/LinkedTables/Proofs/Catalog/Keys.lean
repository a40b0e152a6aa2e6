import LinkedTables.Proofs.Catalog.Agreement
import LinkedTables.Proofs.Catalog.Stages
import LinkedTables.Proofs.Partition.Path

set_option autoImplicit false

/-! # Partition keys

A partition of a table is to have one value for each partition key, and its place one
component for each key (`Partition.OnePerKey`). A linked table without keys is refused. Of a
linked table with keys only the first one is read: the answers are those about the table
without the others (`Clients.answer_firstKeyOnly`), and each partition has one value for
that key. So there is one value for each key exactly if there is one key
(`Clients.one_value_for_first_key`).
-/

namespace LinkedTables

/-- The partitions in a reply of the library's own. -/
def Reply.listed {δ : Type} : Reply δ → List Partition
  | delegated _ => []
  | listing l => l.partitions
  | partitions ps => ps
  | names _ => []

/-- A partition has one value for each partition key of a table, and lies below the place of
the table at a path with one component for each key, made of the key and its value. -/
structure Partition.OnePerKey (t : Table) (p : Partition) : Prop where
  length_eq : p.values.length = t.partitionKeys.length
  location : ∃ relative,
    p.storage.location = some (PartitionPath.join t.storage.location relative) ∧
      PartitionPath.components relative =
        List.zipWith PartitionPath.component t.partitionKeys p.values

/-- A table without its partition keys from the second on. -/
def Table.firstKeyOnly (t : Table) : Table := { t with partitionKeys := t.partitionKeys.take 1 }

theorem Link.ofTable_firstKeyOnly (t : Table) : ofTable t.firstKeyOnly = ofTable t := by
  obtain ⟨catalog, database, name, parameters, keys, storage⟩ := t
  cases keys <;> rfl

theorem Question.mem_listed_reply {δ : Type} {q : Question} {t : Table} {key : String}
    {values : List String} {p : Partition}
    (h : p ∈ (q.reply t key values : Reply δ).listed) :
    ∃ value, p = Clients.synthesized t key value := by
  cases q with
  | byFilter | all | byValues =>
      obtain ⟨value, -, rfl⟩ := List.mem_map.mp h
      exact ⟨value, rfl⟩
  | names | namesByValues => cases h

theorem Partition.onePerKey_synthesized {t : Table} {key : String}
    (h : t.partitionKeys = [key]) (value : String) :
    (Clients.synthesized t key value).OnePerKey t := by
  refine ⟨by rw [h]; rfl, PartitionPath.path [(key, value)], rfl, ?_⟩
  rw [PartitionPath.components_path (List.cons_ne_nil _ _), h]
  rfl

/-- The one value is for each key if there is one key, and not otherwise. -/
theorem Partition.onePerKey_synthesized_iff {t : Table} {key : String}
    (h : t.partitionKeys.head? = some key) (value : String) :
    (Clients.synthesized t key value).OnePerKey t ↔ t.partitionKeys.length = 1 := by
  constructor
  · intro hone
    exact hone.length_eq.symm
  · intro hlen
    obtain ⟨more, hkeys⟩ := List.head?_eq_some_iff.mp h
    obtain rfl : more = [] := by simpa [hkeys] using hlen
    exact onePerKey_synthesized hkeys value

namespace Clients

variable {σ δ : Type} (c : Clients σ δ)

/-- The same collaborators with a catalog that keeps the partition keys of its tables to
itself, except for the first ones. -/
def firstKeyOnly : Clients σ δ :=
  { c with getTable := fun catalog database table s =>
      (c.getTable catalog database table s).map Table.firstKeyOnly }

/-! ## Answers about the first key -/

theorem answerLinked_firstKeyOnly (t : Table) (q : Question) :
    c.answerLinked t.firstKeyOnly q = c.answerLinked t q := by
  have hvalues (f : Option Filter) (limit : Int) :
      c.fetchValues t.firstKeyOnly f limit = c.fetchValues t f limit := by
    simp only [fetchValues, Link.ofTable_firstKeyOnly]
    rfl
  have hpartitions (f : Option Filter) (limit : Int) :
      c.fetchPartitions t.firstKeyOnly f limit = c.fetchPartitions t f limit := by
    simp only [fetchPartitions, Link.ofTable_firstKeyOnly, hvalues]
    rfl
  have hnames (f : Option Filter) (limit : Int) :
      c.fetchNames t.firstKeyOnly f limit = c.fetchNames t f limit := by
    simp only [fetchNames, Link.ofTable_firstKeyOnly, hvalues]
  -- Beside the link, what is fetched and made of a table looks at its other fields only.
  cases q with
  | byFilter | all | byValues => simp only [answerLinked, hpartitions]
  | names | namesByValues => simp only [answerLinked, hnames]

theorem linkedTable_firstKeyOnly (catalog database table : String) (s : σ) :
    c.firstKeyOnly.linkedTable catalog database table s =
      (c.linkedTable catalog database table s).map (Option.map Table.firstKeyOnly) := by
  have hget : c.firstKeyOnly.getTable catalog database table s =
      (c.getTable catalog database table s).map Table.firstKeyOnly := rfl
  rw [linkedTable, linkedTable, Run.bind_pure_eq_map, Run.bind_pure_eq_map, Outcome.map_map,
    Run.mapProblem, Run.mapProblem, Run.calling_apply, Run.calling_apply, hget]
  generalize c.getTable catalog database table s = o
  obtain ⟨events, state, p | t⟩ := o
  · rfl
  · -- The mark of linked tables is none of the partition keys.
    have hmark : t.firstKeyOnly.isLinked = t.isLinked := rfl
    simp only [Outcome.map, Except.map, Except.mapError, hmark]
    split <;> rfl

/-- **Only the first partition key counts:** answers are those about the tables without the
others. -/
theorem answer_firstKeyOnly (r : Request) (s : σ) :
    c.firstKeyOnly.answer r s = c.answer r s := by
  have hwork (s : σ) : c.firstKeyOnly.work r s = c.work r s := by
    rw [work, work, Run.bind_apply, Run.bind_apply, linkedTable_firstKeyOnly]
    generalize c.linkedTable r.catalog r.database r.table s = o
    obtain ⟨events, state, p | found⟩ := o
    · rfl
    · cases found with
      | none => rfl
      | some t =>
          have hanswer : c.firstKeyOnly.answerLinked t.firstKeyOnly r.question =
              c.answerLinked t r.question := c.answerLinked_firstKeyOnly t r.question
          simp only [Outcome.map, Except.map, Option.map, hanswer]
  show r.span.around (c.firstKeyOnly.work r) s = r.span.around (c.work r) s
  rw [Span.around, Span.around, hwork]

/-! ## Values and keys -/

section

variable {c} {r : Request} {s : σ}

/-- A request with a reply has gone through all stages. -/
theorem exists_described_of_reply
    (hlinked : ∀ t, (c.looked r s).result = .ok t → t.isLinked = true)
    {reply : Reply δ} (h : (c.answer r s).result = .ok reply) :
    ∃ t link sql ids m s' values, c.Described r s t link sql ids m s' ∧
      DayId.convert ids m.timePartitioning = .ok values ∧
      reply = r.question.reply t link.partitionKey.text values := by
  obtain hnone | ⟨stage, p, hfirst⟩ := exists_failsFirst c r s
  · obtain ⟨t, link, sql, ids, m, s', values, hd, hv⟩ := exists_converted hlinked hnone
    have hresult := (comesTo_answer_of_described hd).result_eq
    rw [hv] at hresult
    exact ⟨t, link, sql, ids, m, s', values, hd, hv, Except.ok.inj (h.symm.trans hresult)⟩
  · obtain ⟨cs, s', hend, -⟩ := comesTo_of_failsFirst hlinked hfirst
    cases hend.result_eq.symm.trans h

/-- A reply is made of values, with the first partition key of the table. -/
theorem exists_of_reply (hlinked : ∀ t, (c.looked r s).result = .ok t → t.isLinked = true)
    {reply : Reply δ} (h : (c.answer r s).result = .ok reply) :
    ∃ t link values, (c.looked r s).result = .ok t ∧ Link.ofTable t = .ok link ∧
      reply = r.question.reply t link.partitionKey.text values := by
  obtain ⟨t, link, _, _, _, _, values, hd, -, hreply⟩ := exists_described_of_reply hlinked h
  obtain ⟨⟨hp, -⟩, -⟩ := hd
  exact ⟨t, link, values, hp.found, hp.link_eq, hreply⟩

/-- **One value for each partition key, if there is one.** Let the table of a request be
linked. A reply is about a table with partition keys; each partition in it has one value for
the first of them and none for the others, so that there is one value for each key if and
only if there is one key. If there is none, no partition is listed, and the failure tells the
table. With more keys than one the answer is the one about the table with the first key
alone. -/
theorem one_value_for_first_key (c : Clients σ δ) (r : Request) (s : σ)
    (hlinked : ∀ t, (c.looked r s).result = .ok t → t.isLinked = true) :
    (∀ t reply, (c.looked r s).result = .ok t → (c.answer r s).result = .ok reply →
      t.partitionKeys ≠ [] ∧ ∀ p ∈ reply.listed,
        p.OnePerKey t.firstKeyOnly ∧ (p.OnePerKey t ↔ t.partitionKeys.length = 1)) ∧
    (∀ t f s', (c.looked r s).result = .ok t →
      c.Selects r.question (c.looked r s).state f s' → t.partitionKeys = [] →
        ∃ message, (c.answer r s).result =
          .error (.failure (.linkedTable t.qualifiedName message) none)) ∧
    c.firstKeyOnly.answer r s = c.answer r s := by
  refine ⟨?_, ?_, c.answer_firstKeyOnly r s⟩
  · intro t reply ht hreply
    obtain ⟨t', link, values, ht', hl, rfl⟩ := exists_of_reply hlinked hreply
    cases ht.symm.trans ht'
    obtain ⟨hhead, -⟩ := Link.ofParameters_eq_ok_iff.mp hl
    obtain ⟨more, hkeys⟩ := List.head?_eq_some_iff.mp hhead
    refine ⟨by rw [hkeys]; exact List.cons_ne_nil _ _, fun p hp => ?_⟩
    obtain ⟨value, rfl⟩ := Question.mem_listed_reply hp
    -- Without its other keys the table has the same partition.
    have hfirst : t.firstKeyOnly.partitionKeys = [link.partitionKey.text] := by
      rw [Table.firstKeyOnly, hkeys]
      rfl
    exact ⟨Partition.onePerKey_synthesized hfirst value,
      Partition.onePerKey_synthesized_iff hhead value⟩
  · intro t f s' ht hf hkeys
    obtain ⟨message, hl⟩ : ∃ message, Link.ofTable t =
        .error (.failure (.linkedTable t.qualifiedName message) none) := by
      rw [Link.ofTable, hkeys]
      exact ⟨_, rfl⟩
    have hend := comesTo_answer_of_marked ht (hlinked t ht)
      (comesTo_answerLinked_of_unlinkable hf hl)
    exact ⟨message, hend.result_eq⟩

end

/-- A catalog with a linked table that has given partition keys. It is partitioned by day, and
the warehouse lists two days. -/
def keyed (keys : List String) : Clients Unit Unit :=
  { daily [] with getTable := fun _ _ _ => Run.ofExcept (.ok (keyedTable keys)) }

/-- Under one key there is a value for each key, under two keys there is not, and without keys
there is a failure. -/
theorem keyed_days :
    let listing : Request := ⟨"c", "d", "t", .all 0⟩
    (∃ ps, ((keyed ["day"]).answer listing ()).result = .ok (.partitions ps) ∧
      ps.length = 2 ∧ ∀ p ∈ ps, p.OnePerKey (keyedTable ["day"])) ∧
    (∃ ps, ((keyed ["day", "region"]).answer listing ()).result = .ok (.partitions ps) ∧
      ps.length = 2 ∧ ∀ p ∈ ps, ¬ p.OnePerKey (keyedTable ["day", "region"])) ∧
    ∃ message, ((keyed []).answer listing ()).result =
      .error (.failure (.linkedTable "d.t" message) none) := by
  intro listing
  have hlinked (keys : List String) :
      ∀ t, ((keyed keys).looked listing ()).result = .ok t → t.isLinked = true := by
    rintro _ ⟨⟩
    show isLinked sampleParameters = true
    decide
  obtain ⟨hone, -, -⟩ := one_value_for_first_key (keyed ["day"]) listing () (hlinked _)
  obtain ⟨htwo, -, -⟩ := one_value_for_first_key (keyed ["day", "region"]) listing () (hlinked _)
  obtain ⟨-, hnone, -⟩ := one_value_for_first_key (keyed []) listing () (hlinked _)
  refine ⟨⟨_, rfl, rfl, fun p hp => ?_⟩, ⟨_, rfl, rfl, fun p hp => ?_⟩, ?_⟩
  · exact (((hone _ _ rfl rfl).2 p hp).2).mpr rfl
  · intro hkeys
    exact absurd ((((htwo _ _ rfl rfl).2 p hp).2).mp hkeys) (by decide)
  · exact hnone (keyedTable []) _ _ rfl (.given rfl) rfl

/-- The linked table has two partition keys, and its partitions have one value each. -/
theorem two_keys_one_value :
    (keyedTable ["day", "region"]).isLinked = true ∧
      (keyedTable ["day", "region"]).partitionKeys.length = 2 ∧
      ∃ ps, ((keyed ["day", "region"]).answer ⟨"c", "d", "t", .all 0⟩ ()).result =
          .ok (.partitions ps) ∧
        ps.map (·.values) = [["2024-02-29"], ["2023-06-15"]] :=
  ⟨by decide, rfl, _, rfl, rfl⟩

end Clients

end LinkedTables
