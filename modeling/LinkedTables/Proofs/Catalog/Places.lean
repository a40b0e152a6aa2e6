import LinkedTables.Proofs.Catalog.Keys
import LinkedTables.Proofs.Catalog.Stored
import LinkedTables.Proofs.Partition.Places

set_option autoImplicit false

/-! # Partitions kept apart

The partitions of a linked table that is partitioned by day are kept apart if their ids are:
no two of them have the same value, the same place or the same name, and each is at a place in
the table (`Clients.days_kept_apart`). This holds of whatever asks for them, since all answers
are made of the same values.
-/

namespace LinkedTables

/-- The names in a reply of the library's own. -/
def Reply.named {δ : Type} : Reply δ → List String
  | delegated _ => []
  | listing _ => []
  | partitions _ => []
  | names ns => ns

/-- Partitions of a table have different values and different places, each of them in the
table. -/
structure Partition.KeptApart (t : Table) (ps : List Partition) : Prop where
  values : (ps.map (·.values)).Nodup
  places : (ps.map (·.storage.location)).Nodup
  within : ∀ p ∈ ps, ∃ place,
    p.storage.location = some place ∧ PartitionPath.Within t.storage.location place

theorem DayId.exists_values {ids : List String} (hids : ∀ id ∈ ids, ∃ d, Spells id d) :
    ∃ values, List.Forall₂ (fun id value => toValue id = .ok value) ids values := by
  induction ids with
  | nil => exact ⟨[], .nil⟩
  | cons id ids ih =>
      obtain ⟨⟨d, hd⟩, hids⟩ := List.forall_mem_cons.mp hids
      obtain ⟨values, hvalues⟩ := ih hids
      exact ⟨d.dashed :: values, .cons (toValue_of_spells hd) hvalues⟩

theorem DayId.ne_empty_of_forall₂ {ids values : List String}
    (h : List.Forall₂ (fun id value => toValue id = .ok value) ids values) :
    ∀ value ∈ values, value ≠ "" := by
  induction h with
  | nil => exact List.forall_mem_nil _
  | cons hvalue _ ih =>
      obtain ⟨d, -, rfl⟩ := exists_of_toValue hvalue
      exact List.forall_mem_cons.mpr ⟨dashed_ne_empty d, ih⟩

/-- Different ids of days have different values, so a list of them keeps its members apart. -/
theorem DayId.nodup_of_forall₂ {ids values : List String} (hids : ∀ id ∈ ids, ∃ d, Spells id d)
    (hnodup : ids.Nodup)
    (hvalues : List.Forall₂ (fun id value => toValue id = .ok value) ids values) :
    values.Nodup := by
  have hspelled : List.Forall₂ (fun id value => (∃ d, Spells id d) ∧ toValue id = .ok value)
      ids values := by
    rw [List.forall₂_and_left]
    exact ⟨hids, hvalues⟩
  have hunique : Relator.BiUnique fun id value =>
      (∃ d, Spells id d) ∧ toValue id = .ok value := by
    constructor
    · rintro id id' value ⟨hd, hv⟩ ⟨hd', hv'⟩
      exact eq_of_toValue_eq hd hd' hv hv'
    · rintro id value value' ⟨-, hv⟩ ⟨-, hv'⟩
      exact Except.ok.inj (hv.symm.trans hv')
  exact (List.rel_nodup hunique hspelled).mp hnodup

namespace Clients

variable {σ δ : Type} {c : Clients σ δ} {t : Table} {link : Link} {f : Option Filter}
  {limit : Int} {sql : String} {s : σ} {ids : List String} {m : TableMetadata}

theorem keptApart_synthesized (t : Table) (key : String) {values : List String}
    (hne : ∀ value ∈ values, value ≠ "") (h : values.Nodup) :
    Partition.KeptApart t (values.map (synthesized t key)) where
  values := by
    rw [List.map_map]
    exact h.map fun value value' heq => (List.cons.inj heq).1
  places := by
    rw [List.map_map]
    refine h.map_on fun value hvalue value' hvalue' heq => ?_
    exact PartitionPath.place_inj (hne value hvalue) (hne value' hvalue') (Option.some.inj heq)
  within := by
    intro p hp
    obtain ⟨value, -, rfl⟩ := List.mem_map.mp hp
    exact ⟨_, rfl, PartitionPath.within_join_path t.storage.location key value⟩

/-- **Days are kept apart.** Let a table be linked and partitioned by day, and let the query
for some of its partitions be answered with different ids that each spell a day. Then there
is one partition and one name for each id, in order. The partitions have different values and
different places, which are in the table, and the names are different ones. The answer to each
question that leads to this query lists these partitions or these names. -/
theorem days_kept_apart (hl : Link.ofTable t = .ok link)
    (hs : link.target.filteredQuery f limit = .ok sql) (hi : c.listed sql s = .ok ids)
    (hm : (c.getMetadata link.target (c.query sql s).state).result = .ok m)
    (hday : ∃ p ∈ m.timePartitioning, p.granularity = .day)
    (hids : ∀ id ∈ ids, ∃ d, DayId.Spells id d) (hnodup : ids.Nodup) :
    ∃ ps names, (c.fetchPartitions t f limit s).result = .ok ps ∧
      (c.fetchNames t f limit s).result = .ok names ∧
      List.Forall₂ (fun id p => ∃ value, DayId.toValue id = .ok value ∧ p.values = [value])
        ids ps ∧
      List.Forall₂ (fun id name => ∃ value, DayId.toValue id = .ok value ∧
        name = link.partitionKey.text ++ "=" ++ value) ids names ∧
      Partition.KeptApart t ps ∧ names.Nodup ∧
      ∀ r s₀, c.Posed r s₀ t link sql s → ∃ reply, (c.answer r s₀).result = .ok reply ∧
        (reply.listed = ps ∧ reply.named = [] ∨ reply.listed = [] ∧ reply.named = names) := by
  obtain ⟨p, hp, hp'⟩ := hday
  obtain ⟨values, hvalues⟩ := DayId.exists_values hids
  have hconverted : DayId.convert ids m.timePartitioning = .ok values := by
    rw [DayId.convert, DayId.isDaily_eq_true hp hp', if_pos rfl]
    exact DayId.toValues_eq_ok_iff.mpr hvalues
  have hapart : values.Nodup := DayId.nodup_of_forall₂ hids hnodup hvalues
  have hfetched := comesTo_fetchValues hl hs hi hm
  rw [hconverted] at hfetched
  refine ⟨_, _, (comesTo_fetchPartitions hl hfetched).result_eq,
    (comesTo_fetchNames hl hfetched).result_eq, ?_, ?_,
    keptApart_synthesized t _ (DayId.ne_empty_of_forall₂ hvalues) hapart,
    hapart.map (partitionName_injective _), ?_⟩
  · rw [List.forall₂_map_right_iff]
    exact hvalues.imp fun id value hvalue => ⟨value, hvalue, rfl⟩
  · rw [List.forall₂_map_right_iff]
    exact hvalues.imp fun id value hvalue => ⟨value, hvalue, rfl⟩
  · intro r s₀ hposed
    have hresult := (comesTo_answer_of_described ⟨⟨hposed, hi⟩, hm⟩).result_eq
    rw [hconverted] at hresult
    refine ⟨_, hresult, ?_⟩
    cases r.question with
    | byFilter | all | byValues => exact .inl ⟨rfl, rfl⟩
    | names | namesByValues => exact .inr ⟨rfl, rfl⟩

/-- The linked table `d.t` at a place with slashes at its end, with a key that has one too. -/
def slashedTable : Table :=
  { keyedTable ["a/b"] with storage := { Storage.unknown with location := some "gs://x//" } }

/-- Two days of the years 1 and 2023 are two partitions of a table, below its place. -/
theorem days_kept_apart_slashed :
    let c : Clients Unit Unit :=
      { sample slashedTable with
        query := fun _ => Run.ofExcept (.ok (.ofIds ["00010101", "20230615"]))
        getMetadata := fun _ => Run.ofExcept (.ok ⟨some ⟨.day, none⟩⟩) }
    ∃ ps, (c.fetchPartitions slashedTable none 0 ()).result = .ok ps ∧
      (c.fetchNames slashedTable none 0 ()).result = .ok ["a/b=1-01-01", "a/b=2023-06-15"] ∧
      (c.answer ⟨"c", "d", "t", .all 0⟩ ()).result = .ok (.partitions ps) ∧
      ps.map (·.storage.location) =
        [some "gs://x/a%2Fb=1-01-01", some "gs://x/a%2Fb=2023-06-15"] ∧
      Partition.KeptApart slashedTable ps := by
  intro c
  have hfirst : DayId.Spells "00010101" ⟨1, 1, 1⟩ :=
    ⟨rfl, List.all_eq_true.mp rfl, rfl, rfl, rfl, by decide⟩
  have hids : ∀ id ∈ ["00010101", "20230615"], ∃ d, DayId.Spells id d := by
    rintro id (_ | ⟨_, _ | ⟨_, ⟨⟩⟩⟩)
    · exact ⟨_, hfirst⟩
    · exact ⟨_, spells_june⟩
  let link : Link := { sampleLink with partitionKey := ⟨"a/b", by decide⟩ }
  have hl : Link.ofTable slashedTable = .ok link := rfl
  obtain ⟨ps, -, hps, -, -, -, hapart, -, -⟩ :=
    @days_kept_apart Unit Unit c slashedTable link none 0 _ () _ _ hl rfl rfl rfl ⟨_, rfl, rfl⟩
      hids (by decide)
  have hlisted : (c.fetchPartitions slashedTable none 0 ()).result =
      .ok (["1-01-01", "2023-06-15"].map (synthesized slashedTable "a/b")) := rfl
  cases hlisted.symm.trans hps
  exact ⟨_, hlisted, rfl, rfl, rfl, hapart⟩

end Clients

end LinkedTables
