import LinkedTables.Proofs.Catalog.Agreement
import LinkedTables.Proofs.Catalog.Wrapping
import LinkedTables.Proofs.Filter.Shown

set_option autoImplicit false

/-! # Failures of the library's own

Whoever asks for the partitions of a linked table is to be told of problems by failures of the
library. As long as no collaborator is interrupted (`Clients.Uninterrupted`) there are two ways
around this. One is a table with a readable address whose first partition key is the empty text
(`Link.Unnamed`): its link is refused as a record is refused that holds an empty name, and this
refusal is no failure that tells the table (`Link.ofParameters_cases`). The other is a filter
that has to be refused for a leaf that has no display (`Filter.Untold`), which only other
decoders than that of JSON can bring.

So a problem that is no failure of the library comes of a call exactly when the link of such a
table is read, whichever way the partitions are asked for, or such a filter is decoded
(`Clients.foreign_iff_unnamed`).
-/

namespace LinkedTables

namespace Link

/-- There is a readable address, and the first partition key is empty. -/
structure Unnamed (parameters : Entries String) (keys : List String) : Prop where
  head_eq : keys.head? = some ""
  address : ∃ address id, Entries.get? parameters addressKey = some address ∧
    TableId.parse? address = some id

/-- How a link without a name for its partition key is refused. -/
def unnamedFaults : List Fault := [⟨.emptyText, [.key "partition_column"]⟩]

theorem ofParameters_of_unnamed {parameters : Entries String} {keys : List String}
    (h : Unnamed parameters keys) (table : String) :
    ofParameters table parameters keys = .error (.refused unnamedFaults) := by
  obtain ⟨hhead, address, id, ha, hi⟩ := h
  obtain ⟨keys, rfl⟩ := List.head?_eq_some_iff.mp hhead
  have hne : address.isEmpty = false := by
    simpa using TableId.ne_empty_of_parse? hi
  have hok := TableId.parse_eq_ok_iff.mpr hi
  simp only [ofParameters, ha, Option.getD_some, hne, hok]
  rfl

/-- A link is read, or a failure tells the table, or the name of the key is all that is
missing. -/
theorem ofParameters_cases (table : String) (parameters : Entries String)
    (keys : List String) :
    (∃ link, ofParameters table parameters keys = .ok link) ∨
      (∃ message cause, ofParameters table parameters keys =
        .error (.failure (.linkedTable table message) cause)) ∨
      Unnamed parameters keys := by
  cases keys with
  | nil => exact .inr (.inl ⟨_, _, rfl⟩)
  | cons key keys =>
      -- The cases are the checks in the order in which they are made; the name comes last.
      obtain hnone | ⟨address, ha, hne, ⟨p, hp⟩ | ⟨id, hp⟩⟩ := address_cases parameters
      · exact .inr (.inl ⟨_, _, ofParameters_of_unaddressed hnone⟩)
      · exact .inr (.inl ⟨_, _, ofParameters_of_malformed ha hne hp⟩)
      · have hi := TableId.parse_eq_ok_iff.mp hp
        by_cases hk : key = ""
        · exact .inr (.inr ⟨congrArg some hk, address, id, ha, hi⟩)
        · exact .inl ⟨⟨id, ⟨key, hk⟩⟩, ofParameters_eq_ok_iff.mpr ⟨rfl, address, ha, hi⟩⟩

/-- Reading the link of a table ends with a failure that tells the table, unless only the name
of the key is missing. -/
theorem reads_or_tells_iff {table : String} {parameters : Entries String}
    {keys : List String} :
    ((∃ link, ofParameters table parameters keys = .ok link) ∨
      ∃ message cause, ofParameters table parameters keys =
        .error (.failure (.linkedTable table message) cause)) ↔ ¬ Unnamed parameters keys := by
  constructor
  · rintro (⟨link, h⟩ | ⟨message, cause, h⟩) hunnamed
    · cases (ofParameters_of_unnamed hunnamed table).symm.trans h
    · cases (ofParameters_of_unnamed hunnamed table).symm.trans h
  · intro hnamed
    obtain h | h | h := ofParameters_cases table parameters keys
    · exact .inl h
    · exact .inr h
    · exact absurd h hnamed

theorem unnamed_of_foreign {t : Table} {p : Problem} (h : ofTable t = .error p)
    (hp : p.isFailure = false) : Unnamed t.parameters t.partitionKeys := by
  rw [ofTable] at h
  obtain ⟨link, hl⟩ | ⟨message, cause, hl⟩ | hunnamed :=
    ofParameters_cases t.qualifiedName t.parameters t.partitionKeys
  · cases hl.symm.trans h
  · cases hl.symm.trans h
    cases hp
  · exact hunnamed

end Link

theorem Problem.isFailure_wrapped {p : Problem} (h : p.isInterrupt = false)
    (make : String → Failure) : (p.wrapped make).isFailure = true := by
  cases p with
  | interrupt => cases h
  | failure | refused | error => rfl

namespace Clients

variable {σ δ : Type} {c : Clients σ δ} {r : Request} {s : σ}

/-- No collaborator is ever interrupted. -/
structure Uninterrupted (c : Clients σ δ) : Prop where
  getTable : ∀ catalog database table s p,
    (c.getTable catalog database table s).result = .error p → p.isInterrupt = false
  query : ∀ sql s p, (c.query sql s).result = .error p → p.isInterrupt = false
  rows : ∀ sql s rows p,
    (c.query sql s).result = .ok ⟨rows, some p⟩ → p.isInterrupt = false
  getMetadata : ∀ id s p, (c.getMetadata id s).result = .error p → p.isInterrupt = false
  decode : ∀ bytes s p, (c.decode bytes s).result = .error p → p.isInterrupt = false

namespace Uninterrupted

theorem listed (h : c.Uninterrupted) {sql : String} {p : Problem}
    (hp : c.listed sql s = .error p) : p.isInterrupt = false := by
  obtain hr | ⟨rows, hr, -⟩ | ⟨before, row, after, ending, -, -, hrow⟩ :=
    listed_eq_error_cases hp
  · exact h.query sql s p hr
  · exact h.rows sql s rows p hr
  · obtain ⟨-, rfl⟩ | ⟨v, cells, e, -, -, rfl⟩ := Rows.firstCell_eq_error_cases hrow <;> rfl

theorem of_raises (h : c.Uninterrupted) {call : CatalogCall} {p : Problem}
    (hp : c.Raises r s call p) : p.isInterrupt = false := by
  cases hp with
  | lookup hp => exact h.getTable _ _ _ _ _ hp
  | decoding _ _ _ hp => exact h.decode _ _ _ hp
  | query _ hp => exact h.query _ _ _ hp
  | row _ hp _ => exact h.rows _ _ _ _ hp
  | emptyRow | cell => rfl
  | metadata _ hp => exact h.getMetadata _ _ _ hp

end Uninterrupted

/-! ## Partitions of a table at hand -/

/-- With a link, whatever keeps the values from being fetched is a failure of the library. -/
theorem isFailure_of_fetchValues (hquiet : c.Uninterrupted) {t : Table} {link : Link}
    (hl : Link.ofTable t = .ok link) {f : Option Filter}
    (hf : ∀ g ∈ f, g.noSql? = none) {limit : Int} {p : Problem}
    (hp : (c.fetchValues t f limit s).result = .error p) : p.isFailure = true := by
  -- Only a filter without expression could keep the query from being written.
  obtain ⟨sql, hs⟩ : ∃ sql, link.target.filteredQuery f limit = .ok sql := by
    cases f with
    | none => exact ⟨_, rfl⟩
    | some g => exact ⟨_, by rw [TableId.filteredQuery, Filter.sql, hf g rfl]⟩
  cases hi : c.listed sql s with
  | error p' =>
      cases (comesTo_fetchValues_of_unlisted hl hs hi).result_eq.symm.trans hp
      exact Problem.isFailure_wrapped (hquiet.listed hi) _
  | ok ids =>
      cases hm : (c.getMetadata link.target (c.query sql s).state).result with
      | error p' =>
          cases (comesTo_fetchValues_of_undescribed hl hs hi hm).result_eq.symm.trans hp
          exact Problem.isFailure_wrapped (hquiet.getMetadata _ _ _ hm) _
      | ok m =>
          have hvalues := (comesTo_fetchValues hl hs hi hm).result_eq.symm.trans hp
          exact DayId.isFailure_of_convert hvalues

theorem foreign_fetchValues_iff (hquiet : c.Uninterrupted) {t : Table} {f : Option Filter}
    (hf : ∀ g ∈ f, g.noSql? = none) {limit : Int} :
    (∃ p, (c.fetchValues t f limit s).result = .error p ∧ p.isFailure = false) ↔
      Link.Unnamed t.parameters t.partitionKeys := by
  constructor
  · rintro ⟨p, hp, hforeign⟩
    cases hl : Link.ofTable t with
    | error p' =>
        rw [fetchValues, Run.ofExcept_bind_of_error hl] at hp
        cases hp
        exact Link.unnamed_of_foreign hl hforeign
    | ok link =>
        rw [isFailure_of_fetchValues hquiet hl hf hp] at hforeign
        cases hforeign
  · intro hunnamed
    have hl : Link.ofTable t = _ := Link.ofParameters_of_unnamed hunnamed t.qualifiedName
    exact ⟨_, by rw [fetchValues, Run.ofExcept_bind_of_error hl], rfl⟩

/-- The partitions cannot be fetched for the same reasons as the values. -/
theorem fetchPartitions_eq_error_iff {t : Table} {f : Option Filter} {limit : Int}
    {p : Problem} :
    (c.fetchPartitions t f limit s).result = .error p ↔
      (c.fetchValues t f limit s).result = .error p := by
  cases hl : Link.ofTable t with
  | error p' =>
      rw [fetchPartitions, fetchValues, Run.ofExcept_bind_of_error hl,
        Run.ofExcept_bind_of_error hl]
      simp only [Except.error.injEq]
  | ok link =>
      rw [c.fetchPartitions_of_link hl]
      show Except.map _ (c.fetchValues t f limit s).result = .error p ↔ _
      cases (c.fetchValues t f limit s).result <;> simp [Except.map]

/-! ## Answers -/

/-- A problem that is no failure of the library comes from reading the link or from carrying
the filter over. -/
theorem failsFirst_of_foreign (hquiet : c.Uninterrupted)
    (hlinked : ∀ t, (c.looked r s).result = .ok t → t.isLinked = true) {p : Problem}
    (hp : (c.answer r s).result = .error p) (hforeign : p.isFailure = false) :
    c.FailsFirst r s .linking p ∨ c.FailsFirst r s .carrying p := by
  obtain ⟨stage, p', cs, s', hfirst, hend, -⟩ | ⟨cs, s', t, key, values, hend, -⟩ :=
    ends_or_replies hlinked
  · cases hend.result_eq.symm.trans hp
    cases hcalls : stage.calls r.question with
    | true =>
        -- What a call raises is wrapped, since it is no interruption.
        obtain ⟨call, p', make, hraises, rfl⟩ := exists_raises hlinked hfirst hcalls
        rw [Problem.isFailure_wrapped (hquiet.of_raises hraises)] at hforeign
        cases hforeign
    | false =>
        have hfails := hfirst.1
        cases hfails with
        | linking => exact .inl hfirst
        | carrying => exact .inr hfirst
        | converting _ h =>
            rw [DayId.isFailure_of_convert h] at hforeign
            cases hforeign
        | lookup | querying | describing => cases hcalls
        | decoding hb => rw [Stage.calls, hb] at hcalls; cases hcalls
  · cases hend.result_eq.symm.trans hp

theorem foreign_answer_iff (hquiet : c.Uninterrupted)
    (hlinked : ∀ t, (c.looked r s).result = .ok t → t.isLinked = true) :
    (∃ p, (c.answer r s).result = .error p ∧ p.isFailure = false) ↔
      (∃ t f s', (c.looked r s).result = .ok t ∧
        c.Selects r.question (c.looked r s).state f s' ∧
        Link.Unnamed t.parameters t.partitionKeys) ∨
      ∃ t bytes f, (c.looked r s).result = .ok t ∧ r.question.bytes? = some bytes ∧
        (c.decode bytes (c.looked r s).state).result = .ok f ∧ f.Untold := by
  constructor
  · rintro ⟨p, hp, hforeign⟩
    obtain ⟨hfails, hearlier⟩ | ⟨hfails, hearlier⟩ :=
      failsFirst_of_foreign hquiet hlinked hp hforeign
    · obtain ⟨f, s', hf⟩ := exists_selects (hearlier .decoding (by decide))
        (hearlier .carrying (by decide))
      cases hfails with
      | @linking t _ ht hl => exact .inl ⟨t, f, s', ht, hf, Link.unnamed_of_foreign hl hforeign⟩
    · obtain ⟨t, ht⟩ := exists_found (hearlier .lookup (by decide))
      cases hfails with
      | @carrying bytes f _ hb hf h =>
          exact .inr ⟨t, bytes, f, ht, hb, hf, Filter.untold_iff.mpr ⟨p, h, hforeign⟩⟩
  · rintro (⟨t, f, s', ht, hf, hunnamed⟩ | ⟨t, bytes, f, ht, hb, hf, huntold⟩)
    · have hl : Link.ofTable t = _ := Link.ofParameters_of_unnamed hunnamed t.qualifiedName
      have hend := comesTo_answer_of_marked ht (hlinked t ht)
        (comesTo_answerLinked_of_unlinkable hf hl)
      exact ⟨_, hend.result_eq, rfl⟩
    · obtain ⟨p, hp, hforeign⟩ := Filter.untold_iff.mp huntold
      have hend := comesTo_answer_of_marked ht (hlinked t ht)
        (comesTo_answerLinked_of_uncarried hb hf hp)
      exact ⟨p, hend.result_eq, hforeign⟩

/-- **Whether problems are told by failures of the library.** Let no collaborator be
interrupted. Reading a link yields it or fails with the name of the table, if the first key
has a name or the address is not readable, and only then. What else than a failure of the
library ends a call comes from there: when the values or the partitions of a table at hand are
fetched for a filter that has an expression or for none, and when a request about a linked table
is answered, once it is known what the request selects. A request that brings a filter may also
end so because the first leaf that is not supported has no display, but not if the filter came
from JSON. -/
theorem foreign_iff_unnamed (c : Clients σ δ) (hquiet : c.Uninterrupted) :
    (∀ table parameters keys,
      ((∃ link, Link.ofParameters table parameters keys = .ok link) ∨
        ∃ message cause, Link.ofParameters table parameters keys =
          .error (.failure (.linkedTable table message) cause)) ↔
        ¬ Link.Unnamed parameters keys) ∧
    (∀ t f limit s, (∀ g ∈ f, g.noSql? = none) →
      ((∃ p, (c.fetchValues t f limit s).result = .error p ∧ p.isFailure = false) ↔
        Link.Unnamed t.parameters t.partitionKeys) ∧
      ((∃ p, (c.fetchPartitions t f limit s).result = .error p ∧ p.isFailure = false) ↔
        Link.Unnamed t.parameters t.partitionKeys)) ∧
    (∀ bytes f, Filter.decode bytes = .ok f → ¬ f.Untold) ∧
    ∀ r s, (∀ t, (c.looked r s).result = .ok t → t.isLinked = true) →
      ((∃ p, (c.answer r s).result = .error p ∧ p.isFailure = false) ↔
        (∃ t f s', (c.looked r s).result = .ok t ∧
          c.Selects r.question (c.looked r s).state f s' ∧
          Link.Unnamed t.parameters t.partitionKeys) ∨
        ∃ t bytes f, (c.looked r s).result = .ok t ∧ r.question.bytes? = some bytes ∧
          (c.decode bytes (c.looked r s).state).result = .ok f ∧ f.Untold) := by
  refine ⟨fun table parameters keys => Link.reads_or_tells_iff, fun t f limit s hf => ?_,
    fun bytes f hf => (Filter.shown_of_decode hf).not_untold,
    fun r s hlinked => foreign_answer_iff hquiet hlinked⟩
  refine ⟨foreign_fetchValues_iff hquiet hf, ?_⟩
  simp only [fetchPartitions_eq_error_iff]
  exact foreign_fetchValues_iff hquiet hf

/-- A catalog with a linked table whose partition key is the empty text. -/
def unnamed : Clients Unit Unit := sample (keyedTable [""])

theorem uninterrupted_unnamed : unnamed.Uninterrupted where
  getTable := by rintro _ _ _ _ _ ⟨⟩
  query := by rintro _ _ _ ⟨⟩
  rows := by rintro _ _ _ _ ⟨⟩
  getMetadata := by rintro _ _ _ ⟨⟩
  decode := by rintro _ _ _ ⟨⟩

theorem uninterrupted_brokenOff : brokenOff.Uninterrupted where
  getTable := by rintro _ _ _ _ _ ⟨⟩
  query := by rintro _ _ _ ⟨⟩
  rows := by rintro _ _ _ _ ⟨⟩; rfl
  getMetadata := by rintro _ _ _ ⟨⟩
  decode := by rintro _ _ _ ⟨⟩; rfl

/-- An answer that breaks off is told by a failure of the library; an empty partition key is
not. -/
theorem foreign_only_if_unnamed :
    let listing : Request := ⟨"c", "d", "t", .all 0⟩
    (∃ p, (unnamed.answer listing ()).result = .error p ∧ p.isFailure = false) ∧
      ∃ p, (brokenOff.answer listing ()).result = .error p ∧ p.isFailure = true := by
  intro listing
  have hkeys : Link.Unnamed (keyedTable [""]).parameters [""] :=
    ⟨rfl, "p.d.t", sampleLink.target, rfl, rfl⟩
  obtain ⟨-, -, -, hunnamed⟩ := foreign_iff_unnamed unnamed uninterrupted_unnamed
  obtain ⟨-, -, -, hbroken⟩ := foreign_iff_unnamed brokenOff uninterrupted_brokenOff
  constructor
  · exact (hunnamed listing () (by rintro _ ⟨⟩; decide)).mpr
      (.inl ⟨keyedTable [""], _, _, rfl, .given rfl, hkeys⟩)
  · refine ⟨_, rfl, ?_⟩
    by_contra hforeign
    obtain ⟨t, -, -, ht, -, hhead, -⟩ | ⟨t, bytes, f, -, hb, -⟩ :=
      (hbroken listing () (by rintro _ ⟨⟩; decide)).mp ⟨_, rfl, eq_false_of_ne_true hforeign⟩
    · cases ht
      exact absurd hhead (by decide)
    · cases hb

/-- The table has the mark of linked tables and a well-formed address; its link is refused, and
so is the request, without a failure that tells the table. -/
theorem unnamed_key_refused :
    (keyedTable [""]).isLinked = true ∧ unnamed.Uninterrupted ∧
      Link.ofParameters "d.t" sampleParameters [""] = .error (.refused Link.unnamedFaults) ∧
      (unnamed.answer ⟨"c", "d", "t", .all 0⟩ ()).result =
        .error (.refused Link.unnamedFaults) :=
  ⟨by decide, uninterrupted_unnamed, rfl, rfl⟩

end Clients

end LinkedTables
