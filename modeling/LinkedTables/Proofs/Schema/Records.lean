import LinkedTables.Catalog.Link
import LinkedTables.Catalog.Table
import LinkedTables.Proofs.Job.Records
import LinkedTables.Warehouse.Metadata

set_option autoImplicit false

/-! # Data read back from its text

All the data that leaves the library or stays on record has a document form: addresses and
links, tables and partitions of the catalog, the metadata of the warehouse, and what is known
of a job. Each kind of data is read back from the text of its document as it was, with the
same entries in the same order, as long as it names no key twice, which a dictionary never
does (`comes_back_from_text`). For the details of a job both layouts of the text say the same.
-/

namespace LinkedTables

/-! ## Links and metadata -/

theorem Link.standsFor (link : Link) : Schema.StandsFor 2 read link.toValue link := by
  have htarget := link.target.standsFor
  have hkey := Schema.standsFor_name (n := 1) link.partitionKey
  refine Schema.standsFor_record ?_ (by simp) ?_
  · rw [htarget.required rfl, hkey.required rfl]
    rfl
  · simp [htarget.steady, hkey.steady]

theorem TimePartitioning.standsFor (p : TimePartitioning) :
    Schema.StandsFor 1 read p.toValue p := by
  have htype : Schema.StandsFor 0 (Schema.word Granularity.ofWord?) (.text p.granularity.word)
      p.granularity := Schema.standsFor_word (by simp)
  have hfield := Schema.standsFor_ofText? (n := 0) p.column
  refine Schema.standsFor_record ?_ (by simp) ?_
  · rw [htype.required rfl, hfield.field rfl]
    rfl
  · simp [htype.steady, hfield.steady]

theorem TableMetadata.standsFor (m : TableMetadata) : Schema.StandsFor 2 read m.toValue m := by
  have hpartitioning : Schema.StandsFor 1 (Schema.optional TimePartitioning.read)
      ((m.timePartitioning.map TimePartitioning.toValue).getD .null) m.timePartitioning :=
    Schema.standsFor_optional (by rintro _ ⟨⟩) fun p _ => p.standsFor
  refine Schema.standsFor_record ?_ (by simp) ?_
  · rw [hpartitioning.field rfl]
    rfl
  · simp [hpartitioning.steady]

/-! ## Tables and partitions -/

/-- No key of the settings is named twice. -/
def SerDe.Distinct (s : SerDe) : Prop := (s.parameters.map (·.1)).Nodup

/-- No key of the settings in a description of storage is named twice. -/
def Storage.Distinct (s : Storage) : Prop := ∀ serDe ∈ s.serDe, serDe.Distinct

/-- No key in a table is named twice. -/
structure Table.Distinct (t : Table) : Prop where
  parameters : (t.parameters.map (·.1)).Nodup
  storage : t.storage.Distinct

/-- No key in a partition is named twice. -/
structure Partition.Distinct (p : Partition) : Prop where
  parameters : (p.parameters.map (·.1)).Nodup
  storage : p.storage.Distinct

/-- No key in a partition of a listing is named twice. -/
def Listing.Distinct (l : Listing) : Prop := ∀ p ∈ l.partitions, p.Distinct

theorem SerDe.standsFor {s : SerDe} (h : s.Distinct) : Schema.StandsFor 2 read s.toValue s := by
  have hname := Schema.standsFor_ofText? (n := 1) s.name
  have hlibrary := Schema.standsFor_ofText? (n := 1) s.library
  have hparameters := Schema.standsFor_texts (n := 0) h
  refine Schema.standsFor_record ?_ (by simp) ?_
  · rw [hname.field rfl, hlibrary.field rfl, hparameters.field rfl]
    rfl
  · simp [hname.steady, hlibrary.steady, hparameters.steady]

theorem Storage.standsFor {s : Storage} (h : s.Distinct) :
    Schema.StandsFor 3 read s.toValue s := by
  have hlocation := Schema.standsFor_ofText? (n := 2) s.location
  have hserDe : Schema.StandsFor 2 (Schema.optional SerDe.read)
      ((s.serDe.map SerDe.toValue).getD .null) s.serDe :=
    Schema.standsFor_optional (by rintro _ ⟨⟩) fun serDe hs => SerDe.standsFor (h serDe hs)
  refine Schema.standsFor_record ?_ (by simp) ?_
  · rw [hlocation.field rfl, hserDe.field rfl]
    rfl
  · simp [hlocation.steady, hserDe.steady]

theorem standsFor_textList {n : Nat} (ss : List String) :
    Schema.StandsFor (n + 1) (Schema.list Schema.text) (.list (ss.map .text)) ss :=
  Schema.standsFor_list fun s _ => Schema.standsFor_text s

theorem Table.standsFor {t : Table} (h : t.Distinct) : Schema.StandsFor 4 read t.toValue t := by
  have hcatalog := Schema.standsFor_text (n := 3) t.catalog
  have hdatabase := Schema.standsFor_name (n := 3) t.database
  have hname := Schema.standsFor_name (n := 3) t.name
  have hparameters := Schema.standsFor_texts (n := 2) h.parameters
  have hkeys := standsFor_textList (n := 2) t.partitionKeys
  have hstorage := Storage.standsFor h.storage
  refine Schema.standsFor_record ?_ (by simp) ?_
  · rw [hcatalog.required rfl, hdatabase.required rfl, hname.required rfl,
      hparameters.field rfl, hkeys.field rfl, hstorage.field rfl]
    rfl
  · simp [hcatalog.steady, hdatabase.steady, hname.steady, hparameters.steady, hkeys.steady,
      hstorage.steady]

theorem Partition.standsFor {p : Partition} (h : p.Distinct) :
    Schema.StandsFor 4 read p.toValue p := by
  have hcatalog := Schema.standsFor_text (n := 3) p.catalog
  have hdatabase := Schema.standsFor_text (n := 3) p.database
  have htable := Schema.standsFor_text (n := 3) p.table
  have hvalues := standsFor_textList (n := 2) p.values
  have hstorage := Storage.standsFor h.storage
  have hparameters := Schema.standsFor_texts (n := 2) h.parameters
  refine Schema.standsFor_record ?_ (by simp) ?_
  · rw [hcatalog.required rfl, hdatabase.required rfl, htable.required rfl,
      hvalues.required rfl, hstorage.required rfl, hparameters.field rfl]
    rfl
  · simp [hcatalog.steady, hdatabase.steady, htable.steady, hvalues.steady, hstorage.steady,
      hparameters.steady]

theorem Listing.standsFor {l : Listing} (h : l.Distinct) :
    Schema.StandsFor 6 read l.toValue l := by
  have hpartitions : Schema.StandsFor 5 (Schema.list Partition.read)
      (.list (l.partitions.map Partition.toValue)) l.partitions :=
    Schema.standsFor_list fun p hp => Partition.standsFor (h p hp)
  have hexceed := Schema.standsFor_bool (n := 5) l.mayExceed
  refine Schema.standsFor_record ?_ (by simp) ?_
  · rw [hpartitions.field rfl, hexceed.field rfl]
    rfl
  · simp [hpartitions.steady, hexceed.steady]

/-! ## Jobs -/

/-- No property of a job is named twice. -/
def JobContext.Distinct (c : JobContext) : Prop := (c.properties.map (·.1)).Nodup

theorem JobContext.standsFor {c : JobContext} (h : c.Distinct) :
    Schema.StandsFor 2 read c.toValue c := by
  have houtput := Schema.standsFor_ofText? (n := 1) c.outputTable
  have hproperties := Schema.standsFor_texts (n := 0) h
  have hid := Schema.standsFor_ofText? (n := 1) c.jobId
  refine Schema.standsFor_record ?_ (by simp) ?_
  · rw [houtput.field rfl, hproperties.field rfl, hid.field rfl]
    rfl
  · simp [houtput.steady, hproperties.steady, hid.steady]

theorem JobDetails.ofText_toIndentedText (d : JobDetails) :
    ofText d.toIndentedText = .valid d.settled := by
  rw [ofText_eq, toIndentedText]
  exact d.standsFor_settled.fromText_indented (by decide)

/-! ## All data -/

/-- **Data is read back from the text of its document as it was**, whatever texts it holds,
with the same entries in the same order, as long as it names no key twice. For the details of
a job the text over several lines says the same as the text on one line, also where keys are
named twice. -/
theorem comes_back_from_text :
    (∀ id : TableId, Schema.fromText TableId.read (Json.compact id.toValue) = .valid id) ∧
      (∀ link : Link, Schema.fromText Link.read (Json.compact link.toValue) = .valid link) ∧
      (∀ s : SerDe, s.Distinct →
        Schema.fromText SerDe.read (Json.compact s.toValue) = .valid s) ∧
      (∀ s : Storage, s.Distinct →
        Schema.fromText Storage.read (Json.compact s.toValue) = .valid s) ∧
      (∀ t : Table, t.Distinct →
        Schema.fromText Table.read (Json.compact t.toValue) = .valid t) ∧
      (∀ p : Partition, p.Distinct →
        Schema.fromText Partition.read (Json.compact p.toValue) = .valid p) ∧
      (∀ l : Listing, l.Distinct →
        Schema.fromText Listing.read (Json.compact l.toValue) = .valid l) ∧
      (∀ p : TimePartitioning,
        Schema.fromText TimePartitioning.read (Json.compact p.toValue) = .valid p) ∧
      (∀ m : TableMetadata,
        Schema.fromText TableMetadata.read (Json.compact m.toValue) = .valid m) ∧
      (∀ c : JobContext, c.Distinct →
        Schema.fromText JobContext.read (Json.compact c.toValue) = .valid c) ∧
      (∀ d : JobDetails, d.Distinct → JobDetails.ofText d.toText = .valid d) ∧
      ∀ d : JobDetails, JobDetails.ofText d.toIndentedText = JobDetails.ofText d.toText := by
  refine ⟨fun id => id.standsFor.fromText_compact (by decide),
    fun link => link.standsFor.fromText_compact (by decide),
    fun s h => (SerDe.standsFor h).fromText_compact (by decide),
    fun s h => (Storage.standsFor h).fromText_compact (by decide),
    fun t h => (Table.standsFor h).fromText_compact (by decide),
    fun p h => (Partition.standsFor h).fromText_compact (by decide),
    fun l h => (Listing.standsFor h).fromText_compact (by decide),
    fun p => p.standsFor.fromText_compact (by decide),
    fun m => m.standsFor.fromText_compact (by decide),
    fun c h => (JobContext.standsFor h).fromText_compact (by decide),
    fun d h => ?_, fun d => ?_⟩
  · rw [d.ofText_toText, h.settled_eq]
  · rw [d.ofText_toIndentedText, d.ofText_toText]

/-- A listing of two partitions whose settings have a line end, a backslash, a null character
and an empty text among their keys and values, and the details of a job with such a key. -/
theorem awkward_texts_come_back :
    let serDe : SerDe := ⟨none, some "lib", [("é\n", "\\"), ("\x00", "")]⟩
    let p : Partition :=
      ⟨"c", "d\"", "t", ["2024-02-29", ""], ⟨none, some serDe⟩, [("b", "1"), ("a", "2")]⟩
    let l : Listing := ⟨[p, p], true⟩
    let d : JobDetails := ⟨⟨"db.t", by decide⟩, none, .indirect, [("b", "\x00"), ("a", "")], []⟩
    Schema.fromText Listing.read (Json.compact l.toValue) = .valid l ∧
      JobDetails.ofText d.toIndentedText = .valid d := by
  intro serDe p l d
  obtain ⟨-, -, -, -, -, -, hlisting, -, -, -, hdetails, hlayouts⟩ := comes_back_from_text
  have hp : p.Distinct := by
    refine ⟨by decide, fun s hs => ?_⟩
    cases hs
    exact show ["é\n", "\x00"].Nodup by decide
  have hl : l.Distinct := List.forall_mem_cons.mpr ⟨hp, List.forall_mem_singleton.mpr hp⟩
  exact ⟨hlisting l hl, (hlayouts d).trans (hdetails d ⟨by decide, by decide⟩)⟩

end LinkedTables
