import LinkedTables.Job.Store
import LinkedTables.Proofs.Schema.Written

set_option autoImplicit false

/-! # Records read back

The details of a job are read back from the file that they were written to just as they
were, but for properties that were given twice, of which the last one is kept
(`ofBytes_toIndentedText`). The same holds of a record in memory (`ofText_toText`).
-/

namespace LinkedTables

theorem TableId.standsFor (id : TableId) : Schema.StandsFor 1 read id.toValue id := by
  have hproject := Schema.standsFor_name (n := 0) id.project
  have hdataset := Schema.standsFor_name (n := 0) id.dataset
  have htable := Schema.standsFor_name (n := 0) id.table
  refine Schema.standsFor_record ?_ (by simp) ?_
  · rw [hproject.required rfl, hdataset.required rfl, htable.required rfl]
    rfl
  · simp [hproject.steady, hdataset.steady, htable.steady]

namespace JobDetails

/-- The details with each property kept once, with its last value. -/
def settled (d : JobDetails) : JobDetails :=
  { d with tableProperties := d.tableProperties.merged, staging := d.staging.merged }

theorem standsFor_settled (d : JobDetails) : Schema.StandsFor 2 read d.toValue d.settled := by
  have houtput := Schema.standsFor_name (n := 1) d.outputTable
  have hwarehouse : Schema.StandsFor 1 (Schema.optional TableId.read)
      ((d.warehouseTable.map TableId.toValue).getD .null) d.warehouseTable :=
    Schema.standsFor_optional (by rintro _ ⟨⟩) fun id _ => id.standsFor
  have hmethod : Schema.StandsFor 1 (Schema.word WriteMethod.ofWord?)
      (.text d.writeMethod.word) d.writeMethod := Schema.standsFor_word (by simp)
  have hproperties := Schema.standsFor_merged (n := 0) d.tableProperties
  have hstaging := Schema.standsFor_merged (n := 0) d.staging
  refine Schema.standsFor_record ?_ (by simp) ?_
  · rw [houtput.required rfl, hwarehouse.field rfl, hmethod.field rfl, hproperties.field rfl,
      hstaging.field rfl]
    rfl
  · simp [houtput.steady, hwarehouse.steady, hmethod.steady, hproperties.steady,
      hstaging.steady]

/-- No property is named twice. -/
structure Distinct (d : JobDetails) : Prop where
  tableProperties : (d.tableProperties.map (·.1)).Nodup
  staging : (d.staging.map (·.1)).Nodup

theorem Distinct.settled_eq {d : JobDetails} (h : d.Distinct) : d.settled = d := by
  rw [settled, Entries.merged_of_nodup h.tableProperties, Entries.merged_of_nodup h.staging]

theorem ofText_eq (s : String) : ofText s = Schema.fromText read s := rfl

/-- **Details on record in memory read back.** -/
theorem ofText_toText (d : JobDetails) : ofText d.toText = .valid d.settled := by
  rw [ofText_eq, toText]
  exact d.standsFor_settled.fromText_compact (by decide)

end JobDetails

namespace DetailsStore

/-- **What is written for the details of a job reads back as those details.** -/
theorem ofBytes_toIndentedText (d : JobDetails) :
    ofBytes d.toIndentedText.toUTF8 = .ok d.settled := by
  have hdecoded : Text.decodeUtf8 d.toIndentedText.toUTF8 = .ok d.toIndentedText := by
    rw [Text.decodeUtf8, Json.fromUTF8?_eq_some_iff.mpr rfl]
  have hread : JobDetails.ofText
      (String.ofList (Text.unifyLineEnds d.toIndentedText.toList)) = .valid d.settled := by
    rw [JobDetails.ofText_eq, JobDetails.toIndentedText]
    exact d.standsFor_settled.fromText_unified (by decide)
  rw [ofBytes, hdecoded]
  simp only [hread, Checked.orRefuse_valid]

/-- What reads as details is the text of a document. -/
theorem document_of_ofBytes {bytes : ByteArray} {d : JobDetails} (h : ofBytes bytes = .ok d) :
    ∃ (s : String) (v : Value), bytes = s.toUTF8 ∧
      Json.Document (Text.unifyLineEnds s.toList) v := by
  rw [ofBytes, Text.decodeUtf8] at h
  cases hs : String.fromUTF8? bytes with
  | none =>
      rw [hs] at h
      cases h
  | some s =>
      simp only [hs, JobDetails.ofText_eq, Schema.fromText] at h
      cases hv : Json.parse? (String.ofList (Text.unifyLineEnds s.toList)) with
      | none =>
          rw [hv] at h
          cases h
      | some v =>
          have hdocument := (Json.parse?_eq_some_iff.mp hv).1
          rw [String.toList_ofList] at hdocument
          exact ⟨s, v, Json.fromUTF8?_eq_some_iff.mp hs, hdocument⟩

/-- **A beginning of what is written for the details of a job** reads as details only if it is
all of it. -/
theorem eq_of_ofBytes_beginning {d d' : JobDetails} {length : Nat}
    (h : ofBytes (d.toIndentedText.toUTF8.extract 0 length) = .ok d') :
    d.toIndentedText.toUTF8.extract 0 length = d.toIndentedText.toUTF8 := by
  obtain ⟨s, v, hbytes, hdocument⟩ := document_of_ofBytes h
  have hwritable := d.standsFor_settled.steady.writable
  have htext : d.toIndentedText.toList = Json.indentedChars 0 d.toValue := by
    rw [JobDetails.toIndentedText, Json.indented, String.toList_ofList]
  have hspells : Json.Spells d.toIndentedText.toList d.toValue.finitePart :=
    htext ▸ Json.spells_indentedChars d.toValue 0 hwritable
  have hreturn : '\r' ∉ d.toIndentedText.toList :=
    htext ▸ Json.return_not_mem_indentedChars d.toValue 0 hwritable
  obtain ⟨tail, htail⟩ : ∃ tail, d.toIndentedText.toList = '{' :: tail := by
    rw [htext, JobDetails.toValue, Json.indentedChars]
    exact ⟨_, rfl⟩
  -- What the file holds spells the first characters of the text.
  have hsplit : s.toList.utf8Encode ++ d.toIndentedText.toUTF8.extract length
      d.toIndentedText.toUTF8.size = d.toIndentedText.toList.utf8Encode := by
    rw [String.utf8Encode_toList, String.utf8Encode_toList, ← String.toUTF8_eq_toByteArray,
      ← String.toUTF8_eq_toByteArray, ← hbytes, ByteArray.extract_append_extract, Nat.zero_min,
      ByteArray.extract_zero_max_size]
  obtain ⟨rest, hrest⟩ := List.isPrefix_of_utf8Encode_append_eq_utf8Encode _ hsplit
  rw [← hrest, List.mem_append, not_or] at hreturn
  rw [Json.unifyLineEnds_of_not_mem hreturn.1] at hdocument
  have hend : rest = [] :=
    hdocument.eq_nil_of_object (htail ▸ hspells) (hrest.trans htail)
  rw [hend, List.append_nil, String.toList_inj] at hrest
  rw [hbytes, hrest]

end DetailsStore

end LinkedTables
