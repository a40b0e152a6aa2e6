import LinkedTables.Proofs.Catalog.Stages

set_option autoImplicit false

/-! # Problems of collaborators

A collaborator may raise a problem when it is called, and the warehouse also later, when the
rows of its answer are read, of which each needs a first cell with a text (`Clients.Raises`).
Failures of the library and interruptions leave an answer as they are, also where they come from
a collaborator. Any other problem leaves as the failure of the call, which tells the operation
and, unless it is empty, the text of the problem, and keeps the problem as its cause
(`Clients.leaves_wrapped`).

Nothing else comes from calls: a stage that makes one and fails does so with a problem that
the call raised (`Clients.exists_raises`).
-/

namespace LinkedTables

/-! ## Wrapping -/

/-- A problem that is not wrapped: a failure of the library itself or an interruption. -/
def Problem.Passes (p : Problem) : Prop := p.isFailure = true ∨ p.isInterrupt = true

theorem Problem.wrapped_of_passes {p : Problem} (h : p.Passes) (make : String → Failure) :
    p.wrapped make = p := by
  cases p with
  | failure | interrupt => rfl
  | refused | error => rcases h with h | h <;> cases h

theorem Problem.wrapped_of_not_passes {p : Problem} (h : ¬ p.Passes)
    (make : String → Failure) : p.wrapped make = .failure (make p.text) (some p) := by
  cases p with
  | failure => exact absurd (.inl rfl) h
  | interrupt => exact absurd (.inr rfl) h
  | refused | error => rfl

namespace CatalogCall

/-- The operation of a call, as failures tell it. -/
def operation : CatalogCall → String
  | getTable .. => "get_table"
  | query _ => "query"
  | getMetadata _ => "get_table_metadata"
  | decode _ => Failure.decodeOperation
  | delegate r => r.question.operation

/-- The failure that a call ended with a problem of some text. There is none for the
catalog's own answers. -/
inductive Reported (text : String) : CatalogCall → Failure → Prop
  | getTable (catalog database table : String) :
      Reported text (.getTable catalog database table)
        (.catalogCall (some "get_table") (some text))
  | query (sql : String) :
      Reported text (.query sql) (.warehouseCall (some "query") (some text))
  | getMetadata (id : TableId) :
      Reported text (.getMetadata id) (.warehouseCall (some "get_table_metadata") (some text))
  | decode (bytes : ByteArray) : Reported text (.decode bytes) (.filterBytes (some text))

theorem Reported.details_eq {text : String} {call : CatalogCall} {f : Failure}
    (h : Reported text call f) :
    f.details = ("operation", call.operation) :: if text = "" then [] else [("cause", text)] := by
  have hcause : Failure.detail "cause" (some text) =
      if text = "" then [] else [("cause", text)] := by
    simp only [Failure.detail, String.isEmpty_iff]
  cases h <;> exact congrArg (List.cons _) hcause

end CatalogCall

namespace Clients

variable {σ δ : Type} (c : Clients σ δ) {r : Request} {s : σ}

/-! ## What collaborators raise -/

/-- A collaborator that is called for an answer raises a problem. -/
inductive Raises (r : Request) (s : σ) : CatalogCall → Problem → Prop
  /-- The table cannot be looked up. -/
  | lookup {p : Problem} (h : (c.looked r s).result = .error p) :
      Raises r s (.getTable r.catalog r.database r.table) p
  /-- The filter for a linked table cannot be decoded. -/
  | decoding {t : Table} {bytes : ByteArray} {p : Problem}
      (ht : (c.looked r s).result = .ok t) (hm : t.isLinked = true)
      (hb : r.question.bytes? = some bytes)
      (h : (c.decode bytes (c.looked r s).state).result = .error p) :
      Raises r s (.decode bytes) p
  /-- The warehouse refuses the query. -/
  | query {t : Table} {link : Link} {sql : String} {s' : σ} {p : Problem}
      (hp : c.Posed r s t link sql s') (h : (c.query sql s').result = .error p) :
      Raises r s (.query sql) p
  /-- The answer to the query breaks off after some rows. -/
  | row {t : Table} {link : Link} {sql : String} {s' : σ} {rows : List (List Value)}
      {p : Problem} (hp : c.Posed r s t link sql s')
      (h : (c.query sql s').result = .ok ⟨rows, some p⟩)
      (hread : ∀ row ∈ rows, Rows.Readable row) : Raises r s (.query sql) p
  /-- A row of the answer to the query has no cells. -/
  | emptyRow {t : Table} {link : Link} {sql : String} {s' : σ}
      {before after : List (List Value)} {ending : Option Problem}
      (hp : c.Posed r s t link sql s')
      (h : (c.query sql s').result = .ok ⟨before ++ [] :: after, ending⟩)
      (hbefore : ∀ row ∈ before, Rows.Readable row) : Raises r s (.query sql) Rows.noCell
  /-- The first cell of a row of the answer to the query has no text. -/
  | cell {t : Table} {link : Link} {sql : String} {s' : σ}
      {before after : List (List Value)} {v : Value} {cells : List Value}
      {ending : Option Problem} {e : NoText} (hp : c.Posed r s t link sql s')
      (h : (c.query sql s').result = .ok ⟨before ++ (v :: cells) :: after, ending⟩)
      (hbefore : ∀ row ∈ before, Rows.Readable row) (hv : v.noText? = some e) :
      Raises r s (.query sql) e.problem
  /-- The warehouse does not tell its metadata. -/
  | metadata {t : Table} {link : Link} {sql : String} {ids : List String} {s' : σ}
      {p : Problem} (hq : c.Queried r s t link sql ids s')
      (h : (c.getMetadata link.target s').result = .error p) :
      Raises r s (.getMetadata link.target) p

section

variable {c}

/-- The ids cannot be listed when the query is refused, when the answer breaks off, or when a
row cannot be read. -/
theorem listed_eq_error_cases {sql : String} {p : Problem} (h : c.listed sql s = .error p) :
    (c.query sql s).result = .error p ∨
      (∃ rows, (c.query sql s).result = .ok ⟨rows, some p⟩ ∧ ∀ row ∈ rows, Rows.Readable row) ∨
      ∃ before row after ending,
        (c.query sql s).result = .ok ⟨before ++ row :: after, ending⟩ ∧
          (∀ earlier ∈ before, Rows.Readable earlier) ∧ Rows.firstCell row = .error p := by
  cases hr : (c.query sql s).result with
  | error p' =>
      cases (listed_of_error hr).symm.trans h
      exact .inl rfl
  | ok rows =>
      rw [listed_of_ok hr] at h
      obtain ⟨rows, ending⟩ := rows
      obtain ⟨hending, hread⟩ | ⟨before, row, after, hsplit, hbefore, hrow⟩ :=
        Rows.firstCells_eq_error_cases h
      · cases hending
        exact .inr (.inl ⟨rows, rfl, hread⟩)
      · cases hsplit
        exact .inr (.inr ⟨before, row, after, ending, rfl, hbefore, hrow⟩)

/-- The ids cannot be listed only because of what the warehouse raised. -/
theorem raises_of_unlisted {t : Table} {link : Link} {sql : String} {s' : σ} {p : Problem}
    (hp : c.Posed r s t link sql s') (h : c.listed sql s' = .error p) :
    c.Raises r s (.query sql) p := by
  obtain hr | ⟨rows, hr, hread⟩ | ⟨before, row, after, ending, hr, hbefore, hrow⟩ :=
    listed_eq_error_cases h
  · exact .query hp hr
  · exact .row hp hr hread
  · obtain ⟨rfl, rfl⟩ | ⟨v, cells, e, rfl, hv, rfl⟩ := Rows.firstCell_eq_error_cases hrow
    · exact .emptyRow hp hr hbefore
    · exact .cell hp hr hbefore hv

/-- A stage that fails although it makes a call has its problem from that call. -/
theorem exists_raises (hlinked : ∀ t, (c.looked r s).result = .ok t → t.isLinked = true)
    {stage : Stage} {p : Problem} (h : c.FailsFirst r s stage p)
    (hcalls : stage.calls r.question = true) :
    ∃ call p' make, c.Raises r s call p' ∧ p = p'.wrapped make := by
  obtain ⟨h, hearlier⟩ := h
  cases h with
  | lookup h => exact ⟨_, _, _, .lookup h, rfl⟩
  | decoding hb h =>
      obtain ⟨t, ht⟩ := exists_found (hearlier .lookup (by decide))
      exact ⟨_, _, _, .decoding ht (hlinked t ht) hb h, rfl⟩
  | querying hp h => exact ⟨_, _, _, raises_of_unlisted hp h, rfl⟩
  | describing hq h => exact ⟨_, _, _, .metadata hq h, rfl⟩
  | carrying | linking | converting => cases hcalls

/-- What a collaborator raises is what the answer ends with, but for what reports the call. -/
theorem Raises.exists_result {call : CatalogCall} {p : Problem} (h : c.Raises r s call p) :
    ∃ make, (∀ text, CatalogCall.Reported text call (make text)) ∧
      (c.answer r s).result = .error (p.wrapped make) := by
  cases h with
  | lookup h => exact ⟨_, fun _ => .getTable .., (comesTo_answer_of_unfound h).result_eq⟩
  | @decoding t _ _ ht hm hb h =>
      have hend := comesTo_answerLinked_of_undecoded (t := t) hb h
      exact ⟨_, fun _ => .decode _, (comesTo_answer_of_marked ht hm hend).result_eq⟩
  | query hp h =>
      have hend := comesTo_answer_of_unlisted hp (listed_of_error h)
      exact ⟨_, fun _ => .query _, hend.result_eq⟩
  | row hp h hread =>
      have hlisted := (listed_of_ok h).trans (Rows.firstCells_of_ending hread)
      exact ⟨_, fun _ => .query _, (comesTo_answer_of_unlisted hp hlisted).result_eq⟩
  | emptyRow hp h hbefore =>
      have hlisted := (listed_of_ok h).trans (Rows.firstCells_of_unread hbefore rfl)
      exact ⟨_, fun _ => .query _, (comesTo_answer_of_unlisted hp hlisted).result_eq⟩
  | @cell _ _ _ _ _ _ _ cells _ _ hp h hbefore hv =>
      have hrow := Rows.firstCell_of_noText hv cells
      have hlisted := (listed_of_ok h).trans (Rows.firstCells_of_unread hbefore hrow)
      exact ⟨_, fun _ => .query _, (comesTo_answer_of_unlisted hp hlisted).result_eq⟩
  | metadata hq h =>
      exact ⟨_, fun _ => .getMetadata _, (comesTo_answer_of_undescribed hq h).result_eq⟩

/-- **Problems of collaborators leave wrapped, once.** A failure of the library itself or an
interruption that a collaborator raises leaves the answer unchanged. Anything else that it
raises leaves as the failure that reports the call, with the operation and the text of the
problem as its details, where an empty text is left out, and with the problem as its cause.
There is no reply in either case. -/
theorem leaves_wrapped {call : CatalogCall} {p : Problem} (h : c.Raises r s call p) :
    (∀ reply, (c.answer r s).result ≠ .ok reply) ∧
    (p.Passes → (c.answer r s).result = .error p) ∧
    (¬ p.Passes → ∃ f, CatalogCall.Reported p.text call f ∧
      f.details =
        ("operation", call.operation) :: (if p.text = "" then [] else [("cause", p.text)]) ∧
      (c.answer r s).result = .error (.failure f (some p))) := by
  obtain ⟨make, hmake, hresult⟩ := h.exists_result
  rw [hresult]
  refine ⟨?_, ?_, ?_⟩
  · intro reply h
    cases h
  · intro hpasses
    rw [Problem.wrapped_of_passes hpasses]
  · intro hpasses
    rw [Problem.wrapped_of_not_passes hpasses]
    exact ⟨_, hmake p.text, (hmake p.text).details_eq, rfl⟩

end

/-- A catalog with a linked table for which the warehouse breaks off after one row, with a
problem that has no text, and whose filters are refused by a failure of the library. -/
def brokenOff : Clients Unit Unit :=
  { sample (sampleTable sampleParameters) with
    query := fun _ =>
      Run.ofExcept (.ok ⟨[[.text "20230615"]], some (.error .runtime "")⟩)
    decode := fun _ => Run.ofExcept (.error (Failure.filterBytes none).problem) }

theorem brokenOff_wrapped_or_not :
    let listing : Request := ⟨"c", "d", "t", .all 0⟩
    let filtering : Request := ⟨"c", "d", "t", .byFilter ByteArray.empty "none" 0⟩
    (∃ f, f.details = [("operation", "query")] ∧
      (brokenOff.answer listing ()).result =
        .error (.failure f (some (.error .runtime "")))) ∧
      (brokenOff.answer filtering ()).result = .error (Failure.filterBytes none).problem := by
  intro listing filtering
  have hposed : brokenOff.Posed listing () _ sampleLink _ () :=
    ⟨rfl, by decide, rfl, none, .given rfl, rfl⟩
  have hrow : brokenOff.Raises listing () (.query _) (.error .runtime "") :=
    .row hposed rfl (List.forall_mem_singleton.mpr ⟨_, rfl⟩)
  have hdecoding : brokenOff.Raises filtering () (.decode ByteArray.empty)
      (Failure.filterBytes none).problem := .decoding rfl (by decide) rfl rfl
  constructor
  · have hpasses : ¬ (Problem.error .runtime "").Passes := by rintro (h | h) <;> cases h
    obtain ⟨f, -, hdetails, hresult⟩ := (leaves_wrapped hrow).2.2 hpasses
    exact ⟨f, hdetails, hresult⟩
  · exact (leaves_wrapped hdecoding).2.1 (.inl rfl)

end Clients

end LinkedTables
