import LinkedTables.Proofs.Catalog.Stages

set_option autoImplicit false

/-! # Requests that are passed on

Whether a request is passed on is decided by one parameter of its table alone. If that does
not name the storage handler of the warehouse, letter for letter, the catalog's own answer
gets the whole request, filter and all, and what comes of it is not touched. Otherwise, and
also when the table cannot be looked up, the catalog's own answer is out of the picture: it
is no resort for answers that fail.
-/

namespace LinkedTables

theorem isLinked_eq_true_iff (parameters : Entries String) :
    isLinked parameters = true ↔
      Entries.get? parameters storageHandlerKey = some storageHandler := by
  unfold isLinked
  exact beq_iff_eq

theorem isLinked_eq_false_iff (parameters : Entries String) :
    isLinked parameters = false ↔
      Entries.get? parameters storageHandlerKey ≠ some storageHandler := by
  rw [← Bool.not_eq_true]
  exact not_congr (isLinked_eq_true_iff parameters)

/-- A reply of the library's own is not one of the catalog. -/
theorem Question.reply_ne_delegated {δ : Type} (t : Table) (key : String) (values : List String)
    (q : Question) (d : δ) : q.reply t key values ≠ .delegated d := by
  cases q <;> intro h <;> cases h

namespace Clients

variable {σ δ : Type}

/-- No stage of an answer passes the request on. -/
theorem not_delegate_mem {c : Clients σ δ} {r : Request} {s : σ} {stages : List Stage}
    {cs : List CatalogCall}
    (h : List.Forall₂ (c.Makes r s) (Stage.calling r.question stages) cs) (r' : Request) :
    .delegate r' ∉ cs := by
  intro hc
  obtain ⟨stage, -, hstage⟩ := exists_ofCall? h hc
  cases hstage

/-- **Requests about tables that are not linked are passed on, and no others.** If the table
is found and its storage handler is another one or none, then the look-up and the catalog's
own answer to the same request are the only calls, and what the latter comes to is what the
answer comes to. If the table is linked or is not found, then the catalog's own answer is
never asked for, and no reply is one of its own. -/
theorem passes_on_unlinked (c : Clients σ δ) (r : Request) (s : σ) :
    (∀ t, (c.looked r s).result = .ok t →
      Entries.get? t.parameters storageHandlerKey ≠ some storageHandler →
        Event.calls (c.answer r s).events =
            [.getTable r.catalog r.database r.table, .delegate r] ∧
          (c.answer r s).result =
            (c.delegate r (c.looked r s).state).result.map .delegated ∧
          (c.answer r s).state = (c.delegate r (c.looked r s).state).state) ∧
    ((∀ t, (c.looked r s).result = .ok t →
      Entries.get? t.parameters storageHandlerKey = some storageHandler) →
        (∀ r', .delegate r' ∉ Event.calls (c.answer r s).events) ∧
          ∀ d, (c.answer r s).result ≠ .ok (.delegated d)) := by
  constructor
  · intro t ht hhandler
    have hend := comesTo_answer_of_unmarked ht ((isLinked_eq_false_iff _).mpr hhandler)
    exact ⟨hend.calls_eq, hend.result_eq, hend.state_eq⟩
  · intro hhandler
    have hlinked : ∀ t, (c.looked r s).result = .ok t → t.isLinked = true :=
      fun t ht => (isLinked_eq_true_iff _).mpr (hhandler t ht)
    obtain ⟨stage, p, cs, s', -, hend, hcalls⟩ | ⟨cs, s', t, key, values, hend, hcalls⟩ :=
      ends_or_replies hlinked
    · rw [hend.calls_eq, hend.result_eq]
      refine ⟨not_delegate_mem hcalls, ?_⟩
      intro d h
      cases h
    · rw [hend.calls_eq, hend.result_eq]
      refine ⟨not_delegate_mem hcalls, ?_⟩
      intro d h
      exact Question.reply_ne_delegated t key values r.question d (Except.ok.inj h)

/-- A catalog where tables have a storage handler that differs from the one of linked tables
in its last letter, except for one table, which cannot be looked up. No filter can be decoded
and the catalog's own answers take too long. -/
def misspelled : Clients Unit Unit :=
  let t := sampleTable
    [(storageHandlerKey, "com.google.cloud.hive.bigquery.connector.BigQueryStorageHandleR")]
  { sample t with
    getTable := fun _ _ table => Run.ofExcept
      (if table = "missing" then .error (.error .lookup "no such table") else .ok t)
    decode := fun _ => Run.ofExcept (.error (.error .value "not a filter"))
    delegate := fun _ => Run.ofExcept (.error (.error .timeout "too late")) }

theorem misspelled_passes_on :
    let found : Request := ⟨"c", "d", "t", .byFilter ByteArray.empty "none" 7⟩
    let missing : Request := ⟨"c", "d", "missing", .byFilter ByteArray.empty "none" 7⟩
    Event.calls (misspelled.answer found ()).events =
        [.getTable "c" "d" "t", .delegate found] ∧
      (misspelled.answer found ()).result = .error (.error .timeout "too late") ∧
      ∀ r', .delegate r' ∉ Event.calls (misspelled.answer missing ()).events := by
  intro found missing
  obtain ⟨hcalls, hresult, -⟩ := (passes_on_unlinked misspelled found ()).1 _ rfl (by decide)
  have hmissing := (passes_on_unlinked misspelled missing ()).2 (by rintro _ ⟨⟩)
  exact ⟨hcalls, hresult, hmissing.1⟩

end Clients

end LinkedTables
