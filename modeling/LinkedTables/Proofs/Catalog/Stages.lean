import LinkedTables.Proofs.Catalog.Courses
import LinkedTables.Proofs.Catalog.Links

set_option autoImplicit false

/-! # Stages of an answer

The stages of an answer about a linked table run in a fixed order, each at most once, and
the first that fails is the last. What it means that a stage fails (`Clients.FailsAt`) is
said of each stage by itself, so that several may fail at once: a filter that cannot be
carried over may come with a table whose address is malformed. The answer then ends with the
problem of the earliest one, and the calls made are those of the stages up to it
(`Clients.ends_at_first_failure`).
-/

namespace LinkedTables

/-- The stages of an answer about a linked table. -/
inductive Stage where
  /-- The table is looked up in the catalog. -/
  | lookup
  /-- A filter that came in bytes is decoded. -/
  | decoding
  /-- The filter is carried over to partition ids. -/
  | carrying
  /-- The link is read off the table. -/
  | linking
  /-- The warehouse is queried and the rows are read. -/
  | querying
  /-- The warehouse is asked for the metadata of its table. -/
  | describing
  /-- The partition ids are converted. -/
  | converting
deriving DecidableEq, Repr

namespace Stage

/-- All stages, in order. -/
def all : List Stage := [lookup, decoding, carrying, linking, querying, describing, converting]

/-- The stages before a stage. -/
def before (stage : Stage) : List Stage := all.takeWhile (· != stage)

/-- The stages up to a stage. -/
def upTo (stage : Stage) : List Stage := stage.before ++ [stage]

/-- Whether a collaborator is called at a stage when a question is answered. -/
def calls (q : Question) : Stage → Bool
  | lookup => true
  | decoding => q.bytes?.isSome
  | carrying => false
  | linking => false
  | querying => true
  | describing => true
  | converting => false

/-- The stages among some that call a collaborator when a question is answered. -/
def calling (q : Question) (stages : List Stage) : List Stage := stages.filter (calls q)

/-- The stage that a call belongs to. Passing a request on belongs to none. -/
def ofCall? : CatalogCall → Option Stage
  | .getTable .. => some lookup
  | .decode _ => some decoding
  | .query _ => some querying
  | .getMetadata _ => some describing
  | .delegate _ => none

theorem calling_upTo (q : Question) (stage : Stage) :
    calling q stage.upTo = match stage with
      | lookup => [lookup]
      | decoding | carrying | linking => lookup :: calling q [decoding]
      | querying => lookup :: (calling q [decoding] ++ [querying])
      | describing | converting => lookup :: (calling q [decoding] ++ [querying, describing]) := by
  cases stage <;> cases hb : q.bytes? <;>
    simp [calling, upTo, before, all, calls, hb, List.filter_cons]

theorem upTo_prefix (stage : Stage) : stage.upTo <+: all := by
  cases stage <;> decide

/-- Nothing is asked of the warehouse up to a stage before it is queried. -/
theorem not_mem_upTo_of_before :
    ∀ stage ∈ querying.before, querying ∉ stage.upTo ∧ describing ∉ stage.upTo := by
  decide

/-- Among stages with a property one is the first, if there are any. -/
theorem exists_first (P : Stage → Prop) :
    (∀ stage, ¬ P stage) ∨ ∃ stage, P stage ∧ ∀ earlier ∈ stage.before, ¬ P earlier := by
  -- Stated for every list, so that the induction may drop stages from the front.
  have hlist : ∀ l : List Stage, (∀ stage ∈ l, ¬ P stage) ∨
      ∃ stage, P stage ∧ ∀ earlier ∈ l.takeWhile (· != stage), ¬ P earlier := by
    intro l
    induction l with
    | nil => exact .inl (by simp)
    | cons a l ih =>
        by_cases ha : P a
        · exact .inr ⟨a, ha, by simp⟩
        · rcases ih with hnone | ⟨stage, hstage, hearlier⟩
          · exact .inl (List.forall_mem_cons.mpr ⟨ha, hnone⟩)
          · have hne : a ≠ stage := fun h => ha (h ▸ hstage)
            refine .inr ⟨stage, hstage, ?_⟩
            rw [List.takeWhile_cons, if_pos (bne_iff_ne.mpr hne)]
            exact List.forall_mem_cons.mpr ⟨ha, hearlier⟩
  rcases hlist all with hnone | hfirst
  · exact .inl fun stage => hnone stage (by cases stage <;> decide)
  · exact .inr hfirst

end Stage

namespace Clients

variable {σ δ : Type} (c : Clients σ δ)

/-! ## Failures and calls of stages -/

/-- A stage of an answer fails with a problem. A stage that works on what another one found
out needs that other one to have succeeded, and no more. -/
inductive FailsAt (r : Request) (s : σ) : Stage → Problem → Prop
  | lookup {p : Problem} (h : (c.looked r s).result = .error p) :
      FailsAt r s .lookup
        (p.wrapped fun text => .catalogCall (some "get_table") (some text))
  | decoding {bytes : ByteArray} {p : Problem} (hb : r.question.bytes? = some bytes)
      (h : (c.decode bytes (c.looked r s).state).result = .error p) :
      FailsAt r s .decoding (p.wrapped fun text => .filterBytes (some text))
  | carrying {bytes : ByteArray} {f : Filter} {p : Problem}
      (hb : r.question.bytes? = some bytes)
      (hf : (c.decode bytes (c.looked r s).state).result = .ok f)
      (h : f.toPartitionId = .error p) : FailsAt r s .carrying p
  | linking {t : Table} {p : Problem} (ht : (c.looked r s).result = .ok t)
      (h : Link.ofTable t = .error p) : FailsAt r s .linking p
  | querying {t : Table} {link : Link} {sql : String} {s' : σ} {p : Problem}
      (hp : c.Posed r s t link sql s') (h : c.listed sql s' = .error p) :
      FailsAt r s .querying
        (p.wrapped fun text => .warehouseCall (some "query") (some text))
  | describing {t : Table} {link : Link} {sql : String} {ids : List String} {s' : σ}
      {p : Problem} (hq : c.Queried r s t link sql ids s')
      (h : (c.getMetadata link.target s').result = .error p) :
      FailsAt r s .describing
        (p.wrapped fun text => .warehouseCall (some "get_table_metadata") (some text))
  | converting {t : Table} {link : Link} {sql : String} {ids : List String}
      {m : TableMetadata} {s' : σ} {p : Problem}
      (hd : c.Described r s t link sql ids m s')
      (h : DayId.convert ids m.timePartitioning = .error p) : FailsAt r s .converting p

/-- A stage fails with a problem, and no stage before it fails. -/
def FailsFirst (r : Request) (s : σ) (stage : Stage) (p : Problem) : Prop :=
  c.FailsAt r s stage p ∧ ∀ earlier ∈ stage.before, ∀ p', ¬ c.FailsAt r s earlier p'

/-- The call that a stage makes. The metadata is that of the table that the address of the
linked table names. -/
inductive Makes (r : Request) (s : σ) : Stage → CatalogCall → Prop
  | lookup : Makes r s .lookup (.getTable r.catalog r.database r.table)
  | decoding {bytes : ByteArray} (hb : r.question.bytes? = some bytes) :
      Makes r s .decoding (.decode bytes)
  | querying {t : Table} {link : Link} {sql : String} {s' : σ}
      (hp : c.Posed r s t link sql s') : Makes r s .querying (.query sql)
  | describing {t : Table} {address : String} {id : TableId}
      (ht : (c.looked r s).result = .ok t)
      (ha : Entries.get? t.parameters addressKey = some address)
      (hi : TableId.parse? address = some id) : Makes r s .describing (.getMetadata id)

/-! ## Stages that do not fail -/

section

variable {c} {r : Request} {s : σ}

theorem exists_found (h : ∀ p, ¬ c.FailsAt r s .lookup p) :
    ∃ t, (c.looked r s).result = .ok t := by
  cases ht : (c.looked r s).result with
  | error p => exact absurd (.lookup ht) (h _)
  | ok t => exact ⟨t, rfl⟩

theorem exists_selects (hdecoding : ∀ p, ¬ c.FailsAt r s .decoding p)
    (hcarrying : ∀ p, ¬ c.FailsAt r s .carrying p) :
    ∃ f s', c.Selects r.question (c.looked r s).state f s' := by
  cases hb : r.question.bytes? with
  | none => exact ⟨_, _, .given hb⟩
  | some bytes =>
      cases hf : (c.decode bytes (c.looked r s).state).result with
      | error p => exact absurd (.decoding hb hf) (hdecoding _)
      | ok f =>
          cases hg : f.toPartitionId with
          | error e => exact absurd (.carrying hb hf hg) (hcarrying _)
          | ok g => exact ⟨_, _, .decoded hb hf hg⟩

theorem exists_link {t : Table} (ht : (c.looked r s).result = .ok t)
    (h : ∀ p, ¬ c.FailsAt r s .linking p) : ∃ link, Link.ofTable t = .ok link := by
  cases hl : Link.ofTable t with
  | error p => exact absurd (.linking ht hl) (h _)
  | ok link => exact ⟨link, rfl⟩

theorem exists_queried {t : Table} {link : Link} {sql : String} {s' : σ}
    (hp : c.Posed r s t link sql s') (h : ∀ p, ¬ c.FailsAt r s .querying p) :
    ∃ ids s'', c.Queried r s t link sql ids s'' := by
  cases hi : c.listed sql s' with
  | error p => exact absurd (.querying hp hi) (h _)
  | ok ids => exact ⟨ids, _, hp, hi⟩

theorem exists_described {t : Table} {link : Link} {sql : String} {ids : List String} {s' : σ}
    (hq : c.Queried r s t link sql ids s') (h : ∀ p, ¬ c.FailsAt r s .describing p) :
    ∃ m s'', c.Described r s t link sql ids m s'' := by
  cases hm : (c.getMetadata link.target s').result with
  | error p => exact absurd (.describing hq hm) (h _)
  | ok m => exact ⟨m, _, hq, hm⟩

/-! ## Calls stage by stage -/

theorem makes_decoding (c : Clients σ δ) (r : Request) (s : σ) :
    List.Forall₂ (c.Makes r s) (Stage.calling r.question [.decoding]) r.question.decoding := by
  cases hb : r.question.bytes? with
  | none => simp [Stage.calling, Stage.calls, Question.decoding, hb]
  | some bytes => simp [Stage.calling, Stage.calls, Question.decoding, hb, Makes.decoding hb]

/-- The calls of the stages before the warehouse is queried. -/
theorem makes_before (c : Clients σ δ) (r : Request) (s : σ) :
    List.Forall₂ (c.Makes r s) (.lookup :: Stage.calling r.question [.decoding])
      (.getTable r.catalog r.database r.table :: r.question.decoding) :=
  .cons .lookup (makes_decoding c r s)

theorem makes_decode {bytes : ByteArray} (hb : r.question.bytes? = some bytes) :
    List.Forall₂ (c.Makes r s) (.lookup :: Stage.calling r.question [.decoding])
      [.getTable r.catalog r.database r.table, .decode bytes] := by
  have hcalls := makes_before c r s
  rw [Question.decoding, hb] at hcalls
  exact hcalls

theorem makes_querying {t : Table} {link : Link} {sql : String} {s' : σ}
    (hp : c.Posed r s t link sql s') :
    List.Forall₂ (c.Makes r s) (Stage.calling r.question Stage.querying.upTo)
      (.getTable r.catalog r.database r.table :: (r.question.decoding ++ [.query sql])) := by
  rw [Stage.calling_upTo]
  exact List.rel_append (makes_before c r s) (.cons (.querying hp) .nil)

theorem makes_describing {t : Table} {link : Link} {sql : String} {s' : σ}
    (hp : c.Posed r s t link sql s') :
    List.Forall₂ (c.Makes r s) (Stage.calling r.question Stage.describing.upTo)
      (.getTable r.catalog r.database r.table ::
        (r.question.decoding ++ [.query sql, .getMetadata link.target])) := by
  rw [Stage.calling_upTo]
  -- The link holds the address as it was read; the call is told by the text of it.
  obtain ⟨-, address, ha, hi⟩ := Link.ofParameters_eq_ok_iff.mp hp.link_eq
  have hdescribing := Makes.describing (c := c) hp.found ha hi
  exact List.rel_append (makes_before c r s) (.cons (.querying hp) (.cons hdescribing .nil))

/-! ## The end of an answer -/

theorem comesTo_of_failsFirst
    (hlinked : ∀ t, (c.looked r s).result = .ok t → t.isLinked = true) {stage : Stage}
    {p : Problem} (h : c.FailsFirst r s stage p) :
    ∃ cs s', (c.answer r).ComesTo s cs s' (.error p) ∧
      List.Forall₂ (c.Makes r s) (Stage.calling r.question stage.upTo) cs := by
  obtain ⟨h, hearlier⟩ := h
  -- Up to the link a stage may fail when an earlier one has failed too, and it is from
  -- `hearlier` that there is a table or a filter. Later stages bring all of this themselves.
  cases h with
  | lookup h =>
      refine ⟨_, _, comesTo_answer_of_unfound h, ?_⟩
      rw [Stage.calling_upTo]
      exact .cons .lookup .nil
  | decoding hb h =>
      obtain ⟨t, ht⟩ := exists_found (hearlier .lookup (by decide))
      have hend := comesTo_answerLinked_of_undecoded (t := t) hb h
      refine ⟨_, _, comesTo_answer_of_marked ht (hlinked t ht) hend, ?_⟩
      rw [Stage.calling_upTo]
      exact makes_decode hb
  | carrying hb hf h =>
      obtain ⟨t, ht⟩ := exists_found (hearlier .lookup (by decide))
      have hend := comesTo_answerLinked_of_uncarried (t := t) hb hf h
      refine ⟨_, _, comesTo_answer_of_marked ht (hlinked t ht) hend, ?_⟩
      rw [Stage.calling_upTo]
      exact makes_decode hb
  | linking ht h =>
      obtain ⟨f, s', hq⟩ := exists_selects (hearlier .decoding (by decide))
        (hearlier .carrying (by decide))
      have hend := comesTo_answerLinked_of_unlinkable hq h
      refine ⟨_, _, comesTo_answer_of_marked ht (hlinked _ ht) hend, ?_⟩
      rw [Stage.calling_upTo]
      exact makes_before c r s
  | querying hp h => exact ⟨_, _, comesTo_answer_of_unlisted hp h, makes_querying hp⟩
  | describing hq h =>
      have hend := comesTo_answer_of_undescribed hq h
      obtain ⟨hp, -⟩ := hq
      exact ⟨_, _, hend, makes_describing hp⟩
  | converting hd h =>
      have hend := comesTo_answer_of_described hd
      rw [h] at hend
      obtain ⟨⟨hp, -⟩, -⟩ := hd
      refine ⟨_, _, hend, ?_⟩
      have hcalls := makes_describing hp
      rw [Stage.calling_upTo] at hcalls ⊢
      exact hcalls

/-- If no stage fails, the warehouse tells all that the reply is made of. -/
theorem exists_converted
    (hlinked : ∀ t, (c.looked r s).result = .ok t → t.isLinked = true)
    (h : ∀ stage p, ¬ c.FailsAt r s stage p) :
    ∃ t link sql ids m s' values, c.Described r s t link sql ids m s' ∧
      DayId.convert ids m.timePartitioning = .ok values := by
  obtain ⟨t, ht⟩ := exists_found (h .lookup)
  obtain ⟨f, s₁, hf⟩ := exists_selects (h .decoding) (h .carrying)
  obtain ⟨link, hl⟩ := exists_link ht (h .linking)
  obtain ⟨sql, hp⟩ := hf.exists_posed ht (hlinked t ht) hl
  obtain ⟨ids, s₂, hq⟩ := exists_queried hp (h .querying)
  obtain ⟨m, s₃, hd⟩ := exists_described hq (h .describing)
  cases hv : DayId.convert ids m.timePartitioning with
  | error p => exact absurd (.converting hd hv) (h .converting p)
  | ok values => exact ⟨t, link, sql, ids, m, s₃, values, hd, hv⟩

/-- An answer in which no stage fails goes through all of them. -/
theorem comesTo_of_not_fails
    (hlinked : ∀ t, (c.looked r s).result = .ok t → t.isLinked = true)
    (h : ∀ stage p, ¬ c.FailsAt r s stage p) :
    ∃ cs s' t key values,
      (c.answer r).ComesTo s cs s' (.ok (r.question.reply t key values)) ∧
        List.Forall₂ (c.Makes r s) (Stage.calling r.question Stage.all) cs := by
  obtain ⟨t, link, sql, ids, m, s', values, hd, hv⟩ := exists_converted hlinked h
  have hend := comesTo_answer_of_described hd
  rw [hv] at hend
  obtain ⟨⟨hp, -⟩, -⟩ := hd
  refine ⟨_, _, t, link.partitionKey.text, values, hend, ?_⟩
  have hcalls := makes_describing hp
  rw [Stage.calling_upTo] at hcalls
  exact (Stage.calling_upTo r.question .converting) ▸ hcalls

/-- If a stage fails, there is one that fails first. -/
theorem exists_failsFirst (c : Clients σ δ) (r : Request) (s : σ) :
    (∀ stage p, ¬ c.FailsAt r s stage p) ∨ ∃ stage p, c.FailsFirst r s stage p := by
  rcases Stage.exists_first fun stage => ∃ p, c.FailsAt r s stage p with hnone | hfirst
  · exact .inl fun stage p h => hnone stage ⟨p, h⟩
  · obtain ⟨stage, ⟨p, h⟩, hearlier⟩ := hfirst
    exact .inr ⟨stage, p, h, fun earlier he p' h' => hearlier earlier he ⟨p', h'⟩⟩

/-- An answer either ends at the first stage that fails or goes through all of them. -/
theorem ends_or_replies (hlinked : ∀ t, (c.looked r s).result = .ok t → t.isLinked = true) :
    (∃ stage p cs s', c.FailsFirst r s stage p ∧ (c.answer r).ComesTo s cs s' (.error p) ∧
      List.Forall₂ (c.Makes r s) (Stage.calling r.question stage.upTo) cs) ∨
    ∃ cs s' t key values,
      (c.answer r).ComesTo s cs s' (.ok (r.question.reply t key values)) ∧
        List.Forall₂ (c.Makes r s) (Stage.calling r.question Stage.all) cs := by
  obtain hnone | ⟨stage, p, hfirst⟩ := exists_failsFirst c r s
  · exact .inr (comesTo_of_not_fails hlinked hnone)
  · obtain ⟨cs, s', hend, hcalls⟩ := comesTo_of_failsFirst hlinked hfirst
    exact .inl ⟨stage, p, cs, s', hfirst, hend, hcalls⟩

/-- Every call made is one of a stage. -/
theorem Makes.exists_stage {stages : List Stage} {cs : List CatalogCall}
    (h : List.Forall₂ (c.Makes r s) stages cs) {call : CatalogCall} (hc : call ∈ cs) :
    ∃ stage ∈ stages, c.Makes r s stage call := by
  induction h with
  | nil => cases hc
  | @cons stage first stages cs hmakes _ ih =>
      rcases List.mem_cons.mp hc with rfl | hc
      · exact ⟨stage, List.mem_cons_self, hmakes⟩
      · obtain ⟨later, hlater, hmakes⟩ := ih hc
        exact ⟨later, List.mem_cons_of_mem _ hlater, hmakes⟩

/-- Every call made belongs to a stage that was reached. -/
theorem exists_ofCall? {stages : List Stage} {cs : List CatalogCall}
    (h : List.Forall₂ (c.Makes r s) (Stage.calling r.question stages) cs) {call : CatalogCall}
    (hc : call ∈ cs) : ∃ stage ∈ stages, Stage.ofCall? call = some stage := by
  obtain ⟨stage, hstage, hmakes⟩ := Makes.exists_stage h hc
  refine ⟨stage, List.mem_of_mem_filter hstage, ?_⟩
  cases hmakes <;> rfl

/-- **An answer ends at its first failure.** The stages of an answer about a linked table run
in order, each at most once. The problem of the first that fails is the result, and the calls
made are those of the stages up to it; if none fails there is a reply, and the calls are
those of all stages. So there is no query before the link is known, and no request for
metadata after a query that failed. -/
theorem ends_at_first_failure (c : Clients σ δ) (r : Request) (s : σ)
    (hlinked : ∀ t, (c.looked r s).result = .ok t → t.isLinked = true) :
    (∃ stages, stages <+: Stage.all ∧
      List.Forall₂ (c.Makes r s) (Stage.calling r.question stages)
        (Event.calls (c.answer r s).events)) ∧
    (∀ stage p, c.FailsFirst r s stage p →
      (c.answer r s).result = .error p ∧
        List.Forall₂ (c.Makes r s) (Stage.calling r.question stage.upTo)
          (Event.calls (c.answer r s).events) ∧
        (stage ∈ Stage.querying.before → ∀ sql id,
          .query sql ∉ Event.calls (c.answer r s).events ∧
            .getMetadata id ∉ Event.calls (c.answer r s).events) ∧
        (stage = .querying → ∀ id, .getMetadata id ∉ Event.calls (c.answer r s).events)) ∧
    ((∀ stage p, ¬ c.FailsAt r s stage p) →
      ∃ reply, (c.answer r s).result = .ok reply ∧
        List.Forall₂ (c.Makes r s) (Stage.calling r.question Stage.all)
          (Event.calls (c.answer r s).events)) := by
  refine ⟨?_, ?_, ?_⟩
  · obtain ⟨stage, p, cs, s', -, hend, hcalls⟩ | ⟨cs, s', t, key, values, hend, hcalls⟩ :=
      ends_or_replies hlinked
    · exact ⟨stage.upTo, stage.upTo_prefix, hend.calls_eq ▸ hcalls⟩
    · exact ⟨Stage.all, List.prefix_refl _, hend.calls_eq ▸ hcalls⟩
  · intro stage p h
    obtain ⟨cs, s', hend, hcalls⟩ := comesTo_of_failsFirst hlinked h
    rw [hend.calls_eq]
    refine ⟨hend.result_eq, hcalls, ?_, ?_⟩
    · intro hbefore sql id
      obtain ⟨hquerying, hdescribing⟩ := Stage.not_mem_upTo_of_before stage hbefore
      constructor
      · intro hc
        obtain ⟨_, hreached, ⟨⟩⟩ := exists_ofCall? hcalls hc
        exact hquerying hreached
      · intro hc
        obtain ⟨_, hreached, ⟨⟩⟩ := exists_ofCall? hcalls hc
        exact hdescribing hreached
    · rintro rfl id hc
      obtain ⟨_, hreached, ⟨⟩⟩ := exists_ofCall? hcalls hc
      revert hreached
      decide
  · intro h
    obtain ⟨cs, s', t, key, values, hend, hcalls⟩ := comesTo_of_not_fails hlinked h
    exact ⟨_, hend.result_eq, hend.calls_eq ▸ hcalls⟩

end

/-- A catalog with a linked table that has no address, where what is decoded is no filter. -/
def unaddressed : Clients Unit Unit :=
  { sample (sampleTable [(storageHandlerKey, storageHandler)]) with
    decode := fun _ => Run.ofExcept (.ok (.foreign .null)) }

/-- The filter is at fault and so is the table; the answer tells of the filter. -/
theorem uncarried_before_unlinkable :
    let r : Request := ⟨"c", "d", "t", .byFilter ByteArray.empty "" 0⟩
    (∃ p, unaddressed.FailsAt r () .linking p) ∧
      (unaddressed.answer r ()).result =
        .error (Failure.filterNode .null "Unexpected filter type: None").problem ∧
      ∀ sql id, .query sql ∉ Event.calls (unaddressed.answer r ()).events ∧
        .getMetadata id ∉ Event.calls (unaddressed.answer r ()).events := by
  intro r
  have hlinking : ∃ p, unaddressed.FailsAt r () .linking p := ⟨_, .linking rfl rfl⟩
  have hcarrying : unaddressed.FailsFirst r () .carrying
      (Failure.filterNode .null "Unexpected filter type: None").problem := by
    have hdisplay : Value.null.display = .ok "None" := by
      rw [Value.display_eq_ok (show Value.null.HasDisplay from rfl), Value.displayChars]
    refine ⟨.carrying rfl rfl ?_, ?_⟩
    · rw [Filter.toPartitionId, Failure.ofNode_none, hdisplay]
      rfl
    intro earlier he p hfails
    cases hfails with
    | lookup h => cases h
    | decoding hb h => cases h
    | _ => revert he; decide
  have hends := ends_at_first_failure unaddressed r () (by rintro _ ⟨⟩; decide)
  obtain ⟨-, hfirst, -⟩ := hends
  obtain ⟨hresult, -, hbefore, -⟩ := hfirst _ _ hcarrying
  exact ⟨hlinking, hresult, hbefore (by decide)⟩

end Clients

end LinkedTables
