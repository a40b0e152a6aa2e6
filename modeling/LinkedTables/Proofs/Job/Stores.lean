import LinkedTables.Proofs.Job.Reachable
import LinkedTables.Proofs.Job.Steps
import Mathlib.Logic.Function.Basic

set_option autoImplicit false

/-! # Stores as maps

A store answers puts and gets like a map from names to details, where each key stands for a
name (`Use.answers`). In memory a key stands for itself. In files it stands for the name of
its work directory, and it does not matter which of several stores below one parent
directory is asked: nothing is kept outside of the files.

A step of a store keeps what it holds in agreement with a map, and a run is as many such
steps as there are uses (`StoreUse.forall₂_results`). Where the parent directory is there,
errors of the files come from paths only that no file could have.
-/

namespace LinkedTables

/-! ## Maps -/

/-- What a store is asked to do. -/
inductive Use where
  /-- Details are put on record under a key. -/
  | put (key : String) (d : JobDetails)
  /-- The details for a key are got. -/
  | get (key : String)

/-- What a map answers. -/
inductive MapAnswer where
  /-- The details are in the map. -/
  | done
  /-- These details are under the key. -/
  | found (d : JobDetails)
  /-- Nothing is under the key. -/
  | missing (key : String)

namespace Use

/-- The key that a use is about. -/
def key : Use → String
  | put key _ => key
  | get key => key

variable (nameOf : String → String)

/-- The details that are put name no property twice. -/
def Distinct : Use → Prop
  | put _ d => d.Distinct
  | get _ => True

/-- What a map from names to details answers to a use. -/
def answer (m : String → Option JobDetails) : Use → MapAnswer
  | put _ _ => .done
  | get key =>
    match m (nameOf key) with
    | some d => .found d
    | none => .missing key

/-- The map after a use. -/
def after (m : String → Option JobDetails) : Use → String → Option JobDetails
  | put key d => Function.update m (nameOf key) (some d)
  | get _ => m

/-- What a map answers to uses one after the other. -/
def answers : (String → Option JobDetails) → List Use → List MapAnswer
  | _, [] => []
  | m, use :: uses => use.answer nameOf m :: answers (use.after nameOf m) uses

end Use

/-- A result of a store is what a map answers; that there is nothing is told with the key that
was asked for. -/
inductive MapAnswer.Matches : Except Problem (Option JobDetails) → MapAnswer → Prop
  | done : Matches (.ok none) .done
  | found (d : JobDetails) : Matches (.ok (some d)) (.found d)
  | missing (key : String) (cause : Option Problem) :
      Matches (.error (.failure (.jobNotFound key none) cause)) (.missing key)

/-- The details in a map name no property twice. -/
def AllDistinct (m : String → Option JobDetails) : Prop :=
  ∀ n d, m n = some d → d.Distinct

theorem AllDistinct.update {m : String → Option JobDetails} (h : AllDistinct m) (n : String)
    {d : JobDetails} (hd : d.Distinct) : AllDistinct (Function.update m n (some d)) := by
  intro n' d' hd'
  rw [Function.update_apply] at hd'
  split at hd'
  · cases hd'
    exact hd
  · exact h n' d' hd'

/-! ## Runs of stores -/

/-- One use of one store. -/
structure StoreUse (σ : Type) where
  /-- The store. -/
  store : DetailsStore σ
  /-- What it is asked to do. -/
  use : Use

namespace StoreUse

variable {σ : Type}

/-- Does what a store is asked to do; a put gives no details. -/
def perform (x : StoreUse σ) : Run Empty σ (Option JobDetails) :=
  match x.use with
  | .put key d => x.store.put key d >>= fun _ => pure none
  | .get key => x.store.get key >>= fun d => pure (some d)

theorem perform_put (store : DetailsStore σ) (key : String) (d : JobDetails) (s : σ) :
    perform ⟨store, .put key d⟩ s = (store.put key d s).map fun _ => none :=
  Run.bind_pure_eq_map _ _ _

theorem perform_get (store : DetailsStore σ) (key : String) (s : σ) :
    perform ⟨store, .get key⟩ s = (store.get key s).map some :=
  Run.bind_pure_eq_map _ _ _

/-- The results of uses one after the other. -/
def results : List (StoreUse σ) → σ → List (Except Problem (Option JobDetails))
  | [], _ => []
  | x :: xs, s => (x.perform s).result :: results xs (x.perform s).state

variable (R : σ → (String → Option JobDetails) → Prop) (nameOf : String → String)
  (fits : StoreUse σ → Prop) (good : Except Problem (Option JobDetails) → Prop)

/-- If each use with a good result keeps the state in agreement with a map and has the result
that the map answers, then so it is for a whole run of uses with good results. -/
theorem forall₂_results
    (hstep : ∀ x s m, fits x → R s m → good (x.perform s).result →
      MapAnswer.Matches (x.perform s).result (x.use.answer nameOf m) ∧
        R (x.perform s).state (x.use.after nameOf m))
    {xs : List (StoreUse σ)} {s : σ} {m : String → Option JobDetails} (hR : R s m)
    (hfits : ∀ x ∈ xs, fits x) (hgood : ∀ result ∈ results xs s, good result) :
    List.Forall₂ MapAnswer.Matches (results xs s)
      (Use.answers nameOf m (xs.map (·.use))) := by
  induction xs generalizing s m with
  | nil => exact .nil
  | cons x xs ih =>
      rw [List.forall_mem_cons] at hfits
      rw [results, List.forall_mem_cons] at hgood
      obtain ⟨hmatches, hafter⟩ := hstep x s m hfits.1 hR hgood.1
      exact .cons hmatches (ih hafter hfits.2 hgood.2)

end StoreUse

/-! ## In memory -/

namespace DetailsStore

/-- The records in memory are the texts of the details in a map. -/
structure Recalls (records : Entries String) (m : String → Option JobDetails) : Prop where
  get?_eq : ∀ key, Entries.get? records key = (m key).map JobDetails.toText
  distinct : AllDistinct m

theorem Recalls.empty : Recalls [] fun _ => none where
  get?_eq _ := rfl
  distinct _ _ hm := by cases hm

theorem Recalls.put {records : Entries String} {m : String → Option JobDetails}
    (h : Recalls records m) (key : String) {d : JobDetails} (hd : d.Distinct) :
    Recalls (Entries.set records key d.toText) (Function.update m key (some d)) where
  get?_eq key' := by
    rw [Entries.get?_set, Function.update_apply, h.get?_eq key']
    split <;> rfl
  distinct := h.distinct.update key hd

theorem recalled_of_get? {records : Entries String} {key : String} {d : JobDetails}
    (hd : d.Distinct) (h : Entries.get? records key = some d.toText) :
    recalled records key = .ok d := by
  rw [recalled, h]
  simp only [d.ofText_toText, hd.settled_eq, Checked.orRefuse_valid]

theorem Recalls.perform {records : Entries String} {m : String → Option JobDetails}
    (h : Recalls records m) {x : StoreUse (Entries String)} (hd : x.use.Distinct)
    (hx : x.store = inMemory) :
    MapAnswer.Matches (x.perform records).result (x.use.answer id m) ∧
      Recalls (x.perform records).state (x.use.after id m) := by
  obtain ⟨store, use⟩ := x
  obtain rfl : store = inMemory := hx
  cases use with
  | put key d => exact ⟨.done, h.put key hd⟩
  | get key =>
      have hperform : StoreUse.perform ⟨inMemory, .get key⟩ records =
          ⟨[], records, (recalled records key).map some⟩ := StoreUse.perform_get _ _ _
      have hget := h.get?_eq key
      rw [hperform]
      refine ⟨?_, h⟩
      simp only [Use.answer, id_eq]
      cases hm : m key with
      | none =>
          rw [hm] at hget
          rw [recalled, hget]
          exact .missing key none
      | some d =>
          rw [hm] at hget
          rw [recalled_of_get? (h.distinct key d hm) hget]
          exact .found d

end DetailsStore

/-! ## In files -/

namespace WorkDir

open Files

/-- Stores share a parent directory. Either it is there and all their paths lead to it, or they
all have the same path and the directory may still have to be made. -/
inductive SharedParent (parents : Path → Prop) (top : List String) (files : Files) : Prop
  | made (h : ∀ parent, parents parent → LeadsTo files parent top)
  | onePath (parent : Path) (hone : ∀ other, parents other → other = parent)
      (h : ∃ links, Aims files mostLinks [] parent.names links top)

/-- Nothing is in the directory at a place. -/
def Vacant (top : List String) (files : Files) : Prop :=
  ∀ rest, rest ≠ [] → files.stands? (top ++ rest) = none

/-- The work directories below a parent directory hold the texts of the details in a map. As
long as nothing is in the map, the parent directory need not be there. -/
structure Holding (parents : Path → Prop) (top : List String) (files : Files)
    (m : String → Option JobDetails) : Prop where
  tidy : Tidy parents top (fun _ => True) files
  record?_eq : ∀ key, record? top files (name key) =
    (m (name key)).map fun d => d.toIndentedText.toUTF8
  distinct : AllDistinct m
  reach : (∀ parent, parents parent → LeadsTo files parent top) ∨
    (∀ parent other, parents parent → parents other → parent = other) ∧
      ∀ key, m (name key) = none

variable {parents : Path → Prop} {parent : Path} {top : List String} {files : Files}
  {m : String → Option JobDetails} {key : String}

theorem Vacant.holding (hv : Vacant top files) (h : SharedParent parents top files) :
    Holding parents top files fun _ => none where
  tidy := by
    refine ⟨fun parent hp => ?_, fun place target hl n _ hin => ?_⟩
    · cases h with
      | made h =>
          obtain ⟨links, hleads⟩ := h parent hp
          exact ⟨links, hleads.aims⟩
      | onePath _ hone h =>
          rw [hone parent hp]
          exact h
    · obtain ⟨rest, rfl⟩ := hin
      rw [List.append_assoc, List.singleton_append, hv _ (List.cons_ne_nil n rest)] at hl
      cases hl
  record?_eq key := by
    rw [record?, hv _ (List.cons_ne_nil _ _)]
    rfl
  distinct _ _ hm := by cases hm
  reach := by
    cases h with
    | made h => exact .inl h
    | onePath _ hone _ =>
        exact .inr ⟨fun p q hp hq => (hone p hp).trans (hone q hq).symm, fun _ => rfl⟩

/-- If nothing is there to be read then nothing is in the map. -/
theorem Holding.eq_none_of_load (h : Holding parents top files m) (hp : parents parent)
    {e : FileError} (hl : files.load (detailsPath parent key) = .error e)
    (he : e.fault = .notFound) : m (name key) = none := by
  rcases h.reach with hreach | ⟨-, hnone⟩
  · by_contra hsome
    obtain ⟨d, hd⟩ := Option.ne_none_iff_exists'.mp hsome
    have hrecord := h.record?_eq key
    rw [hd] at hrecord
    obtain hok | ⟨e', herror, hne⟩ := (hreach parent hp).load_of_record? hrecord
    · cases hl.symm.trans hok
    · cases hl.symm.trans herror
      exact hne he
  · exact hnone key

/-- No error of the files came up. -/
def NoFileError (result : Except Problem (Option JobDetails)) : Prop :=
  ∀ e : FileError, result ≠ .error e.problem

/-- Details are got as they are in the map, unless an error of the files comes up. -/
theorem Holding.readDetails (h : Holding parents top files m) (hp : parents parent)
    (hgood : NoFileError ((DetailsStore.readDetails parent files key).map some)) :
    MapAnswer.Matches ((DetailsStore.readDetails parent files key).map some)
      ((Use.get key).answer name m) := by
  rw [DetailsStore.readDetails] at hgood ⊢
  cases hl : files.load (detailsPath parent key) with
  | ok content =>
      have hrecord := h.tidy.record?_of_load hp trivial hl
      rw [h.record?_eq, Option.map_eq_some_iff] at hrecord
      obtain ⟨d, hd, rfl⟩ := hrecord
      simp only [DetailsStore.ofBytes_toIndentedText, (h.distinct _ d hd).settled_eq, Use.answer,
        hd]
      exact .found d
  | error e =>
      rw [hl] at hgood
      by_cases he : e.fault = .notFound
      · simp only [if_pos he, Use.answer, h.eq_none_of_load hp hl he]
        exact .missing key _
      · simp only [if_neg he] at hgood
        exact absurd rfl (hgood e)

theorem exists_fileError_of_writeDetails {d : JobDetails} {p : Problem}
    (h : (DetailsStore.writeDetails parent files key d).1 = .error p) :
    ∃ e : FileError, p = e.problem := by
  rw [DetailsStore.writeDetails, DetailsStore.writeDetailsOn] at h
  split at h
  · exact ⟨_, (Except.error.inj h).symm⟩
  · split at h
    · cases h
    · exact ⟨_, (Except.error.inj h).symm⟩

/-- Details that were put on record are in the map from then on. -/
theorem Holding.writeDetails (h : Holding parents top files m) (hp : parents parent)
    {d : JobDetails} (hd : d.Distinct)
    (hw : (DetailsStore.writeDetails parent files key d).1 = .ok ()) :
    Holding parents top (DetailsStore.writeDetails parent files key d).2
      (Function.update m (name key) (some d)) where
  tidy := h.tidy.writeDetails hp trivial d
  record?_eq other := by
    obtain ⟨p, hp', -⟩ | ⟨-, hrecord⟩ := h.tidy.record?_writeDetails hp trivial d
    · cases hw.symm.trans hp'
    · rw [hrecord, Function.update_apply, h.record?_eq]
      split <;> rfl
  distinct := h.distinct.update _ hd
  reach := by
    left
    intro other hother
    rcases h.reach with hreach | ⟨hone, -⟩
    · exact (hreach other hother).of_keepsWays (keepsWays_writeDetails parent files key d)
    · -- The directory was made by now, and there is no other path to it.
      rw [hone other parent hother hp]
      exact ((h.tidy.writeDetails hp trivial d).reached_of_load hp trivial
        (load_of_writeDetails hw)).leads

theorem perform_get_inFiles (parent : Path) (channel : Channel) (key : String) (files : Files) :
    StoreUse.perform ⟨.inFiles parent channel, .get key⟩ files =
      ⟨[], files, (DetailsStore.readDetails parent files key).map some⟩ :=
  StoreUse.perform_get _ _ _

theorem perform_put_inFiles (parent : Path) (channel : Channel) (key : String) (d : JobDetails)
    (files : Files) :
    ∃ events, StoreUse.perform ⟨.inFiles parent channel, .put key d⟩ files =
      ⟨events, (DetailsStore.writeDetails parent files key d).2,
        (DetailsStore.writeDetails parent files key d).1.map fun _ => none⟩ := by
  obtain ⟨events, hput⟩ := DetailsStore.put_inFiles parent channel key d files
  refine ⟨events, ?_⟩
  rw [StoreUse.perform_put, hput]
  rfl

/-- A store that keeps records below one of some parent directories. -/
def Below (parents : Path → Prop) (store : DetailsStore Files) : Prop :=
  ∃ parent channel, parents parent ∧ store = .inFiles parent channel

theorem Holding.perform (h : Holding parents top files m) {x : StoreUse Files}
    (hd : x.use.Distinct) (hx : Below parents x.store)
    (hgood : NoFileError (x.perform files).result) :
    MapAnswer.Matches (x.perform files).result (x.use.answer name m) ∧
      Holding parents top (x.perform files).state (x.use.after name m) := by
  obtain ⟨store, use⟩ := x
  obtain ⟨parent, channel, hp, rfl⟩ := hx
  cases use with
  | get key =>
      rw [perform_get_inFiles] at hgood ⊢
      exact ⟨h.readDetails hp hgood, h⟩
  | put key d =>
      obtain ⟨events, hput⟩ := perform_put_inFiles parent channel key d files
      rw [hput] at hgood ⊢
      cases hw : (DetailsStore.writeDetails parent files key d).1 with
      | error p =>
          obtain ⟨e, rfl⟩ := exists_fileError_of_writeDetails hw
          rw [hw] at hgood
          exact absurd rfl (hgood e)
      | ok u => exact ⟨.done, h.writeDetails hp hd hw⟩

/-! ## Errors of the files -/

theorem Vacant.clear (hv : Vacant top files)
    (h : ∀ parent, parents parent → LeadsTo files parent top) : Clear parents top files where
  reach := h
  directory n := .inl (hv _ (List.cons_ne_nil n []))
  details n node hnode := by
    rw [hv _ (List.cons_ne_nil n _)] at hnode
    cases hnode

/-- No error of the files is told as one of the text in them. -/
theorem kind_ne_encoding (fault : FileFault) : fault.kind ≠ .encoding := by
  have hsystem (e : SystemError) : e.kind ≠ .encoding := by
    rw [SystemError.kind]
    split <;> decide
  cases fault with
  | refused e => exact hsystem e
  | brokenOff e => exact hsystem e
  | _ => decide

theorem ofBytes_ne_fileError (content : ByteArray) (e : FileError) :
    DetailsStore.ofBytes content ≠ .error e.problem := by
  rw [DetailsStore.ofBytes]
  split
  · intro h
    have hkind : ErrorKind.encoding = e.fault.kind := by
      injection h with h
      injection h
    exact kind_ne_encoding e.fault hkind.symm
  · unfold Checked.orRefuse
    split
    · intro h
      cases h
    · intro h
      cases h

theorem Clear.noFileError_readDetails (h : Clear parents top files) (hp : parents parent)
    (hu : Usable parent key) :
    NoFileError ((DetailsStore.readDetails parent files key).map some) := by
  intro e he
  rw [DetailsStore.readDetails] at he
  rcases h.load_cases hp hu with ⟨content, hl⟩ | ⟨e', hl, hmissing⟩
  · rw [hl] at he
    cases hread : DetailsStore.ofBytes content with
    | ok d =>
        simp only [hread] at he
        cases he
    | error p =>
        simp only [hread] at he
        cases he
        exact ofBytes_ne_fileError content e hread
  · rw [hl] at he
    simp only [if_pos hmissing] at he
    cases he

theorem Clear.perform (h : Clear parents top files) {x : StoreUse Files}
    (hx : Below parents x.store) (hu : ∀ parent, parents parent → Usable parent x.use.key) :
    NoFileError (x.perform files).result ∧ Clear parents top (x.perform files).state := by
  obtain ⟨store, use⟩ := x
  obtain ⟨parent, channel, hp, rfl⟩ := hx
  cases use with
  | get key =>
      rw [perform_get_inFiles]
      exact ⟨h.noFileError_readDetails hp (hu parent hp), h⟩
  | put key d =>
      obtain ⟨events, hput⟩ := perform_put_inFiles parent channel key d files
      have hown : Usable parent key := hu parent hp
      obtain ⟨hdone, hclear⟩ := h.writeDetails hp hown d
      rw [hput, hdone]
      refine ⟨fun e he => ?_, hclear⟩
      cases he

/-- **Nothing but an unusable path is in the way** of a run of stores, once the parent
directory is there. -/
theorem Clear.noFileError_results (h : Clear parents top files) {xs : List (StoreUse Files)}
    (hxs : ∀ x ∈ xs, Below parents x.store)
    (hu : ∀ x ∈ xs, ∀ parent, parents parent → Usable parent x.use.key) :
    ∀ result ∈ StoreUse.results xs files, NoFileError result := by
  induction xs generalizing files with
  | nil => exact List.forall_mem_nil _
  | cons x xs ih =>
      rw [List.forall_mem_cons] at hxs hu
      obtain ⟨hresult, hafter⟩ := h.perform hxs.1 hu.1
      exact List.forall_mem_cons.mpr ⟨hresult, ih hafter hxs.2 hu.2⟩

end WorkDir

open Files WorkDir

/-- **Stores behave like maps.** A store in memory gives for each key what was last put under
it. Stores in files below one parent directory, which is empty at first, do so together for
each name of a work directory, as long as no error of the files comes up; and if the parent
directory is there, none comes up by paths that files can have. What a get tells of a key
under which nothing was put is that there are no details for it. -/
theorem stores_are_maps :
    (∀ xs : List (StoreUse (Entries String)),
      (∀ x ∈ xs, x.use.Distinct ∧ x.store = DetailsStore.inMemory) →
        List.Forall₂ MapAnswer.Matches (StoreUse.results xs [])
          (Use.answers id (fun _ => none) (xs.map (·.use)))) ∧
    ∀ (parents : Path → Prop) (top : List String) (files : Files), Vacant top files →
      ∀ xs : List (StoreUse Files), (∀ x ∈ xs, x.use.Distinct ∧ Below parents x.store) →
        (SharedParent parents top files →
          (∀ result ∈ StoreUse.results xs files, NoFileError result) →
            List.Forall₂ MapAnswer.Matches (StoreUse.results xs files)
              (Use.answers name (fun _ => none) (xs.map (·.use)))) ∧
        ((∀ parent, parents parent → LeadsTo files parent top) →
          (∀ x ∈ xs, ∀ parent, parents parent → Usable parent x.use.key) →
            ∀ result ∈ StoreUse.results xs files, NoFileError result) := by
  refine ⟨fun xs hxs => ?_, fun parents top files hv xs hxs =>
    ⟨fun hshared hgood => ?_, fun hreach hu => ?_⟩⟩
  · exact StoreUse.forall₂_results DetailsStore.Recalls id
      (fun x => x.use.Distinct ∧ x.store = DetailsStore.inMemory) (fun _ => True)
      (fun x records m hx h _ => h.perform hx.1 hx.2) DetailsStore.Recalls.empty hxs
      (fun _ _ => trivial)
  · exact StoreUse.forall₂_results (Holding parents top) name
      (fun x => x.use.Distinct ∧ Below parents x.store) NoFileError
      (fun x files m hx h hgood => h.perform hx.1 hx.2 hgood) (hv.holding hshared) hxs hgood
  · exact (hv.clear hreach).noFileError_results (fun x hx => (hxs x hx).2) hu

/-- What is put in memory for `a/b` is not got for `a_b`; in the files it is, by whichever store
below the same parent directory. -/
theorem alike_keys_share_files_only :
    let parent : Path := ⟨0, ["w"]⟩
    let files : Files := [("w", .directory [])]
    let d : JobDetails := ⟨⟨"a/b", by decide⟩, none, .direct, [], []⟩
    List.Forall₂ MapAnswer.Matches
      (StoreUse.results [⟨.inMemory, .put "a/b" d⟩, ⟨.inMemory, .get "a_b"⟩] [])
      [.done, .missing "a_b"] ∧
    List.Forall₂ MapAnswer.Matches
      (StoreUse.results [⟨.inFiles parent .shared, .put "a/b" d⟩,
        ⟨.inFiles parent .own, .get "a_b"⟩, ⟨.inFiles parent .own, .get "c"⟩] files)
      [.done, .found d, .missing "c"] := by
  intro parent files d
  have hd : d.Distinct := ⟨List.nodup_nil, List.nodup_nil⟩
  have hname : name "a_b" = name "a/b" := by decide
  have hother : name "c" ≠ name "a/b" := by decide
  have hmemory := stores_are_maps.1 [⟨.inMemory, .put "a/b" d⟩, ⟨.inMemory, .get "a_b"⟩] (by
    simp [Use.Distinct, hd])
  have hvacant : Vacant ["w"] files := by
    intro rest hne
    obtain ⟨next, below, rfl⟩ := List.exists_cons_of_ne_nil hne
    exact stands?_empty (next :: below)
  have hreach : ∀ other, other = parent → LeadsTo files other ["w"] := by
    rintro other rfl
    exact ⟨mostLinks, .into (by decide) ⟨⟨by decide, by decide⟩, rfl, trivial⟩ (.done _ _)⟩
  obtain ⟨hmaps, hgood⟩ := stores_are_maps.2 (· = parent) ["w"] files hvacant
    [⟨.inFiles parent .shared, .put "a/b" d⟩, ⟨.inFiles parent .own, .get "a_b"⟩,
      ⟨.inFiles parent .own, .get "c"⟩]
    (by
      simp only [List.forall_mem_cons]
      exact ⟨⟨hd, _, _, rfl, rfl⟩, ⟨trivial, _, _, rfl, rfl⟩, ⟨trivial, _, _, rfl, rfl⟩,
        List.forall_mem_nil _⟩)
  have husable : ∀ key ∈ ["a/b", "a_b", "c"], Usable parent key := by
    simp only [List.forall_mem_cons]
    exact ⟨⟨by decide, by decide⟩, ⟨by decide, by decide⟩, ⟨by decide, by decide⟩,
      List.forall_mem_nil _⟩
  have hfiles := hmaps (.made hreach) (hgood hreach (by
    rintro x hx other rfl
    refine husable x.use.key ?_
    simp only [List.mem_cons, List.not_mem_nil, or_false] at hx
    rcases hx with rfl | rfl | rfl <;> simp [Use.key]))
  simp only [Use.answers, Use.answer, Use.after, Function.update_apply, List.map, hname,
    if_neg hother, if_pos] at hmemory hfiles
  exact ⟨hmemory, hfiles⟩

end LinkedTables
