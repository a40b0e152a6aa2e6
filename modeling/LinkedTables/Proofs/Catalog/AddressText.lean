import LinkedTables.Proofs.Catalog.Links

set_option autoImplicit false

/-! # The texts of addresses

The text of an address is taken apart at its dots. So a text is an address exactly if it
consists of three parts that are not empty and hold no dot (`TableId.IsAddress`), and the
address read is the one that is written like this (`TableId.parse?_eq_some_iff`). An address
whose parts hold dots has a text too, which is not read as that address.

Whether a table with a named partition key has a link is decided by the parameter for the
address (`Link.addresses_read_exactly`). It may be missing or empty, or hold a malformed text,
or an address; a failure has a cause only if the text is malformed.
-/

namespace LinkedTables

/-- No piece of what is split holds the separator. -/
theorem not_mem_of_mem_splitOn {sep : Char} {cs part : List Char}
    (h : part ∈ cs.splitOn sep) : sep ∉ part := by
  induction cs generalizing part with
  | nil =>
      obtain rfl : part = [] := by simpa using h
      exact List.not_mem_nil
  | cons c cs ih =>
      rw [List.splitOn_cons_eq_if_modifyHead] at h
      split at h
      · rcases List.mem_cons.mp h with rfl | h
        · exact List.not_mem_nil
        · exact ih h
      next hc =>
        -- The character joins the first piece of what follows it.
        obtain ⟨first, more, hsplit⟩ := List.exists_cons_of_ne_nil (List.splitOn_ne_nil sep cs)
        rw [hsplit, List.modifyHead_cons] at h
        rw [hsplit] at ih
        rcases List.mem_cons.mp h with rfl | h
        · have hne : sep ≠ c := fun heq => hc (beq_iff_eq.mpr heq.symm)
          exact List.not_mem_cons_of_ne_of_not_mem hne (ih List.mem_cons_self)
        · exact ih (List.mem_cons_of_mem _ h)

namespace TableId

/-- A text of three parts, which are not empty and hold no dot, with dots between them. -/
def IsAddress (s : String) : Prop :=
  ∃ project dataset table : String,
    (∀ part ∈ [project, dataset, table], part ≠ "" ∧ '.' ∉ part.toList) ∧
      s = project ++ "." ++ dataset ++ "." ++ table

/-- No part of an address holds a dot. -/
def Undotted (id : TableId) : Prop := ∀ part ∈ id.parts, '.' ∉ part.toList

theorem ofParts?_eq_some_iff {pieces : List (List Char)} {id : TableId} :
    ofParts? pieces = some id ↔ pieces = id.parts.map String.toList := by
  constructor
  · intro h
    unfold ofParts? at h
    split at h
    next p d t =>
      simp only [Option.bind_eq_bind, Option.bind_eq_some_iff, Name.ofText?_eq_some_iff,
        Option.pure_def, Option.some.injEq] at h
      obtain ⟨project, hp, dataset, hd, table, ht, rfl⟩ := h
      simp [parts, ← hp, ← hd, ← ht]
    next => cases h
  · rintro rfl
    simp [ofParts?, parts]

theorem toList_text (id : TableId) :
    id.text.toList = List.intercalate ['.'] (id.parts.map String.toList) := by
  rw [text, String.toList_intercalate]
  rfl

/-- **An address is read from its text** if its parts hold no dots, and from no other text. -/
theorem parse?_eq_some_iff {s : String} {id : TableId} :
    parse? s = some id ↔ s = id.text ∧ id.Undotted := by
  rw [parse?, ofParts?_eq_some_iff]
  constructor
  · intro h
    constructor
    · rw [← String.toList_inj, toList_text, ← h, List.intercalate_splitOn]
    · intro part hpart
      have hpiece : part.toList ∈ s.toList.splitOn '.' := h ▸ List.mem_map_of_mem hpart
      exact not_mem_of_mem_splitOn hpiece
  · rintro ⟨rfl, hundotted⟩
    rw [toList_text]
    exact List.splitOn_intercalate '.' (by simpa [Undotted] using hundotted)
      (by simp [parts])

theorem isAddress_iff_exists_text {s : String} :
    IsAddress s ↔ ∃ id : TableId, s = id.text ∧ id.Undotted := by
  constructor
  · rintro ⟨project, dataset, table, hparts, rfl⟩
    simp only [List.forall_mem_cons] at hparts
    obtain ⟨⟨hp, hpdot⟩, ⟨hd, hddot⟩, ⟨ht, htdot⟩, -⟩ := hparts
    refine ⟨⟨⟨project, hp⟩, ⟨dataset, hd⟩, ⟨table, ht⟩⟩, rfl, ?_⟩
    simp [Undotted, parts, hpdot, hddot, htdot]
  · rintro ⟨id, rfl, hundotted⟩
    refine ⟨id.project.text, id.dataset.text, id.table.text, fun part hpart => ?_, rfl⟩
    refine ⟨?_, hundotted part hpart⟩
    simp only [List.mem_cons, List.not_mem_nil, or_false] at hpart
    rcases hpart with rfl | rfl | rfl
    · exact id.project.nonempty
    · exact id.dataset.nonempty
    · exact id.table.nonempty

theorem exists_parse?_iff {s : String} : (∃ id, parse? s = some id) ↔ IsAddress s := by
  simp only [parse?_eq_some_iff, isAddress_iff_exists_text]

theorem parse?_eq_none_iff {s : String} : parse? s = none ↔ ¬ IsAddress s := by
  rw [← exists_parse?_iff, Option.eq_none_iff_forall_not_mem, not_exists]
  rfl

theorem exists_parse_iff {s : String} : (∃ id, parse s = .ok id) ↔ IsAddress s := by
  simp only [parse_eq_ok_iff, exists_parse?_iff]

/-- What is no address is told so, and nothing else is. -/
theorem parse_eq_error_iff {s : String} {p : Problem} :
    parse s = .error p ↔ ¬ IsAddress s ∧ p = .error .value (malformedMessage s) := by
  rw [← parse?_eq_none_iff]
  cases h : parse? s with
  | none =>
      rw [parse_of_malformed h]
      simp [eq_comm]
  | some id =>
      rw [parse_eq_ok_iff.mpr h]
      simp

/-- An address is read back from its text exactly if its parts hold no dots. -/
theorem parse_text_iff {id : TableId} : parse id.text = .ok id ↔ id.Undotted := by
  rw [parse_eq_ok_iff, parse?_eq_some_iff]
  exact and_iff_right rfl

end TableId

namespace Link

variable {table : String} {parameters : Entries String} {key : Name} {more : List String}

/-! ## The address of a table with a named key -/

theorem exists_ofParameters_iff :
    (∃ link, ofParameters table parameters (key.text :: more) = .ok link) ↔
      ∃ address, Entries.get? parameters addressKey = some address ∧
        TableId.IsAddress address := by
  simp only [ofParameters_eq_ok_iff, ← TableId.exists_parse?_iff]
  constructor
  · rintro ⟨link, -, address, ha, hi⟩
    exact ⟨address, ha, link.target, hi⟩
  · rintro ⟨address, ha, target, hi⟩
    exact ⟨⟨target, key⟩, rfl, address, ha, hi⟩

theorem of_ofParameters {link : Link}
    (h : ofParameters table parameters (key.text :: more) = .ok link) :
    link.partitionKey = key ∧
      ∃ address, Entries.get? parameters addressKey = some address ∧
        TableId.parse address = .ok link.target := by
  obtain ⟨hkey, address, ha, hi⟩ := ofParameters_eq_ok_iff.mp h
  refine ⟨?_, address, ha, TableId.parse_eq_ok_iff.mpr hi⟩
  exact Name.ext (Option.some.inj hkey).symm

/-- If the address is malformed, what is said of it is the cause of the failure; otherwise the
failure has no cause. -/
theorem failure_of_ofParameters {problem : Problem}
    (h : ofParameters table parameters (key.text :: more) = .error problem) :
    ∃ message cause, problem = .failure (.linkedTable table message) cause ∧
      ∀ p, cause = some p ↔
        ∃ address, Entries.get? parameters addressKey = some address ∧ address ≠ "" ∧
          TableId.parse address = .error p := by
  obtain hnone | ⟨address, ha, hne, ⟨p, hp⟩ | ⟨target, hp⟩⟩ := address_cases parameters
  · cases (ofParameters_of_unaddressed hnone).symm.trans h
    refine ⟨_, none, rfl, fun p => iff_of_false (Option.some_ne_none p).symm ?_⟩
    rintro ⟨address, ha, hne, -⟩
    exact hne (by simpa [ha] using hnone)
  · cases (ofParameters_of_malformed ha hne hp).symm.trans h
    refine ⟨_, some p, rfl, fun p' => ?_⟩
    simp [ha, hne, hp]
  · -- The key has a name, so that there is a link to an address that is read.
    obtain ⟨link, hlink⟩ : ∃ link, ofParameters table parameters (key.text :: more) = .ok link :=
      exists_ofParameters_iff.mpr ⟨address, ha, TableId.exists_parse_iff.mp ⟨target, hp⟩⟩
    cases hlink.symm.trans h

/-- **Addresses are read exactly and written back.** A text is read if and only if it consists
of three parts, not empty and without dots, with dots between them; the address that is read
has this text, and any other text is refused as malformed. An address is read back from its own
text if and only if its parts hold no dots. The link of a table whose first partition key has a
name is read if and only if its parameter holds such a text, and then consists of the address
that is read and this key. Otherwise a failure tells the table; what was said of the text is its
cause if there is a text that is not empty and is malformed, and it has no cause if not. -/
theorem addresses_read_exactly :
    (∀ s, ((∃ id, TableId.parse s = .ok id) ↔ TableId.IsAddress s) ∧
      (∀ id, TableId.parse s = .ok id → id.text = s) ∧
      ∀ p, TableId.parse s = .error p ↔
        ¬ TableId.IsAddress s ∧ p = .error .value (TableId.malformedMessage s)) ∧
    (∀ id, TableId.parse id.text = .ok id ↔ id.Undotted) ∧
    ∀ table parameters (key : Name) more,
      ((∃ link, ofParameters table parameters (key.text :: more) = .ok link) ↔
        ∃ address, Entries.get? parameters addressKey = some address ∧
          TableId.IsAddress address) ∧
      (∀ link, ofParameters table parameters (key.text :: more) = .ok link →
        link.partitionKey = key ∧
          ∃ address, Entries.get? parameters addressKey = some address ∧
            TableId.parse address = .ok link.target) ∧
      ∀ problem, ofParameters table parameters (key.text :: more) = .error problem →
        ∃ message cause, problem = .failure (.linkedTable table message) cause ∧
          ∀ p, cause = some p ↔
            ∃ address, Entries.get? parameters addressKey = some address ∧ address ≠ "" ∧
              ¬ TableId.IsAddress address ∧
              p = .error .value (TableId.malformedMessage address) := by
  refine ⟨fun s => ⟨TableId.exists_parse_iff, fun id h => ?_, fun p => TableId.parse_eq_error_iff⟩,
    fun id => TableId.parse_text_iff, fun table parameters key more =>
      ⟨exists_ofParameters_iff, fun link => of_ofParameters, fun problem h => ?_⟩⟩
  · exact (TableId.parse?_eq_some_iff.mp (TableId.parse_eq_ok_iff.mp h)).1.symm
  · obtain ⟨message, cause, rfl, hcause⟩ := failure_of_ofParameters h
    refine ⟨message, cause, rfl, fun p => ?_⟩
    simp only [hcause, TableId.parse_eq_error_iff]

/-- An address of a blank, a quoted and a foreign name is read back; a text with an empty part
is the cause of a failure, and an empty text is none. -/
theorem odd_addresses_read :
    let id : TableId := ⟨⟨" ", by decide⟩, ⟨"\x60d\x60", by decide⟩, ⟨"日本", by decide⟩⟩
    let linkFor (address : String) : Except Problem Link :=
      ofParameters "d.t" [(addressKey, address)] ["day", "region"]
    (id.Undotted ∧ TableId.parse " .\x60d\x60.日本" = .ok id ∧ id.text = " .\x60d\x60.日本") ∧
      (∃ link, linkFor " .\x60d\x60.日本" = .ok link ∧ link.target = id ∧
        link.partitionKey.text = "day") ∧
      (∃ message, linkFor "a..c" = .error (.failure (.linkedTable "d.t" message)
        (some (.error .value (TableId.malformedMessage "a..c"))))) ∧
      ∃ message, linkFor "" = .error (.failure (.linkedTable "d.t" message) none) := by
  intro id linkFor
  obtain ⟨htext, hid, hlink⟩ := addresses_read_exactly
  have hread : TableId.parse " .\x60d\x60.日本" = .ok id := rfl
  have hundotted : id.Undotted := (hid id).mp hread
  refine ⟨⟨hundotted, hread, (htext _).2.1 id hread⟩, ?_, ?_, ?_⟩
  · obtain ⟨hsome, hok, -⟩ := hlink "d.t" [(addressKey, id.text)] ⟨"day", by decide⟩ ["region"]
    obtain ⟨link, hl⟩ := hsome.mpr ⟨id.text, rfl, (htext _).1.mp ⟨id, hread⟩⟩
    obtain ⟨hkey, _, ⟨⟩, htarget⟩ := hok link hl
    exact ⟨link, hl, Except.ok.inj (htarget.symm.trans hread), congrArg Name.text hkey⟩
  · obtain ⟨-, -, herror⟩ := hlink "d.t" [(addressKey, "a..c")] ⟨"day", by decide⟩ ["region"]
    obtain ⟨message, cause, hproblem, hcause⟩ := herror _ rfl
    obtain ⟨hmalformed, -⟩ := ((htext "a..c").2.2 _).mp rfl
    obtain rfl := (hcause _).mpr ⟨"a..c", rfl, by decide, hmalformed, rfl⟩
    exact ⟨message, congrArg Except.error hproblem⟩
  · obtain ⟨-, -, herror⟩ := hlink "d.t" [(addressKey, "")] ⟨"day", by decide⟩ ["region"]
    obtain ⟨message, cause, hproblem, hcause⟩ := herror _ rfl
    have hnone : cause = none := by
      refine Option.eq_none_iff_forall_not_mem.mpr fun p hp => ?_
      obtain ⟨address, ha, hne, -⟩ := (hcause p).mp hp
      exact hne (Option.some.inj ha).symm
    subst hnone
    exact ⟨message, congrArg Except.error hproblem⟩

end Link

end LinkedTables
