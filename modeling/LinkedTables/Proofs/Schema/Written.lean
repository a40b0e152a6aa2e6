import LinkedTables.Proofs.Entries
import LinkedTables.Proofs.Json.Indented
import LinkedTables.Proofs.Schema.Accepted

set_option autoImplicit false

/-! # Documents that stand for data

A value stands for something definite if a reader gives just that for it, and if the value
itself comes back from its text (`Schema.StandsFor`). What holds of the parts of a list, a
dictionary or a record holds of the whole, so data is read back from the text of its document,
on one line or over several (`Schema.StandsFor.fromText_compact`, `fromText_indented`).
-/

namespace LinkedTables

namespace Value

/-! ## Values that come back from their text -/

/-- A value that is its own finite part and can be written, and in which lists and
dictionaries are nested no deeper than a given number. -/
structure Steady (n : Nat) (v : Value) : Prop where
  writable : v.Writable
  finitePart_eq : v.finitePart = v
  depth_le : v.depth ≤ n

namespace Steady

variable {n : Nat}

theorem null : Steady n .null := ⟨.null, rfl, Nat.zero_le n⟩

theorem bool (b : Bool) : Steady n (.bool b) := ⟨.bool b, rfl, Nat.zero_le n⟩

theorem text (s : String) : Steady n (.text s) := ⟨.text s, rfl, Nat.zero_le n⟩

theorem list {vs : List Value} (h : ∀ v ∈ vs, v.Steady n) : Steady (n + 1) (.list vs) := by
  refine ⟨.list fun v hv => (h v hv).writable, ?_, ?_⟩
  · rw [finitePart]
    congr 1
    induction vs with
    | nil => rfl
    | cons v vs ih =>
        rw [List.forall_mem_cons] at h
        rw [finiteItems, h.1.finitePart_eq, ih h.2]
  · rw [depth]
    induction vs with
    | nil => exact Nat.zero_le _
    | cons v vs ih =>
        rw [List.forall_mem_cons] at h
        rw [depthOfItems]
        exact max_le (Nat.succ_le_succ h.1.depth_le) (ih h.2)

theorem dict {es : Entries Value} (h : ∀ e ∈ es, e.2.Steady n) : Steady (n + 1) (.dict es) := by
  refine ⟨.dict fun e he => (h e he).writable, ?_, ?_⟩
  · rw [finitePart]
    congr 1
    induction es with
    | nil => rfl
    | cons e es ih =>
        obtain ⟨k, v⟩ := e
        rw [List.forall_mem_cons] at h
        rw [finiteMembers, h.1.finitePart_eq, ih h.2]
  · rw [depth]
    induction es with
    | nil => exact Nat.zero_le _
    | cons e es ih =>
        obtain ⟨k, v⟩ := e
        rw [List.forall_mem_cons] at h
        rw [depthOfEntries]
        exact max_le (Nat.succ_le_succ h.1.depth_le) (ih h.2)

theorem texts (es : Entries String) : Steady (n + 1) (ofTexts es) := by
  refine dict fun e he => ?_
  obtain ⟨e', -, rfl⟩ := List.mem_map.mp he
  exact text e'.2

end Steady

end Value

namespace Schema

variable {α β : Type} {n : Nat} {read : Value → Checked α}

/-- A value stands for something definite under a reader, and comes back from its text. -/
structure StandsFor (n : Nat) (read : Value → Checked α) (v : Value) (a : α) : Prop where
  read_eq : read v = .valid a
  steady : v.Steady n

/-! ## Parts -/

theorem standsFor_text (s : String) : StandsFor n text (.text s) s := ⟨rfl, .text s⟩

theorem standsFor_name (name : Name) : StandsFor n Schema.name (.text name.text) name :=
  ⟨name_eq_valid_iff.mpr rfl, .text name.text⟩

theorem standsFor_bool (b : Bool) : StandsFor n bool (.bool b) b := ⟨rfl, .bool b⟩

theorem standsFor_word {ofWord? : String → Option α} {w : String} {a : α}
    (h : ofWord? w = some a) : StandsFor n (word ofWord?) (.text w) a :=
  ⟨by rw [word, h], .text w⟩

theorem standsFor_ofText? (s : Option String) :
    StandsFor n (optional text) (.ofText? s) s := by
  cases s with
  | none => exact ⟨rfl, .null⟩
  | some s => exact ⟨rfl, .text s⟩

theorem memberTexts_map (es : Entries String) :
    memberTexts (es.map fun e => (e.1, .text e.2)) = .valid es := by
  induction es with
  | nil => rfl
  | cons e es ih =>
      rw [List.map_cons, memberTexts, ih]
      rfl

theorem standsFor_merged (es : Entries String) :
    StandsFor (n + 1) texts (.ofTexts es) es.merged := by
  refine ⟨?_, .texts es⟩
  rw [Value.ofTexts, texts, memberTexts_map]
  rfl

theorem standsFor_texts {es : Entries String} (h : (es.map (·.1)).Nodup) :
    StandsFor (n + 1) texts (.ofTexts es) es := by
  have hmerged := standsFor_merged (n := n) es
  rwa [Entries.merged_of_nodup h] at hmerged

/-- A part that may be absent. The reader of the part must not accept the absent value. -/
theorem standsFor_optional {toValue : α → Value} (hnull : ∀ a, read .null ≠ .valid a)
    {o : Option α} (h : ∀ a ∈ o, StandsFor n read (toValue a) a) :
    StandsFor n (optional read) ((o.map toValue).getD .null) o := by
  cases o with
  | none => exact ⟨rfl, .null⟩
  | some a =>
      obtain ⟨hread, hsteady⟩ := h a rfl
      refine ⟨?_, hsteady⟩
      rw [Option.map_some, Option.getD_some]
      have hne : toValue a ≠ .null := by
        intro heq
        rw [heq] at hread
        exact hnull a hread
      rw [optional.eq_2 read _ hne, hread]
      rfl

theorem itemsFrom_map {toValue : α → Value} {as : List α}
    (h : ∀ a ∈ as, read (toValue a) = .valid a) (i : Nat) :
    itemsFrom read i (as.map toValue) = .valid as := by
  induction as generalizing i with
  | nil => rfl
  | cons a as ih =>
      rw [List.forall_mem_cons] at h
      rw [List.map_cons, itemsFrom, h.1, ih h.2]
      rfl

theorem standsFor_list {toValue : α → Value} {as : List α}
    (h : ∀ a ∈ as, StandsFor n read (toValue a) a) :
    StandsFor (n + 1) (list read) (.list (as.map toValue)) as := by
  refine ⟨itemsFrom_map (fun a ha => (h a ha).read_eq) 0, .list fun v hv => ?_⟩
  obtain ⟨a, ha, rfl⟩ := List.mem_map.mp hv
  exact (h a ha).steady

/-! ## Records -/

section

variable {es : Entries Value} {key : String} {v : Value} {a : α}

theorem StandsFor.required (h : StandsFor n read v a) (he : Entries.get? es key = some v) :
    Schema.required es key read = .valid a :=
  required_eq_valid_iff.mpr ⟨v, he, h.read_eq⟩

theorem StandsFor.field (h : StandsFor n read v a) (he : Entries.get? es key = some v)
    (default : α) : Schema.field es key default read = .valid a :=
  field_eq_valid_iff.mpr (.inr ⟨v, he, h.read_eq⟩)

theorem standsFor_record {fields : List String} {readFields : Entries Value → Checked α}
    (hread : readFields es = .valid a) (hkeys : ∀ e ∈ es, e.1 ∈ fields)
    (hsteady : ∀ e ∈ es, e.2.Steady n) :
    StandsFor (n + 1) (record fields readFields) (.dict es) a :=
  ⟨closed_eq_valid_iff.mpr ⟨hread, hkeys⟩, .dict hsteady⟩

end

/-! ## Texts -/

/-- Reads something definite from the text of a document. -/
def fromText (read : Value → Checked α) (s : String) : Checked α :=
  match Json.parse? s with
  | some v => read v
  | none => .fault .notJson

namespace StandsFor

variable {v : Value} {a : α}

theorem fromText_compact (h : StandsFor n read v a) (hn : n ≤ Json.greatestDepth) :
    fromText read (Json.compact v) = .valid a := by
  rw [fromText, Json.parse?_compact h.steady.writable (h.steady.depth_le.trans hn),
    h.steady.finitePart_eq]
  exact h.read_eq

/-- What is written over several lines reads back also through a text file. -/
theorem fromText_unified (h : StandsFor n read v a) (hn : n ≤ Json.greatestDepth) :
    fromText read (String.ofList (Text.unifyLineEnds (Json.indented v).toList)) = .valid a := by
  rw [fromText, Json.parse?_indented h.steady.writable (h.steady.depth_le.trans hn),
    h.steady.finitePart_eq]
  exact h.read_eq

theorem fromText_indented (h : StandsFor n read v a) (hn : n ≤ Json.greatestDepth) :
    fromText read (Json.indented v) = .valid a := by
  have hunified := h.fromText_unified hn
  rwa [Json.unifyLineEnds_indented h.steady.writable, String.ofList_toList] at hunified

end StandsFor

end Schema

end LinkedTables
