import LinkedTables.Catalog.Link

set_option autoImplicit false

/-! # What links are read off

A table can be linked when it has a first partition key that is not empty and an address
that names a table of the warehouse; its link consists of these two.
-/

namespace LinkedTables

theorem Name.ofText?_eq_some_iff {s : String} {n : Name} : ofText? s = some n ↔ s = n.text := by
  constructor
  · intro h
    by_cases hs : s = ""
    · rw [(ofText?_eq_none_iff s).mpr hs] at h
      cases h
    · rw [ofText?, dif_pos hs] at h
      cases h
      rfl
  · rintro rfl
    exact ofText?_text n

theorem TableId.parse_eq_ok_iff {s : String} {id : TableId} :
    parse s = .ok id ↔ parse? s = some id := by
  unfold parse
  cases parse? s <;> simp

theorem TableId.parse_of_malformed {s : String} (h : parse? s = none) :
    parse s = .error (.error .value (malformedMessage s)) := by
  rw [parse, h]

theorem TableId.ne_empty_of_parse? {s : String} {id : TableId} (h : parse? s = some id) :
    s ≠ "" := by
  rintro rfl
  cases h

namespace Link

/-- There is no address, or it is malformed, or it is read. -/
theorem address_cases (parameters : Entries String) :
    (Entries.get? parameters addressKey).getD "" = "" ∨
      ∃ address, Entries.get? parameters addressKey = some address ∧ address ≠ "" ∧
        ((∃ p, TableId.parse address = .error p) ∨
          ∃ target, TableId.parse address = .ok target) := by
  cases ha : Entries.get? parameters addressKey with
  | none => exact .inl rfl
  | some address =>
      by_cases hne : address = ""
      · exact .inl hne
      · refine .inr ⟨address, rfl, hne, ?_⟩
        cases TableId.parse address with
        | error p => exact .inl ⟨p, rfl⟩
        | ok target => exact .inr ⟨target, rfl⟩

/-- Without an address there is nothing that could have caused the failure. -/
theorem ofParameters_of_unaddressed {table key : String} {parameters : Entries String}
    {keys : List String} (h : (Entries.get? parameters addressKey).getD "" = "") :
    ofParameters table parameters (key :: keys) =
      .error (defect table ("Linked table is missing the '" ++ addressKey ++ "' parameter")) := by
  simp [ofParameters, h]

/-- The failure for a malformed address says what is said of its text, and has this for its
cause. -/
theorem ofParameters_of_malformed {table key address : String} {parameters : Entries String}
    {keys : List String} {p : Problem}
    (ha : Entries.get? parameters addressKey = some address) (hne : address ≠ "")
    (hp : TableId.parse address = .error p) :
    ofParameters table parameters (key :: keys) =
      .error (.failure (.linkedTable table p.text) (some p)) := by
  simp [ofParameters, ha, hne, hp]

theorem ofParameters_eq_ok_iff {table : String} {parameters : Entries String}
    {keys : List String} {link : Link} :
    ofParameters table parameters keys = .ok link ↔
      keys.head? = some link.partitionKey.text ∧
        ∃ address, Entries.get? parameters addressKey = some address ∧
          TableId.parse? address = some link.target := by
  cases keys with
  | nil => simp [ofParameters]
  | cons key keys =>
      cases ha : Entries.get? parameters addressKey with
      | none => simp [ofParameters, ha]
      | some address =>
          cases hi : TableId.parse? address with
          | none =>
              have herror := TableId.parse_of_malformed hi
              have hrefused : ofParameters table parameters (key :: keys) ≠ .ok link := by
                by_cases he : address = "" <;> simp [ofParameters, ha, herror, he]
              simp [hrefused, hi]
          | some target =>
              have hne := TableId.ne_empty_of_parse? hi
              have hok := TableId.parse_eq_ok_iff.mpr hi
              cases hk : Name.ofText? key with
              | none =>
                  obtain rfl := (Name.ofText?_eq_none_iff key).mp hk
                  simp [ofParameters, ha, hne, hok, hk, Ne.symm link.partitionKey.nonempty]
              | some partitionKey =>
                  obtain rfl := Name.ofText?_eq_some_iff.mp hk
                  obtain ⟨target', key'⟩ := link
                  simp [ofParameters, ha, hne, hok, hi, and_comm, Name.ext_iff]

end Link

end LinkedTables
