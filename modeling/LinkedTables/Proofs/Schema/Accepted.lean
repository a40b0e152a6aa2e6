import LinkedTables.Schema.Reader

set_option autoImplicit false

/-! # What readers accept

A reader of data accepts a value if all of its parts do. The statements here say so for the
ways in which readers are put together: a result of several checks is valid if each check
is, a required member has to be there, a field may be left out, and a record has no members
beside its fields.
-/

namespace LinkedTables

namespace Checked

variable {α β : Type}

theorem map_eq_valid_iff {f : α → β} {r : Checked α} {b : β} :
    f <$> r = valid b ↔ ∃ a, r = valid a ∧ f a = b := by
  cases r <;> simp [Functor.map, apply]

theorem seq_eq_valid_iff {f : Checked (α → β)} {r : Checked α} {b : β} :
    f <*> r = valid b ↔ ∃ g a, f = valid g ∧ r = valid a ∧ g a = b := by
  cases f <;> cases r <;> simp [Seq.seq, apply]

@[simp] theorem under_eq_valid_iff {step : Step} {r : Checked α} {a : α} :
    r.under step = valid a ↔ r = valid a := by
  cases r <;> simp [under]

@[simp] theorem fault_ne_valid {kind : FaultKind} {a : α} : fault kind ≠ valid a := by
  simp [fault]

end Checked

namespace Schema

variable {α : Type} {es : Entries Value} {key : String} {read : Value → Checked α}

theorem text_eq_valid_iff {v : Value} {s : String} : text v = .valid s ↔ v = .text s := by
  cases v <;> simp [text]

theorem name_eq_valid_iff {v : Value} {n : Name} : name v = .valid n ↔ v = .text n.text := by
  cases v with
  | text s =>
      by_cases h : s = ""
      · subst h
        simp [name, Name.ofText?, n.nonempty.symm]
      · simp [name, Name.ofText?, h, Name.ext_iff]
  | _ => simp [name]

theorem required_eq_valid_iff {a : α} :
    required es key read = .valid a ↔ ∃ v, Entries.get? es key = some v ∧ read v = .valid a := by
  rw [required]
  cases Entries.get? es key <;> simp

theorem field_eq_valid_iff {default a : α} :
    field es key default read = .valid a ↔
      (Entries.get? es key = none ∧ a = default) ∨
        ∃ v, Entries.get? es key = some v ∧ read v = .valid a := by
  rw [field]
  cases Entries.get? es key with
  | none => simp [eq_comm]
  | some v => simp

theorem otherKeys_eq_nil_iff {fields : List String} :
    otherKeys es fields = [] ↔ ∀ e ∈ es, e.1 ∈ fields := by
  simp [otherKeys, List.eq_nil_iff_forall_not_mem]

theorem noOthers_eq_valid_iff {fields : List String} {u : Unit} :
    noOthers es fields = .valid u ↔ ∀ e ∈ es, e.1 ∈ fields := by
  rw [noOthers, ← otherKeys_eq_nil_iff]
  cases otherKeys es fields <;> simp

theorem closed_eq_valid_iff {fields : List String} {read : Entries Value → Checked α} {a : α} :
    closed fields read es = .valid a ↔ read es = .valid a ∧ ∀ e ∈ es, e.1 ∈ fields := by
  simp only [closed, Checked.seq_eq_valid_iff, Checked.map_eq_valid_iff, noOthers_eq_valid_iff]
  constructor
  · rintro ⟨_, _, ⟨b, hb, rfl⟩, hk, rfl⟩
    exact ⟨hb, hk⟩
  · rintro ⟨hb, hk⟩
    exact ⟨_, (), ⟨a, hb, rfl⟩, hk, rfl⟩

end Schema

end LinkedTables
