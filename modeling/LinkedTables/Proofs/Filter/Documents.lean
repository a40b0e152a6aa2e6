import LinkedTables.Filter.Json
import LinkedTables.Proofs.Json.Reading
import LinkedTables.Proofs.Schema.Accepted

set_option autoImplicit false

/-! # Documents that describe filters

Which documents describe a filter, and which filter each of them describes. Every node of
the filter is an object of one of three kinds, which has no members beside those of its
kind. A member that is there several times counts with its last value.

Decoding accepts the bytes of those documents and no others: `decode_eq_ok_iff`.
-/

namespace LinkedTables.Filter

/-! ## Descriptions -/

/-- The type that the object of a constant tells. -/
inductive TellsType (es : Entries Value) : String → Prop
  | absent (h : Entries.get? es "type_name" = none) : TellsType es defaultType
  | present {t : String} (h : Entries.get? es "type_name" = some (.text t)) : TellsType es t

/-- The value that the object of a constant tells. -/
inductive TellsValue (es : Entries Value) : Value → Prop
  | absent (h : Entries.get? es "value" = none) : TellsValue es .null
  | present {v : Value} (h : Entries.get? es "value" = some v) : TellsValue es v.merged

mutual

/-- A document describes a filter. -/
inductive Describes : Value → Filter → Prop
  | call {es : List (String × Value)} {operator : String} {operands : List Filter}
      (hk : Entries.get? es "kind" = some (.text "function"))
      (ho : Entries.get? es "operator" = some (.text operator)) (hne : operator ≠ "")
      (hc : TellsOperands es operands)
      (hes : ∀ e ∈ es, e.1 ∈ ["kind", "operator", "children"]) :
      Describes (.dict es) (.call operator operands)
  | column {es : List (String × Value)} {name : String}
      (hk : Entries.get? es "kind" = some (.text "column"))
      (hn : Entries.get? es "name" = some (.text name)) (hne : name ≠ "")
      (hes : ∀ e ∈ es, e.1 ∈ ["kind", "name"]) : Describes (.dict es) (.column name)
  | constant {es : List (String × Value)} {typeName : String} {v : Value}
      (hk : Entries.get? es "kind" = some (.text "constant"))
      (ht : TellsType es typeName) (hv : TellsValue es v)
      (hes : ∀ e ∈ es, e.1 ∈ ["kind", "type_name", "value"]) :
      Describes (.dict es) (.constant typeName v)

/-- The operands that the object of a call tells. -/
inductive TellsOperands : List (String × Value) → List Filter → Prop
  | absent {es : List (String × Value)} (h : Entries.get? es "children" = none) :
      TellsOperands es []
  | present {es : List (String × Value)} {vs : List Value} {fs : List Filter}
      (h : Entries.get? es "children" = some (.list vs)) (hs : DescribesAll vs fs) :
      TellsOperands es fs

/-- The documents of a list describe filters, one each. -/
inductive DescribesAll : List Value → List Filter → Prop
  | nil : DescribesAll [] []
  | cons {v : Value} {vs : List Value} {f : Filter} {fs : List Filter} (h : Describes v f)
      (hs : DescribesAll vs fs) : DescribesAll (v :: vs) (f :: fs)

end

/-! ## Reading one node -/

theorem NodeKind.ofWord?_eq_some_iff {s : String} {kind : NodeKind} :
    ofWord? s = some kind ↔ s = kind.word := by
  constructor
  · intro h
    have hs := List.find?_some h
    exact (beq_iff_eq.mp hs).symm
  · rintro rfl
    exact ofWord?_word kind

theorem readKind_eq_valid_iff {es : Entries Value} {kind : NodeKind} :
    readKind es = .valid kind ↔ Entries.get? es "kind" = some (.text kind.word) := by
  rw [readKind]
  cases Entries.get? es "kind" with
  | none => simp
  | some v =>
      cases v with
      | text s =>
          simp only [Option.some.injEq, Value.text.injEq, ← NodeKind.ofWord?_eq_some_iff]
          cases NodeKind.ofWord? s <;> simp
      | _ => simp

theorem readColumn_eq_valid_iff {es : Entries Value} {f : Filter} :
    readColumn es = .valid f ↔
      ∃ name, f = .column name ∧ Entries.get? es "name" = some (.text name) ∧ name ≠ "" ∧
        ∀ e ∈ es, e.1 ∈ ["kind", "name"] := by
  simp only [readColumn, Schema.closed_eq_valid_iff, Checked.map_eq_valid_iff,
    Schema.required_eq_valid_iff, Schema.name_eq_valid_iff]
  constructor
  · rintro ⟨⟨n, ⟨_, hn, rfl⟩, rfl⟩, hes⟩
    exact ⟨n.text, rfl, hn, n.nonempty, hes⟩
  · rintro ⟨name, rfl, hn, hne, hes⟩
    exact ⟨⟨⟨name, hne⟩, ⟨_, hn, rfl⟩, rfl⟩, hes⟩

theorem readType_eq_valid_iff {es : Entries Value} {t : String} :
    Schema.field es "type_name" defaultType Schema.text = .valid t ↔ TellsType es t := by
  simp only [Schema.field_eq_valid_iff, Schema.text_eq_valid_iff]
  constructor
  · rintro (⟨h, rfl⟩ | ⟨_, h, rfl⟩)
    · exact .absent h
    · exact .present h
  · rintro (h | h)
    · exact Or.inl ⟨h, rfl⟩
    · exact Or.inr ⟨_, h, rfl⟩

theorem readValue_eq_valid_iff {es : Entries Value} {v : Value} :
    Schema.field es "value" Value.null (fun v => .valid v.merged) = .valid v ↔
      TellsValue es v := by
  simp only [Schema.field_eq_valid_iff, Checked.valid.injEq]
  constructor
  · rintro (⟨h, rfl⟩ | ⟨_, h, rfl⟩)
    · exact .absent h
    · exact .present h
  · rintro (h | h)
    · exact Or.inl ⟨h, rfl⟩
    · exact Or.inr ⟨_, h, rfl⟩

theorem readConstant_eq_valid_iff {es : Entries Value} {f : Filter} :
    readConstant es = .valid f ↔
      ∃ typeName v, f = .constant typeName v ∧ TellsType es typeName ∧ TellsValue es v ∧
        ∀ e ∈ es, e.1 ∈ ["kind", "type_name", "value"] := by
  simp only [readConstant, Schema.closed_eq_valid_iff, Checked.seq_eq_valid_iff,
    Checked.map_eq_valid_iff, readType_eq_valid_iff, readValue_eq_valid_iff]
  constructor
  · rintro ⟨⟨_, v, ⟨t, ht, rfl⟩, hv, rfl⟩, hes⟩
    exact ⟨t, v, rfl, ht, hv, hes⟩
  · rintro ⟨t, v, rfl, ht, hv, hes⟩
    exact ⟨⟨_, v, ⟨t, ht, rfl⟩, hv, rfl⟩, hes⟩

theorem readCall_eq_valid_iff {operands : Option (Checked (List Filter))} {es : Entries Value}
    {f : Filter} :
    readCall operands es = .valid f ↔
      ∃ operator fs, f = .call operator fs ∧
        Entries.get? es "operator" = some (.text operator) ∧ operator ≠ "" ∧
        operands.getD (.valid []) = .valid fs ∧
        ∀ e ∈ es, e.1 ∈ ["kind", "operator", "children"] := by
  simp only [readCall, Schema.closed_eq_valid_iff, Checked.seq_eq_valid_iff,
    Checked.map_eq_valid_iff, Schema.required_eq_valid_iff, Schema.name_eq_valid_iff,
    Checked.under_eq_valid_iff]
  constructor
  · rintro ⟨⟨_, fs, ⟨n, ⟨_, hn, rfl⟩, rfl⟩, hfs, rfl⟩, hes⟩
    exact ⟨n.text, fs, rfl, hn, n.nonempty, hfs, hes⟩
  · rintro ⟨operator, fs, rfl, ho, hne, hfs, hes⟩
    exact ⟨⟨_, fs, ⟨⟨operator, hne⟩, ⟨_, ho, rfl⟩, rfl⟩, hfs, rfl⟩, hes⟩

/-- The children are read from the last member of that name. -/
theorem readChildren_eq (es : Entries Value) :
    readChildren es = (Entries.get? es "children").map readOperands := by
  induction es with
  | nil => rfl
  | cons e es ih =>
      obtain ⟨k, v⟩ := e
      rw [readChildren, ih, Entries.get?_cons]
      -- A later member of the name counts, and this one only if there is none.
      cases Entries.get? es "children" with
      | none =>
          by_cases hk : k = "children"
          · simp [hk]
          · simp [hk, Ne.symm hk]
      | some u => simp

/-! ## Reading filters -/

/-- What the members of an object are read as, given the kind of the node. -/
def readMembers (es : Entries Value) : NodeKind → Checked Filter
  | .function => readCall (readChildren es) es
  | .column => readColumn es
  | .constant => readConstant es

theorem read_eq_valid_iff {v : Value} {f : Filter} :
    read v = .valid f ↔ ∃ es kind, v = .dict es ∧
      Entries.get? es "kind" = some (.text (NodeKind.word kind)) ∧
      readMembers es kind = .valid f := by
  cases v with
  | dict es =>
      simp only [read, Value.dict.injEq, exists_and_left, exists_eq_left',
        ← readKind_eq_valid_iff]
      cases readKind es with
      | valid kind => cases kind <;> simp [readMembers]
      | refused faults => simp
  | _ => simp [read]

mutual

theorem Describes.read_eq {v : Value} {f : Filter} : Describes v f → read v = .valid f
  | .call hk ho hne hc hes =>
      read_eq_valid_iff.mpr ⟨_, .function, rfl, hk,
        readCall_eq_valid_iff.mpr ⟨_, _, rfl, ho, hne, hc.readChildren_eq, hes⟩⟩
  | .column hk hn hne hes =>
      read_eq_valid_iff.mpr ⟨_, .column, rfl, hk,
        readColumn_eq_valid_iff.mpr ⟨_, rfl, hn, hne, hes⟩⟩
  | .constant hk ht hv hes =>
      read_eq_valid_iff.mpr ⟨_, .constant, rfl, hk,
        readConstant_eq_valid_iff.mpr ⟨_, _, rfl, ht, hv, hes⟩⟩

theorem TellsOperands.readChildren_eq {es : List (String × Value)} {fs : List Filter} :
    TellsOperands es fs → (readChildren es).getD (.valid []) = .valid fs
  | .absent h => by rw [Filter.readChildren_eq, h]; rfl
  | .present h hs => by
      rw [Filter.readChildren_eq, h]
      exact hs.readNodes_eq 0

theorem DescribesAll.readNodes_eq {vs : List Value} {fs : List Filter} :
    DescribesAll vs fs → ∀ i, readNodes i vs = .valid fs
  | .nil, _ => rfl
  | .cons h hs, i => by
      rw [readNodes, h.read_eq, hs.readNodes_eq (i + 1)]
      rfl

end

theorem describes_of_readMembers {es : Entries Value} {kind : NodeKind} {f : Filter}
    (hk : Entries.get? es "kind" = some (.text kind.word)) (h : readMembers es kind = .valid f)
    (ih : ∀ operator fs, f = .call operator fs →
      ∀ i vs, readNodes i vs = .valid fs → DescribesAll vs fs) : Describes (.dict es) f := by
  cases kind with
  | function =>
      obtain ⟨operator, fs, rfl, ho, hne, hfs, hes⟩ := readCall_eq_valid_iff.mp h
      refine .call hk ho hne ?_ hes
      rw [readChildren_eq] at hfs
      cases hc : Entries.get? es "children" with
      | none =>
          obtain rfl : [] = fs := by simpa [hc] using hfs
          exact .absent hc
      | some v =>
          cases v with
          | list vs =>
              refine .present hc (ih operator fs rfl 0 vs ?_)
              simpa [hc, readOperands] using hfs
          | _ => simp [hc, readOperands] at hfs
  | column =>
      obtain ⟨_, rfl, hn, hne, hes⟩ := readColumn_eq_valid_iff.mp h
      exact .column hk hn hne hes
  | constant =>
      obtain ⟨_, _, rfl, ht, hv, hes⟩ := readConstant_eq_valid_iff.mp h
      exact .constant hk ht hv hes

mutual

theorem describes_of_read : ∀ (f : Filter) {v : Value}, read v = .valid f → Describes v f
  | .call operator fs, v, h => by
      obtain ⟨es, kind, rfl, hk, h⟩ := read_eq_valid_iff.mp h
      refine describes_of_readMembers hk h ?_
      rintro _ _ ⟨⟩
      exact describesAll_of_readNodes fs
  | .column _, v, h | .constant _ _, v, h | .foreign _, v, h => by
      obtain ⟨es, kind, rfl, hk, h⟩ := read_eq_valid_iff.mp h
      exact describes_of_readMembers hk h (by rintro _ _ ⟨⟩)

theorem describesAll_of_readNodes : ∀ (fs : List Filter) (i : Nat) (vs : List Value),
    readNodes i vs = .valid fs → DescribesAll vs fs
  | [], _, [], _ => .nil
  | _ :: _, _, [], h => by cases h
  | [], i, v :: vs, h => by
      simp [readNodes, Checked.seq_eq_valid_iff, Checked.map_eq_valid_iff] at h
  | f :: fs, i, v :: vs, h => by
      simp only [readNodes, Checked.seq_eq_valid_iff, Checked.map_eq_valid_iff,
        Checked.under_eq_valid_iff] at h
      obtain ⟨_, fs', ⟨f', hf, rfl⟩, hfs, hc⟩ := h
      obtain ⟨rfl, rfl⟩ := List.cons.inj hc
      exact .cons (describes_of_read f' hf) (describesAll_of_readNodes fs' (i + 1) vs hfs)

end

/-- Reading a document gives the filter that it describes. -/
theorem read_eq_valid_iff_describes {v : Value} {f : Filter} :
    read v = .valid f ↔ Describes v f :=
  ⟨describes_of_read f, Describes.read_eq⟩

/-! ## Decoding -/

theorem readBytes_eq_valid_iff {bytes : ByteArray} {f : Filter} :
    readBytes bytes = .valid f ↔ ∃ v, Json.parseBytes? bytes = some v ∧ Describes v f := by
  rw [readBytes]
  cases Json.parseBytes? bytes with
  | none => simp
  | some v => simp [read_eq_valid_iff_describes]

/-- The outcome of decoding: the filter that was read, or the one failure for filters, which
its faults have caused. -/
theorem decode_eq (bytes : ByteArray) :
    (∀ f, decode bytes = .ok f ↔ readBytes bytes = .valid f) ∧
      ((∃ f, decode bytes = .ok f) ∨ ∃ faults, decode bytes =
        .error (.failure (.filterBytes (some (Problem.refused faults).text))
          (some (.refused faults)))) := by
  rw [decode]
  cases readBytes bytes with
  | valid f => exact ⟨by simp, Or.inl ⟨f, rfl⟩⟩
  | refused faults => exact ⟨by simp, Or.inr ⟨faults, rfl⟩⟩

/-- **Decoding accepts the documents that describe filters**, and gives the filter that is
described. All other bytes have one kind of failure. -/
theorem decode_eq_ok_iff (bytes : ByteArray) :
    (∀ f, decode bytes = .ok f ↔ ∃ (s : String) (v : Value), bytes = s.toUTF8 ∧
        Json.Document s.toList v ∧ v.depth ≤ Json.greatestDepth ∧ Describes v f) ∧
      ((∃ f, decode bytes = .ok f) ∨ ∃ faults, decode bytes =
        .error (.failure (.filterBytes (some (Problem.refused faults).text))
          (some (.refused faults)))) := by
  obtain ⟨hok, hfail⟩ := decode_eq bytes
  refine ⟨fun f => ?_, hfail⟩
  rw [hok, readBytes_eq_valid_iff]
  simp only [Json.parseBytes?_eq_some_iff]
  constructor
  · rintro ⟨v, ⟨s, hs, hd, hv⟩, hf⟩
    exact ⟨s, v, hs, hd, hv, hf⟩
  · rintro ⟨s, v, hs, hd, hv, hf⟩
    exact ⟨v, ⟨s, hs, hd, hv⟩, hf⟩

end LinkedTables.Filter
