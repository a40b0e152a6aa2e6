import LinkedTables.Proofs.Entries
import LinkedTables.Proofs.Filter.Documents
import LinkedTables.Proofs.Json.Writing

set_option autoImplicit false

/-! # Filters read back

A filter that was encoded decodes to itself, node by node, with null in the place of every
double without a finite value inside its constants: `decode_encode`. The filter may have
any operators and columns with a name and any constants that can be stored, as long as its
document is not too deep to be read.
-/

namespace LinkedTables

namespace Value

mutual

theorem merged_finitePart : ∀ v : Value, v.Storable → v.finitePart.merged = v.finitePart
  | null, _ | bool _, _ | int _, _ | text _, _ => rfl
  | float (.finite _ _), _ | float (.infinite _), _ | float .nan, _ => rfl
  | list vs, .list h => by rw [finitePart, merged, mergedItems_finite vs h]
  | dict es, .dict hk h => by
      rw [finitePart, merged, mergedMembers_finite es h, Entries.merged_of_nodup]
      rw [map_fst_finiteMembers]
      exact hk

theorem mergedItems_finite : ∀ vs : List Value, (∀ v ∈ vs, v.Storable) →
    mergedItems (finiteItems vs) = finiteItems vs
  | [], _ => rfl
  | v :: vs, h => by
      rw [finiteItems, mergedItems, merged_finitePart v (h v (by simp)),
        mergedItems_finite vs fun u hu => h u (List.mem_cons_of_mem v hu)]

theorem mergedMembers_finite : ∀ es : List (String × Value), (∀ e ∈ es, e.2.Storable) →
    mergedMembers (finiteMembers es) = finiteMembers es
  | [], _ => rfl
  | (k, v) :: es, h => by
      rw [finiteMembers, mergedMembers, merged_finitePart v (h (k, v) (by simp)),
        mergedMembers_finite es fun u hu => h u (List.mem_cons_of_mem (k, v) hu)]

end

end Value

namespace Filter

/-! ## Filters that can be stored -/

/-- Filters that can be read back: no operator and no column has an empty name, and the
values of the constants can be stored. -/
inductive Storable : Filter → Prop
  | call {operator : String} {operands : List Filter} (hne : operator ≠ "")
      (h : ∀ f ∈ operands, Storable f) : Storable (.call operator operands)
  | column {name : String} (hne : name ≠ "") : Storable (.column name)
  | constant (typeName : String) {v : Value} (h : v.Storable) :
      Storable (.constant typeName v)

mutual

/-- A filter with null in the place of every double in a constant that is not finite. -/
def finitePart : Filter → Filter
  | call operator operands => call operator (finiteOperands operands)
  | column name => column name
  | constant typeName v => constant typeName v.finitePart
  | foreign v => foreign v.finitePart

/-- `finitePart` for each operand of a call. -/
def finiteOperands : List Filter → List Filter
  | [] => []
  | f :: fs => finitePart f :: finiteOperands fs

end

mutual

theorem storable_toValue : ∀ f : Filter, f.Storable → f.toValue.Storable
  | .call _ operands, .call _ h => by
      have hk : ["kind", "operator", "children"].Nodup := by decide
      refine .dict hk fun e he => ?_
      simp only [List.mem_cons, List.not_mem_nil, or_false] at he
      rcases he with rfl | rfl | rfl
      · exact .text _
      · exact .text _
      · exact .list (storable_toValues operands h)
  | .column _, .column _ => by
      have hk : ["kind", "name"].Nodup := by decide
      refine .dict hk fun e he => ?_
      simp only [List.mem_cons, List.not_mem_nil, or_false] at he
      rcases he with rfl | rfl <;> exact .text _
  | .constant _ _, .constant _ h => by
      have hk : ["kind", "type_name", "value"].Nodup := by decide
      refine .dict hk fun e he => ?_
      simp only [List.mem_cons, List.not_mem_nil, or_false] at he
      rcases he with rfl | rfl | rfl
      · exact .text _
      · exact .text _
      · exact h

theorem storable_toValues : ∀ fs : List Filter, (∀ f ∈ fs, f.Storable) →
    ∀ v ∈ toValues fs, v.Storable
  | [], _ => by simp [toValues]
  | f :: fs, h => by
      have hf := storable_toValue f (h f (by simp))
      have hs := storable_toValues fs fun g hg => h g (List.mem_cons_of_mem f hg)
      rw [toValues]
      exact List.forall_mem_cons.mpr ⟨hf, hs⟩

end

/-! ## Encoded filters -/

mutual

/-- The document of a filter describes it. -/
theorem describes_toValue :
    ∀ f : Filter, f.Storable → Describes f.toValue.finitePart f.finitePart
  | .call _ operands, .call hne h => by
      have hs := describesAll_toValues operands h
      exact .call rfl rfl hne (.present rfl hs) (by simp [Value.finiteMembers])
  | .column _, .column hne => .column rfl rfl hne (by simp [Value.finiteMembers])
  | .constant _ v, .constant _ h => by
      have hv : ∀ es, Entries.get? es "value" = some v.finitePart →
          TellsValue es v.finitePart := by
        intro es he
        -- No key of the value is there twice, so that nothing is merged.
        have ht := TellsValue.present he
        rw [Value.merged_finitePart v h] at ht
        exact ht
      exact .constant rfl (.present rfl) (hv _ rfl) (by simp [Value.finiteMembers])

theorem describesAll_toValues : ∀ fs : List Filter, (∀ f ∈ fs, f.Storable) →
    DescribesAll (Value.finiteItems (toValues fs)) (finiteOperands fs)
  | [], _ => .nil
  | f :: fs, h =>
      .cons (describes_toValue f (h f (by simp)))
        (describesAll_toValues fs fun g hg => h g (List.mem_cons_of_mem f hg))

end

theorem document_encode {f : Filter} (hf : f.Storable) :
    Json.Document f.encode.toList f.toValue.finitePart := by
  have hs := Json.spells_compactChars f.toValue (storable_toValue f hf).writable
  have hd := Json.Document.mk Json.blanks_nil hs Json.blanks_nil
  rw [List.nil_append, List.append_nil] at hd
  rw [encode, Json.compact, String.toList_ofList]
  exact hd

/-- A filter that is its own finite part is read back as it is. -/
theorem decode_encode_of_finite {f : Filter} (hf : f.Storable) (hfinite : f.finitePart = f)
    (hd : f.toValue.depth ≤ Json.greatestDepth) : decode f.encode.toUTF8 = .ok f := by
  have hdescribes := describes_toValue f hf
  rw [hfinite] at hdescribes
  rw [(decode_eq _).1, readBytes_eq_valid_iff]
  refine ⟨_, Json.parseBytes?_eq_some_iff.mpr ⟨_, rfl, document_encode hf, ?_⟩, hdescribes⟩
  rw [Value.depth_finitePart]
  exact hd

/-- **An encoded filter decodes to itself**, with null in the place of the doubles in its
constants that have no finite value. -/
theorem decode_encode {f : Filter} (hf : f.Storable)
    (hd : f.toValue.depth ≤ Json.greatestDepth) :
    decode f.encode.toUTF8 = .ok f.finitePart := by
  rw [(decode_eq _).1, readBytes_eq_valid_iff]
  refine ⟨f.toValue.finitePart, Json.parseBytes?_eq_some_iff.mpr ?_, describes_toValue f hf⟩
  exact ⟨f.encode, rfl, document_encode hf, by rw [Value.depth_finitePart]; exact hd⟩

/-- Not-a-number inside a constant comes back as null, and beside it nothing changes: not
the order of the keys, nor an escaped text, nor the least double. -/
theorem nan_comes_back_as_null :
    let f (x : Value) := call "And" [column "d\"t", constant "struct" (.dict
      [("value", .list [x, .int (-7), .float (.finite true ⟨1, by decide⟩)]),
        ("kind", .text "\x01é\n")])]
    Storable (f (.float .nan)) ∧ (f (.float .nan)).toValue.depth ≤ Json.greatestDepth ∧
      decode (f (.float .nan)).encode.toUTF8 = .ok (f .null) := by
  intro f
  have hitems : (Value.list
      [.float .nan, .int (-7), .float (.finite true ⟨1, by decide⟩)]).Storable := by
    refine .list fun v hv => ?_
    simp only [List.mem_cons, List.not_mem_nil, or_false] at hv
    rcases hv with rfl | rfl | rfl
    · exact .float _
    · exact .int (by decide)
    · exact .float _
  have hf : Storable (f (.float .nan)) := by
    refine .call (by decide) fun g hg => ?_
    simp only [List.mem_cons, List.not_mem_nil, or_false] at hg
    rcases hg with rfl | rfl
    · exact .column (by decide)
    · have hk : ["value", "kind"].Nodup := by decide
      refine .constant _ (.dict hk fun e he => ?_)
      simp only [List.mem_cons, List.not_mem_nil, or_false] at he
      rcases he with rfl | rfl
      · exact hitems
      · exact .text _
  have hd : (f (.float .nan)).toValue.depth ≤ Json.greatestDepth := by decide
  exact ⟨hf, hd, decode_encode hf hd⟩

end Filter

end LinkedTables
