import LinkedTables.Proofs.Filter.Carried

set_option autoImplicit false

/-! # The shape of a filter that is carried over

A place in a filter is given by the operands that lead to it from the top: `part?`. A filter
that is carried over has its nodes at the same places as before. Where there was a call there
is a call of the same operator with as many operands, where there was a column there is the
column of ids, and where there was a text there is this text without its dashes, of the same
type: `ReplacedBy`.

This says all there is to say of the result (`toPartitionId_eq_ok_iff`). What replaces a node
also replaces itself, and so a filter that was carried over stays as it is when it is carried
over again (`carried_in_place`).
-/

namespace LinkedTables.Filter

/-! ## Places -/

/-- The part of a filter at a place. -/
def part? : Filter → List Nat → Option Filter
  | f, [] => some f
  | call _ operands, i :: place => operands[i]?.bind fun f => part? f place
  | _, _ :: _ => none

example : part? (call "not" [call "=" [column "dt", column "day"]]) [0, 1] =
    some (column "day") := rfl

theorem part?_call {operator : String} {operands : List Filter} {i : Nat}
    (h : i < operands.length) (place : List Nat) :
    part? (call operator operands) (i :: place) = part? operands[i] place := by
  rw [part?, List.getElem?_eq_getElem h, Option.bind_some]

theorem part?_call_of_le {operator : String} {operands : List Filter} {i : Nat}
    (h : operands.length ≤ i) (place : List Nat) :
    part? (call operator operands) (i :: place) = none := by
  rw [part?, List.getElem?_eq_none h, Option.bind_none]

/-! ## Nodes -/

/-- A text from which the dashes are taken out, with all else kept in order. -/
inductive DashesOut : List Char → List Char → Prop
  | nil : DashesOut [] []
  | dash {cs ds : List Char} (h : DashesOut cs ds) : DashesOut ('-' :: cs) ds
  | keep {c : Char} {cs ds : List Char} (hc : c ≠ '-') (h : DashesOut cs ds) :
      DashesOut (c :: cs) (c :: ds)

/-- A node of a filter, apart from what its operands are, and what is in its place once the
filter is carried over. -/
inductive ReplacedBy : Filter → Filter → Prop
  | call (operator : String) {operands operands' : List Filter}
      (h : operands.length = operands'.length) :
      ReplacedBy (.call operator operands) (.call operator operands')
  | column (name : String) : ReplacedBy (.column name) (.column partitionIdColumn)
  | constant (typeName : String) {s s' : String} (h : DashesOut s.toList s'.toList) :
      ReplacedBy (.constant typeName (.text s)) (.constant typeName (.text s'))

/-- At every place either both filters have a node, the first one's replaced by the second
one's, or neither has. -/
def KeepsShape (f g : Filter) : Prop :=
  ∀ place, Option.Rel ReplacedBy (f.part? place) (g.part? place)

theorem dashesOut_iff {cs ds : List Char} : DashesOut cs ds ↔ ds = cs.filter (· != '-') := by
  constructor
  · intro h
    induction h with
    | nil => rfl
    | dash _ ih => simpa using ih
    | keep hc _ ih => simpa [hc] using ih
  · rintro rfl
    induction cs with
    | nil => exact .nil
    | cons c cs ih =>
        by_cases hc : c = '-'
        · subst hc
          simpa using ih.dash
        · simpa [hc] using ih.keep hc

theorem dashesOut_toList_iff {s s' : String} :
    DashesOut s.toList s'.toList ↔ s' = withoutDashes s := by
  rw [dashesOut_iff, ← toList_withoutDashes, String.toList_inj]

/-- The column of ids is what columns are replaced by. -/
theorem toPartitionId_column_iff {name : String} {g : Filter} :
    toPartitionId (column name) = .ok g ↔ ReplacedBy (column name) g := by
  rw [toPartitionId, Except.ok.injEq]
  constructor
  · rintro rfl
    exact .column name
  · rintro ⟨⟩
    rfl

/-- Texts are replaced and other constants are not. -/
theorem toPartitionId_constant_iff {typeName : String} {v : Value} {g : Filter} :
    toPartitionId (constant typeName v) = .ok g ↔ ReplacedBy (constant typeName v) g := by
  cases v with
  | text s =>
      rw [toPartitionId, Except.ok.injEq]
      constructor
      · rintro rfl
        exact .constant typeName (dashesOut_toList_iff.mpr rfl)
      · rintro (_ | _ | ⟨_, h⟩)
        rw [dashesOut_toList_iff.mp h]
  | _ => constructor <;> rintro ⟨⟩

/-- What replaces a node replaces itself: the column of ids and a text without dashes are not
changed any more. -/
theorem ReplacedBy.again {f g : Filter} (h : ReplacedBy f g) : ReplacedBy g g := by
  cases h with
  | call operator h => exact .call operator rfl
  | column name => exact .column partitionIdColumn
  | constant typeName h =>
      refine .constant typeName (dashesOut_iff.mpr ?_)
      rw [dashesOut_iff.mp h, List.filter_filter]
      simp

/-! ## Shapes -/

/-- The shape of a call is kept if the shapes of its operands are. -/
theorem keepsShape_call_iff {operator : String} {fs : List Filter} {g : Filter} :
    KeepsShape (call operator fs) g ↔
      ∃ gs, List.Forall₂ KeepsShape fs gs ∧ g = call operator gs := by
  constructor
  · intro h
    obtain ⟨⟨_, hlen⟩⟩ := h []
    next gs =>
      refine ⟨gs, List.forall₂_iff_get.mpr ⟨hlen, fun i hi hi' place => ?_⟩, rfl⟩
      -- A place in an operand is a place in the call that starts with the operand.
      have hpart := h (i :: place)
      rwa [part?_call hi, part?_call hi'] at hpart
  · rintro ⟨gs, h, rfl⟩ place
    obtain ⟨hlen, hget⟩ := List.forall₂_iff_get.mp h
    cases place with
    | nil => exact .some (.call operator hlen)
    | cons i place =>
        by_cases hi : i < fs.length
        · have hi' : i < gs.length := hlen ▸ hi
          rw [part?_call hi, part?_call hi']
          exact hget i hi hi' place
        · have hi' : ¬ i < gs.length := hlen ▸ hi
          rw [part?_call_of_le (Nat.le_of_not_lt hi), part?_call_of_le (Nat.le_of_not_lt hi')]
          exact .none

/-- The shape of a leaf is kept if its one node is replaced. -/
theorem keepsShape_iff_of_leaf {f g : Filter} (hf : ∀ operator fs, f ≠ call operator fs) :
    KeepsShape f g ↔ ReplacedBy f g := by
  constructor
  · intro h
    obtain ⟨htop⟩ := h []
    exact htop
  · intro h place
    cases place with
    | nil => exact .some h
    | cons i place =>
        cases h with
        | call operator _ => exact absurd rfl (hf operator _)
        | column | constant => exact .none

mutual

/-- **Carrying over keeps the shape, and nothing else does.** -/
theorem toPartitionId_eq_ok_iff :
    ∀ (f : Filter) {g : Filter}, toPartitionId f = .ok g ↔ KeepsShape f g
  | .call operator fs, g => by
      rw [toPartitionId_call_eq_ok_iff, keepsShape_call_iff]
      simp only [toPartitionIds_eq_ok_iff_forall₂ fs]
  | .column name, g => by
      rw [keepsShape_iff_of_leaf (by rintro _ _ ⟨⟩), toPartitionId_column_iff]
  | .constant typeName v, g => by
      rw [keepsShape_iff_of_leaf (by rintro _ _ ⟨⟩), toPartitionId_constant_iff]
  | .foreign v, g => by
      rw [keepsShape_iff_of_leaf (by rintro _ _ ⟨⟩)]
      constructor <;> rintro ⟨⟩

theorem toPartitionIds_eq_ok_iff_forall₂ :
    ∀ (fs : List Filter) {gs : List Filter},
      toPartitionIds fs = .ok gs ↔ List.Forall₂ KeepsShape fs gs
  | [], gs => by
      rw [toPartitionIds_eq_ok_iff, List.forall₂_nil_left_iff, List.forall₂_nil_left_iff]
  | f :: fs, gs => by
      rw [toPartitionIds_eq_ok_iff, List.forall₂_cons_left_iff, List.forall₂_cons_left_iff]
      simp only [toPartitionId_eq_ok_iff f, ← toPartitionIds_eq_ok_iff_forall₂ fs,
        toPartitionIds_eq_ok_iff]

end

theorem KeepsShape.again {f g : Filter} (h : KeepsShape f g) : KeepsShape g g := by
  intro place
  have hplace := h place
  generalize f.part? place = node at hplace
  generalize g.part? place = node' at hplace ⊢
  cases hplace with
  | none => exact .none
  | some hnode => exact .some hnode.again

/-! ## Filters over texts -/

/-- Filters in which all constants are texts and nothing is foreign. -/
inductive OverTexts : Filter → Prop
  | column (name : String) : OverTexts (.column name)
  | constant (typeName s : String) : OverTexts (.constant typeName (.text s))
  | call (operator : String) {operands : List Filter} (h : ∀ f ∈ operands, OverTexts f) :
      OverTexts (.call operator operands)

theorem OverTexts.exists_toPartitionId {f : Filter} (h : OverTexts f) :
    ∃ g, toPartitionId f = .ok g := by
  induction h with
  | column | constant => exact ⟨_, rfl⟩
  | call operator _ ih => exact exists_toPartitionId_call ih

/-- **A filter over texts is carried over in place.** It can be carried over, at every place
the node there is replaced, there is no other filter of which this is true, and carrying the
result over again gives the same filter once more. -/
theorem carried_in_place {f : Filter} (h : OverTexts f) :
    ∃ g, toPartitionId f = .ok g ∧
      (∀ place, Option.Rel ReplacedBy (f.part? place) (g.part? place)) ∧
      (∀ g', (∀ place, Option.Rel ReplacedBy (f.part? place) (g'.part? place)) → g' = g) ∧
      toPartitionId g = .ok g := by
  obtain ⟨g, hg⟩ := h.exists_toPartitionId
  have hshape : KeepsShape f g := (toPartitionId_eq_ok_iff f).mp hg
  refine ⟨g, hg, hshape, fun g' hshape' => ?_, (toPartitionId_eq_ok_iff g).mpr hshape.again⟩
  have hg' : toPartitionId f = .ok g' := (toPartitionId_eq_ok_iff f).mpr hshape'
  exact Except.ok.inj (hg'.symm.trans hg)

/-- A call without operands and an operator in capitals stay, and so do all characters of a
text but its dashes. -/
theorem nested_carried_in_place :
    let f := call "AND" [call "=" [column "dt", constant "date" (.text "2023-06-15")],
      call "in" [constant "char" (.text "--a b-"), call "now" []]]
    let g := call "AND" [call "=" [column "partition_id", constant "date" (.text "20230615")],
      call "in" [constant "char" (.text "a b"), call "now" []]]
    OverTexts f ∧ toPartitionId f = .ok g ∧
      Option.Rel ReplacedBy (f.part? [1, 0]) (some (constant "char" (.text "a b"))) ∧
      toPartitionId g = .ok g := by
  intro f g
  have hf : OverTexts f := by
    refine .call _ (List.forall_mem_cons.mpr ⟨?_, List.forall_mem_singleton.mpr ?_⟩)
    · exact .call _ (List.forall_mem_cons.mpr
        ⟨.column _, List.forall_mem_singleton.mpr (.constant _ _)⟩)
    · exact .call _ (List.forall_mem_cons.mpr
        ⟨.constant _ _, List.forall_mem_singleton.mpr (.call _ (by simp))⟩)
  obtain ⟨g', hg', hplaces, -, hagain⟩ := carried_in_place hf
  obtain rfl : g = g' := Except.ok.inj ((show toPartitionId f = .ok g from rfl).symm.trans hg')
  exact ⟨hf, hg', hplaces [1, 0], hagain⟩

end LinkedTables.Filter
