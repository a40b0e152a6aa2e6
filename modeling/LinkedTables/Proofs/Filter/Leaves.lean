import LinkedTables.Filter.PartitionId

set_option autoImplicit false

/-! # Leaves that cannot be carried over

The leaves of a filter are its columns, its constants and whatever else stands in place of a
node. A constant that is no text and a value that is no node at all cannot be carried over
(`Unsupported`). Carrying over goes through the leaves from left to right and ends at the first
one of this kind (`toPartitionId_eq_error_iff`). What it ends with tells of this leaf if the leaf
has a display; otherwise it is the error met in showing the leaf (`refusal?_of_noDisplay`).
-/

namespace LinkedTables

namespace Filter

mutual

/-- The leaves of a filter, from left to right. A call without operands has none. -/
def leaves : Filter → List Filter
  | call _ operands => leavesIn operands
  | f => [f]

/-- The leaves of the filters of a list, from left to right. -/
def leavesIn : List Filter → List Filter
  | [] => []
  | f :: fs => leaves f ++ leavesIn fs

end

/-- A leaf that cannot be carried over. -/
inductive Unsupported : Filter → Prop
  | constant (typeName : String) {v : Value} (hv : ∀ s, v ≠ .text s) :
      Unsupported (.constant typeName v)
  | foreign (v : Value) : Unsupported (.foreign v)

/-- What the type of a node is called in messages. -/
def nodeType : Filter → String
  | call _ _ => "FunctionCall"
  | column _ => "ColumnRef"
  | constant _ _ => "ConstantLiteral"
  | foreign v => v.typeName

end Filter

namespace Failure

/-- The part of a filter that a failure to carry it over is about. -/
def node? : Failure → Option Filter
  | filterNode v _ => some (.foreign v)
  | filterConstant c _ => some (.constant c.typeName c.value)
  | _ => none

/-- A failure is about a leaf, and its one detail is the type of the leaf. -/
structure TellsOf (e : Failure) (leaf : Filter) : Prop where
  node_eq : e.node? = some leaf
  details_eq : e.details = [("node_type", leaf.nodeType)]

end Failure

namespace Filter

/-- The error met in showing a leaf, if it has no display. -/
def noDisplay? : Filter → Option NoText
  | constant _ v => v.noDisplay?
  | foreign v => v.noDisplay?
  | _ => none

/-- The problem with which a leaf is refused, if it is. -/
def refusal? : Filter → Option Problem
  | constant _ (.text _) => none
  | constant typeName v => some (.ofFailure (Failure.ofConstant ⟨typeName, v⟩))
  | foreign v => some (.ofFailure (Failure.ofNode v none))
  | _ => none

theorem isSome_refusal?_iff {leaf : Filter} :
    (refusal? leaf).isSome = true ↔ leaf.Unsupported := by
  constructor
  · intro h
    cases leaf with
    | constant typeName v =>
        cases v with
        | text s => cases h
        | _ => exact .constant typeName (by simp)
    | foreign v => exact .foreign v
    | call | column => cases h
  · intro h
    cases h with
    | @constant typeName v hv =>
        cases v with
        | text s => exact absurd rfl (hv s)
        | _ => rfl
    | foreign v => rfl

theorem refusal?_constant {typeName : String} {v : Value} (hv : ∀ s, v ≠ .text s) :
    refusal? (.constant typeName v) = some (.ofFailure (Failure.ofConstant ⟨typeName, v⟩)) := by
  cases v with
  | text s => exact absurd rfl (hv s)
  | _ => rfl

/-- A leaf that is not supported and has a display is refused with a failure that tells of
it. -/
theorem exists_failure_of_refusal? {leaf : Filter} (h : leaf.Unsupported)
    (hd : leaf.noDisplay? = none) :
    ∃ e : Failure, e.TellsOf leaf ∧ refusal? leaf = some e.problem := by
  cases h with
  | @constant typeName v hv =>
      rw [refusal?_constant hv, Failure.ofConstant, Value.display_eq_ok hd]
      exact ⟨_, ⟨rfl, rfl⟩, rfl⟩
  | foreign v =>
      rw [refusal?, Failure.ofNode_none, Value.display_eq_ok hd]
      exact ⟨_, ⟨rfl, rfl⟩, rfl⟩

/-- A leaf that is not supported and has no display is refused with the error met in showing
it. -/
theorem refusal?_of_noDisplay {leaf : Filter} (h : leaf.Unsupported) {e : NoText}
    (he : leaf.noDisplay? = some e) : refusal? leaf = some e.problem := by
  cases h with
  | @constant typeName v hv =>
      rw [refusal?_constant hv, Failure.ofConstant, Value.display_eq_error he]
      rfl
  | foreign v =>
      rw [refusal?, Failure.ofNode_none, Value.display_eq_error he]
      rfl

/-! ## The first refusal -/

mutual

/-- A filter is refused as the first of its leaves that is refused. -/
theorem toPartitionId_eq_error_iff_findSome? : ∀ (f : Filter) {p : Problem},
    toPartitionId f = .error p ↔ f.leaves.findSome? refusal? = some p
  | .call operator fs, p => by
      rw [leaves, ← toPartitionIds_eq_error_iff_findSome? fs, toPartitionId]
      cases toPartitionIds fs <;> simp
  | .column name, p => by simp [toPartitionId, leaves, refusal?]
  | .constant typeName v, p => by cases v <;> simp [toPartitionId, leaves, refusal?]
  | .foreign v, p => by simp [toPartitionId, leaves, refusal?]

theorem toPartitionIds_eq_error_iff_findSome? : ∀ (fs : List Filter) {p : Problem},
    toPartitionIds fs = .error p ↔ (leavesIn fs).findSome? refusal? = some p
  | [], p => by simp [toPartitionIds, leavesIn]
  | f :: fs, p => by
      -- The leaves of the later filters count only if `f` has been carried over.
      rw [toPartitionIds, leavesIn, List.findSome?_append, Option.or_eq_some_iff,
        ← toPartitionId_eq_error_iff_findSome? f, ← toPartitionIds_eq_error_iff_findSome? fs]
      cases hf : toPartitionId f with
      | error p' =>
          have hfirst := (toPartitionId_eq_error_iff_findSome? f).mp hf
          simp [hfirst]
      | ok g =>
          have hnone : f.leaves.findSome? refusal? = none := by
            refine Option.eq_none_iff_forall_ne_some.mpr fun p' hp' => ?_
            cases hf.symm.trans ((toPartitionId_eq_error_iff_findSome? f).mpr hp')
          cases toPartitionIds fs <;> simp [hnone]

end

/-- **Carrying over fails at the first leaf that is not supported,** with the refusal of that
leaf, and it does not fail without one. -/
theorem toPartitionId_eq_error_iff {f : Filter} {p : Problem} :
    toPartitionId f = .error p ↔ ∃ before leaf after, f.leaves = before ++ leaf :: after ∧
      (∀ earlier ∈ before, ¬ earlier.Unsupported) ∧ refusal? leaf = some p := by
  simp only [toPartitionId_eq_error_iff_findSome?, List.findSome?_eq_some_iff,
    ← isSome_refusal?_iff, Option.not_isSome_iff_eq_none]
  constructor
  · rintro ⟨before, leaf, after, hleaves, hleaf, hbefore⟩
    exact ⟨before, leaf, after, hleaves, hbefore, hleaf⟩
  · rintro ⟨before, leaf, after, hleaves, hbefore, hleaf⟩
    exact ⟨before, leaf, after, hleaves, hleaf, hbefore⟩

/-- The first leaf that is not supported has no display. -/
def Untold (f : Filter) : Prop :=
  ∃ before leaf after e, f.leaves = before ++ leaf :: after ∧
    (∀ earlier ∈ before, ¬ earlier.Unsupported) ∧ leaf.Unsupported ∧ leaf.noDisplay? = some e

/-- A refusal is no failure of the library where the leaf in question has no display, and only
there. -/
theorem untold_iff {f : Filter} :
    f.Untold ↔ ∃ p, toPartitionId f = .error p ∧ p.isFailure = false := by
  constructor
  · rintro ⟨before, leaf, after, e, hleaves, hbefore, hleaf, he⟩
    exact ⟨e.problem, toPartitionId_eq_error_iff.mpr
      ⟨before, leaf, after, hleaves, hbefore, refusal?_of_noDisplay hleaf he⟩, rfl⟩
  · rintro ⟨p, hp, hforeign⟩
    obtain ⟨before, leaf, after, hleaves, hbefore, hrefusal⟩ := toPartitionId_eq_error_iff.mp hp
    have hleaf : leaf.Unsupported := isSome_refusal?_iff.mp (hrefusal ▸ rfl)
    cases he : leaf.noDisplay? with
    | some e => exact ⟨before, leaf, after, e, hleaves, hbefore, hleaf, he⟩
    | none =>
        obtain ⟨e, -, hfailure⟩ := exists_failure_of_refusal? hleaf he
        cases hfailure.symm.trans hrefusal
        cases hforeign

end Filter

end LinkedTables
