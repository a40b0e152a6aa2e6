import LinkedTables.Proofs.Filter.Pushdown

set_option autoImplicit false

/-! # Filters that were carried over

A filter over partition ids has one column and no constants but texts, whatever it was
carried over from, and it has the operators that it had before. Such a filter always has
an expression (`OverIds.sql_eq`).
-/

namespace LinkedTables.Filter

/-- Filters in which all columns are the column of ids and all constants are texts. -/
inductive OverIds : Filter → Prop
  | column : OverIds (.column partitionIdColumn)
  | constant (typeName s : String) : OverIds (.constant typeName (.text s))
  | call (operator : String) {operands : List Filter} (h : ∀ f ∈ operands, OverIds f) :
      OverIds (.call operator operands)

mutual

/-- The operators of a filter, from left to right. -/
def operators : Filter → List String
  | call operator operands => operator :: operatorsIn operands
  | _ => []

/-- The operators of the filters of a list. -/
def operatorsIn : List Filter → List String
  | [] => []
  | f :: fs => operators f ++ operatorsIn fs

end

theorem operatorsIn_eq_flatMap (fs : List Filter) : operatorsIn fs = fs.flatMap operators := by
  induction fs with
  | nil => rfl
  | cons f fs ih => rw [operatorsIn, ih, List.flatMap_cons]

/-! ## What a filter is carried over to -/

mutual

theorem overIds_of_toPartitionId :
    ∀ (f : Filter) {g : Filter}, toPartitionId f = .ok g → OverIds g
  | .call operator fs, _, h => by
      obtain ⟨gs, hgs, rfl⟩ := toPartitionId_call_eq_ok_iff.mp h
      exact .call operator (overIds_of_toPartitionIds fs hgs)
  | .column _, _, h => by
      cases h
      exact .column
  | .constant typeName v, _, h => by
      cases v <;> cases h
      exact .constant typeName _
  | .foreign _, _, h => by cases h

theorem overIds_of_toPartitionIds :
    ∀ (fs : List Filter) {gs : List Filter}, toPartitionIds fs = .ok gs → ∀ g ∈ gs, OverIds g
  | [], _, h => by
      cases h
      simp
  | f :: fs, _, h => by
      cases toPartitionIds_eq_ok_iff.mp h with
      | cons hf hfs =>
          exact List.forall_mem_cons.mpr ⟨overIds_of_toPartitionId f hf,
            overIds_of_toPartitionIds fs (toPartitionIds_eq_ok_iff.mpr hfs)⟩

end

mutual

theorem operators_of_toPartitionId :
    ∀ (f : Filter) {g : Filter}, toPartitionId f = .ok g → g.operators = f.operators
  | .call _ fs, _, h => by
      obtain ⟨gs, hgs, rfl⟩ := toPartitionId_call_eq_ok_iff.mp h
      rw [operators, operators, operatorsIn_of_toPartitionIds fs hgs]
  | .column _, _, h => by
      cases h
      rfl
  | .constant _ v, _, h => by
      cases v <;> cases h
      rfl
  | .foreign _, _, h => by cases h

theorem operatorsIn_of_toPartitionIds : ∀ (fs : List Filter) {gs : List Filter},
    toPartitionIds fs = .ok gs → operatorsIn gs = operatorsIn fs
  | [], _, h => by
      cases h
      rfl
  | f :: fs, _, h => by
      cases toPartitionIds_eq_ok_iff.mp h with
      | cons hf hfs =>
          rw [operatorsIn, operatorsIn, operators_of_toPartitionId f hf,
            operatorsIn_of_toPartitionIds fs (toPartitionIds_eq_ok_iff.mpr hfs)]

end

/-! ## Expressions -/

theorem noSqlIn?_eq_none {fs : List Filter} (h : ∀ f ∈ fs, f.noSql? = none) :
    noSqlIn? fs = none := by
  induction fs with
  | nil => rfl
  | cons f fs ih =>
      rw [noSqlIn?, h f (by simp), Option.none_or]
      exact ih fun g hg => h g (List.mem_cons_of_mem f hg)

theorem OverIds.noSql?_eq_none {f : Filter} (h : OverIds f) : f.noSql? = none := by
  induction h with
  | column | constant => rfl
  | call operator _ ih =>
      rw [noSql?]
      exact noSqlIn?_eq_none ih

/-- A filter over partition ids has an expression. -/
theorem OverIds.sql_eq {f : Filter} (h : OverIds f) :
    f.sql = .ok (String.ofList f.sqlChars) := by
  rw [sql, h.noSql?_eq_none]

end LinkedTables.Filter
