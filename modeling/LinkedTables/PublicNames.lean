import LinkedTables.Problem

set_option autoImplicit false

/-! # Public names

What the library offers by name. A name is looked up when it is first asked for, in the part of
the library that defines it: the failures have a part of their own, and every other name is
listed with its part. There are two lists to keep in step, that of the names offered and that of
where they are found; they agree (`exists_home_iff`).
-/

namespace LinkedTables.PublicNames

/-- The names that the library offers. -/
def offered : List String :=
  ["create_partition_catalog", "create_commit_orchestrator", "PartitionCatalogBridge",
    "CommitOrchestrator", "translate_filter", "convert_partition_ids", "JobContext", "JobDetails",
    "JobState", "WriteMethod", "WarehouseTableId", "HiveBigQueryError", "ConfigurationError",
    "InvalidWriteMethodError", "MissingOutputTableError", "UpstreamClientError",
    "FilterTranslationError", "JobStateMismatchError"]

/-- Where the names are found that are not those of failures. -/
def homes : List (String × String) :=
  [("create_partition_catalog", "factory"), ("create_commit_orchestrator", "factory"),
    ("PartitionCatalogBridge", "metastore"), ("CommitOrchestrator", "committer"),
    ("JobContext", "committer"), ("JobState", "committer"), ("translate_filter", "translator"),
    ("convert_partition_ids", "partition_ids"), ("JobDetails", "job_details"),
    ("WriteMethod", "config"), ("WarehouseTableId", "config")]

/-- The names of failures that are offered. -/
def failureNames : List String :=
  ["HiveBigQueryError", "ConfigurationError", "InvalidWriteMethodError", "MissingOutputTableError",
    "UpstreamClientError", "FilterTranslationError", "JobStateMismatchError"]

/-- The part of the library that a name is found in. -/
def home (name : String) : Except Problem String :=
  match homes.lookup name with
  | some part => .ok part
  | none =>
    if failureNames.contains name then .ok "errors"
    else .error (.error .attribute ("module 'hive_bigquery' has no attribute " ++ Text.quoted name))

/-- The names offered are those that have a home. -/
theorem mem_offered_iff {name : String} :
    name ∈ offered ↔ name ∈ homes.map (·.1) ∨ name ∈ failureNames := by
  have hhomes : ∀ name ∈ homes.map (·.1), name ∈ offered := by decide +kernel
  have hfailures : ∀ name ∈ failureNames, name ∈ offered := by decide +kernel
  have hoffered : ∀ name ∈ offered, name ∈ homes.map (·.1) ∨ name ∈ failureNames := by
    decide +kernel
  exact ⟨hoffered name, fun h => h.elim (hhomes name) (hfailures name)⟩

/-- A name can be found if and only if it is offered. -/
theorem exists_home_iff {name : String} : (∃ part, home name = .ok part) ↔ name ∈ offered := by
  rw [mem_offered_iff, home]
  cases hpart : homes.lookup name with
  | some part =>
      obtain ⟨before, after, heq, -⟩ := List.lookup_eq_some_iff.mp hpart
      simp [heq]
  | none =>
      have hname : name ∉ homes.map (·.1) := by
        intro hmem
        obtain ⟨entry, hentry, rfl⟩ := List.mem_map.mp hmem
        have hother := List.lookup_eq_none_iff.mp hpart entry hentry
        simp at hother
      by_cases hfailure : name ∈ failureNames <;> simp [hname, hfailure]

end LinkedTables.PublicNames
