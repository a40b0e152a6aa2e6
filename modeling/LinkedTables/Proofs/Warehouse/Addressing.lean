import LinkedTables.Proofs.Text.Digits
import LinkedTables.Proofs.Warehouse.Quotes
import LinkedTables.Warehouse.Query

set_option autoImplicit false

/-! # The table that a query asks for

A query for partition ids names the view that lists the partitions of a dataset, and picks a
table by a literal. It asks for the right table if it is read as it is meant:
`TableId.Addresses`. The parts of an address are written into the query as they are, so this
holds exactly of the addresses in which no quote ends a name or a literal early and no
backslash is taken for an escape (`TableId.addressed_iff`).
-/

namespace LinkedTables.TableId

/-- The name of the view that lists the partitions of the tables of a dataset. -/
def viewName (id : TableId) : String :=
  id.project.text ++ "." ++ id.dataset.text ++ ".INFORMATION_SCHEMA.PARTITIONS"

/-- The clause by which a query ends, as far as it has a limit. -/
def limitText (limit : Int) : String := if 0 < limit then " LIMIT " ++ toString limit else ""

/-- A query is read as one for the ids of all partitions of a table, up to a limit if that is
positive: it has one name, which is that of the view, and after it one literal, which denotes
the name of the table, and then nothing but the limit. -/
def Addresses (escapes : Char → Option Char) (id : TableId) (limit : Int) (sql : String) :
    Prop :=
  ∃ body,
    Sql.pieces sql.toList = some
      (Sql.plain "SELECT partition_id FROM " ++ .name id.viewName.toList ::
        Sql.plain " WHERE table_name = " ++ .literal body :: Sql.plain (limitText limit)) ∧
      Sql.denoted escapes body = some id.table.text.toList

theorem limitClause_eq (limit : Int) : limitClause limit = limitText limit := by
  rw [limitClause, limitText]
  split
  next h =>
    obtain ⟨n, rfl⟩ := Int.eq_ofNat_of_zero_le (Int.le_of_lt h)
    rfl
  next => rfl

/-- There are no quotes in a limit. -/
theorem not_mem_limitText {limit : Int} :
    ∀ c ∈ (limitText limit).toList, c ∉ ['\x60', '\''] := by
  have hword : ∀ c ∈ " LIMIT ".toList, c ∉ ['\x60', '\''] := by simp
  have hquotes : ∀ c ∈ ['\x60', '\''], c.isDigit = false := by simp
  intro c hc
  rw [← limitClause_eq, limitClause] at hc
  split at hc
  next h =>
    obtain ⟨n, rfl⟩ := Int.eq_ofNat_of_zero_le (Int.le_of_lt h)
    rw [String.toList_append, String.toList_ofList (l := Text.intDigits n)] at hc
    rcases List.mem_append.mp hc with hc | hc
    · exact hword c hc
    · intro hquote
      have hdigit : c.isDigit = true := Text.isDigit_of_mem_natDigits hc
      rw [hquotes c hquote] at hdigit
      cases hdigit
  next => cases hc

theorem toList_query (id : TableId) (limit : Int) :
    (id.query none limit).toList =
      "SELECT partition_id FROM ".toList ++ '\x60' :: (id.viewName.toList ++ '\x60' ::
        (" WHERE table_name = ".toList ++ '\'' :: (id.table.text.toList ++ '\'' ::
          (limitText limit).toList))) := by
  simp [query, baseQuery, conditionClause, viewName, limitClause_eq, Filter.partitionIdColumn]

theorem backtick_not_mem_viewName_iff {id : TableId} :
    '\x60' ∉ id.viewName.toList ↔
      '\x60' ∉ id.project.text.toList ∧ '\x60' ∉ id.dataset.text.toList := by
  simp [viewName]

/-- The pieces that a query is meant to have end where they say if the name and the literal
do. -/
theorem forall_wellFormed_iff {name body : List Char} {limit : Int} :
    (∀ p ∈ Sql.plain "SELECT partition_id FROM " ++ .name name ::
        Sql.plain " WHERE table_name = " ++ .literal body :: Sql.plain (limitText limit),
      p.WellFormed) ↔ '\x60' ∉ name ∧ Sql.LiteralBody body := by
  have hselect : ∀ p ∈ Sql.plain "SELECT partition_id FROM ", p.WellFormed :=
    Sql.wellFormed_of_mem_plain (by simp)
  have hwhere : ∀ p ∈ Sql.plain " WHERE table_name = ", p.WellFormed :=
    Sql.wellFormed_of_mem_plain (by simp)
  have hlimit : ∀ p ∈ Sql.plain (limitText limit), p.WellFormed :=
    Sql.wellFormed_of_mem_plain not_mem_limitText
  rw [List.forall_mem_append, List.forall_mem_append, List.forall_mem_cons,
    List.forall_mem_cons, Sql.wellFormed_name_iff, Sql.wellFormed_literal_iff]
  constructor
  · rintro ⟨⟨-, hname, -⟩, hbody, -⟩
    exact ⟨hname, hbody⟩
  · rintro ⟨hname, hbody⟩
    exact ⟨⟨hselect, hname, hwhere⟩, hbody, hlimit⟩

/-- A query says of its table what the table's name says as the inside of a literal. -/
theorem addresses_iff_wellFormed {escapes : Char → Option Char} {id : TableId} {limit : Int} :
    id.Addresses escapes limit (id.query none limit) ↔
      '\x60' ∉ id.viewName.toList ∧ Sql.LiteralBody id.table.text.toList ∧
        Sql.denoted escapes id.table.text.toList = some id.table.text.toList := by
  unfold Addresses
  simp only [Sql.pieces_eq_some_iff, forall_wellFormed_iff]
  constructor
  · rintro ⟨body, ⟨⟨hname, hbody⟩, htext⟩, hdenoted⟩
    -- The literal that is read starts and ends as the name of the table was put in.
    obtain rfl : id.table.text.toList = body := by
      simpa [toList_query, Sql.flatMap_text_plain, Sql.Piece.text] using htext
    exact ⟨hname, hbody, hdenoted⟩
  · rintro ⟨hname, hbody, hdenoted⟩
    refine ⟨_, ⟨⟨hname, hbody⟩, ?_⟩, hdenoted⟩
    simp [toList_query, Sql.flatMap_text_plain, Sql.Piece.text]

/-- **Which queries ask for their table.** The query for all partitions of a table, with a
limit or without, is read as it is meant if and only if there is no backtick in the project and
in the dataset, and no quote and no backslash in the name of the table. This is so whatever
escapes stand for. -/
theorem addressed_iff (escapes : Char → Option Char) (id : TableId) (limit : Int) :
    id.filteredQuery none limit = .ok (id.query none limit) ∧
      (id.Addresses escapes limit (id.query none limit) ↔
        ('\x60' ∉ id.project.text.toList ∧ '\x60' ∉ id.dataset.text.toList) ∧
          '\'' ∉ id.table.text.toList ∧ '\\' ∉ id.table.text.toList) := by
  refine ⟨rfl, ?_⟩
  rw [addresses_iff_wellFormed, backtick_not_mem_viewName_iff, Sql.denoted_eq_self_iff]
  refine and_congr_right fun _ => and_congr_left fun hbackslash => ?_
  exact Sql.literalBody_iff_of_no_backslash hbackslash

/-- The name of a table can end its literal and put a disjunction beside it, and the name of a
project can end the name of the view; both are taken for addresses. -/
theorem address_breaks_out :
    let id : TableId := ⟨⟨"p", by decide⟩, ⟨"d", by decide⟩, ⟨"t' OR '1'='1", by decide⟩⟩
    let id' : TableId := ⟨⟨"p\x60", by decide⟩, ⟨"d", by decide⟩, ⟨"t", by decide⟩⟩
    TableId.parse "p.d.t' OR '1'='1" = .ok id ∧ TableId.parse "p\x60.d.t" = .ok id' ∧
      id.filteredQuery none (-1) = .ok ("SELECT partition_id FROM " ++
        "\x60p.d.INFORMATION_SCHEMA.PARTITIONS\x60 WHERE table_name = 't' OR '1'='1'") ∧
      Sql.pieces (id.query none (-1)).toList = some
        (Sql.plain "SELECT partition_id FROM " ++ .name id.viewName.toList ::
          Sql.plain " WHERE table_name = " ++ .literal ['t'] :: Sql.plain " OR " ++
          .literal ['1'] :: Sql.plain "=" ++ [.literal ['1']]) ∧
      ∀ escapes, ¬ id.Addresses escapes (-1) (id.query none (-1)) ∧
        ¬ id'.Addresses escapes (-1) (id'.query none (-1)) := by
  intro id id'
  refine ⟨rfl, rfl, rfl, ?_, fun escapes => ⟨?_, ?_⟩⟩
  · rw [Sql.pieces_eq_some_iff]
    constructor
    · simp only [List.forall_mem_append, List.forall_mem_cons, Sql.wellFormed_name_iff,
        Sql.wellFormed_literal_iff]
      have hone : ∀ c, c ≠ '\'' → c ≠ '\\' → Sql.LiteralBody [c] :=
        fun _ hq hb => .char hq hb .nil
      refine ⟨⟨⟨⟨?_, ?_, ?_⟩, ?_, ?_⟩, ?_, ?_⟩, ?_, ?_⟩
      any_goals exact Sql.wellFormed_of_mem_plain (by simp)
      any_goals exact hone _ (by decide) (by decide)
      · decide
      · exact List.forall_mem_nil _
    · rw [toList_query]
      simp only [List.flatMap_append, List.flatMap_cons, Sql.flatMap_text_plain, Sql.Piece.text]
      decide
  · -- The quote in the table's name cannot stand in a literal.
    rw [addresses_iff_wellFormed]
    rintro ⟨-, hbody, -⟩
    exact (Sql.literalBody_iff_of_no_backslash (by decide)).mp hbody (by decide)
  · rw [addresses_iff_wellFormed, backtick_not_mem_viewName_iff]
    rintro ⟨⟨hproject, -⟩, -⟩
    exact hproject (by decide)

end LinkedTables.TableId
