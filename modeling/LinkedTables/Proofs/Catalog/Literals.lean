import LinkedTables.Proofs.Catalog.ByValue
import LinkedTables.Proofs.Warehouse.Quotes

set_option autoImplicit false

/-! # Literals in queries

Constants and values for partition keys come from outside and go into queries as literals.
Whatever they hold, a reader of the query finds the end of the literal where it was written,
and the literal denotes the text that went in (`Clients.literals_hold_their_text`). So neither
the rest of a query becomes part of a literal nor the other way round.
-/

namespace LinkedTables

/-- A text starts with a literal that denotes a certain text, and a certain rest follows. -/
def Sql.ReadsLiteral (escapes : Char → Option Char) (cs text rest : List Char) : Prop :=
  ∃ ds body, cs = '\'' :: ds ∧ Sql.splitLiteral ds = some (body, rest) ∧
    Sql.denoted escapes body = some text

variable {escapes : Char → Option Char}

theorem Sql.readsLiteral_textLiteral (h : Sql.KeepsMarks escapes) (cs rest : List Char) :
    Sql.ReadsLiteral escapes (Filter.textLiteral cs ++ rest) cs rest := by
  refine ⟨_, cs.flatMap Filter.literalChar, List.cons_append, ?_, Sql.denoted_escaped h cs⟩
  rw [List.append_assoc]
  exact (Sql.literalBody_escaped cs).splitLiteral_append rest

namespace Filter

/-- The constants that are written as literals. -/
theorem literalChars_of_typeName {v : Value} (h : v.typeName ∈ ["str", "list", "dict"]) :
    literalChars v = textLiteral v.shown.toList := by
  cases v with
  | text | list | dict | object => rfl
  | null | bool | int | float => simp [Value.typeName] at h

theorem sqlChars_idIs (text : String) :
    (idIs text).sqlChars = "(partition_id = ".toList ++ textLiteral text.toList ++ [')'] := by
  have hform : form "=" 2 = .chain ['='] := by decide
  simp [idIs, equal, sqlChars, sqlParts, applied, hform, parenthesized, List.intercalate,
    literalChars, partitionIdColumn]

/-- There is one literal in the condition that an id is a text. -/
theorem pieces_idIs (text : String) :
    Sql.pieces (idIs text).sqlChars = some
      (Sql.plain "(partition_id = " ++
        .literal (text.toList.flatMap literalChar) :: Sql.plain ")") := by
  have hbefore : ∀ p ∈ Sql.plain "(partition_id = ", p.WellFormed :=
    Sql.wellFormed_of_mem_plain (by simp)
  have hafter : ∀ p ∈ Sql.plain ")", p.WellFormed := Sql.wellFormed_of_mem_plain (by simp)
  have hliteral := Sql.literalBody_escaped text.toList
  rw [Sql.pieces_eq_some_iff, sqlChars_idIs]
  constructor
  · exact List.forall_mem_append.mpr
      ⟨hbefore, List.forall_mem_cons.mpr ⟨.literal hliteral, hafter⟩⟩
  · simp [Sql.flatMap_text_plain, Sql.Piece.text, textLiteral]

end Filter

theorem Question.bytes?_of_values {q : Question} {value : String} {more : List String}
    (h : q.values = value :: more) : q.bytes? = none := by
  cases q with
  | byFilter => cases h
  | all | names | namesByValues | byValues => rfl

namespace Clients

variable {σ δ : Type} {c : Clients σ δ} {r : Request} {s : σ} {t : Table} {link : Link}
  {sql : String} {s' : σ}

/-- After its query a request asks for nothing more than metadata. -/
theorem exists_calls_of_posed (hp : c.Posed r s t link sql s') :
    ∃ rest, Event.calls (c.answer r s).events =
        .getTable r.catalog r.database r.table :: (r.question.decoding ++ .query sql :: rest) ∧
      ∀ call ∈ rest, call = .getMetadata link.target := by
  -- The metadata is asked for only if the query is answered, and ids are converted by no call.
  cases hi : c.listed sql s' with
  | error p => exact ⟨[], (comesTo_answer_of_unlisted hp hi).calls_eq, by simp⟩
  | ok ids =>
      have hqueried := Queried.intro hp hi
      cases hm : (c.getMetadata link.target (c.query sql s').state).result with
      | error p => exact ⟨_, (comesTo_answer_of_undescribed hqueried hm).calls_eq, by simp⟩
      | ok m => exact ⟨_, (comesTo_answer_of_described ⟨hqueried, hm⟩).calls_eq, by simp⟩

/-- A request with a value that is not empty makes one query, for the id that is this value
without its dashes. -/
theorem exists_calls_of_values {value : String} {more : List String}
    (hvalues : r.question.values = value :: more) (hvalue : value ≠ "")
    (ht : (c.looked r s).result = .ok t) (hm : t.isLinked = true)
    (hl : Link.ofTable t = .ok link) :
    ∃ rest, Event.calls (c.answer r s).events = .getTable r.catalog r.database r.table ::
        .query (link.target.query
          (some (String.ofList (Filter.idIs (Filter.withoutDashes value)).sqlChars))
          r.question.limit) :: rest ∧
      ∀ call ∈ rest, call = .getMetadata link.target := by
  have hbytes := Question.bytes?_of_values hvalues
  have hselects : c.Selects r.question (c.looked r s).state
      (some (.idIs (Filter.withoutDashes value))) (c.looked r s).state := by
    rw [← valuesFilter_cons hvalue more, ← hvalues]
    exact .given hbytes
  obtain ⟨rest, hcalls, hrest⟩ := exists_calls_of_posed ⟨ht, hm, hl, _, hselects, rfl⟩
  rw [Question.decoding, hbytes] at hcalls
  exact ⟨rest, hcalls, hrest⟩

/-- **Literals hold their text.** Let the reader of a query take a backslash and a quote after
a backslash for themselves. A constant that is a text, a list or a dictionary, and that has a
text, is written as a literal which is read as the text of the constant, and it ends where what
follows starts, whatever this is. If a value that is not empty is given for the key of a linked
table, there is one query, and its condition compares the id with one literal, which denotes the
value without its dashes. -/
theorem literals_hold_their_text (c : Clients σ δ) (hescapes : Sql.KeepsMarks escapes) :
    (∀ typeName v, v.typeName ∈ ["str", "list", "dict"] → v.HasText →
      ∃ sql, (Filter.constant typeName v).sql = .ok sql ∧
        ∀ following, Sql.ReadsLiteral escapes (sql.toList ++ following) v.shown.toList
          following) ∧
      ∀ r s t link value more, r.question.values = value :: more → value ≠ "" →
        (c.looked r s).result = .ok t → t.isLinked = true → Link.ofTable t = .ok link →
        ∃ condition rest body,
          Event.calls (c.answer r s).events = .getTable r.catalog r.database r.table ::
            .query (link.target.query (some condition) r.question.limit) :: rest ∧
          (∀ call ∈ rest, call = .getMetadata link.target) ∧
          Sql.pieces condition.toList = some
            (Sql.plain "(partition_id = " ++ .literal body :: Sql.plain ")") ∧
          Sql.denoted escapes body = some (value.toList.filter (· != '-')) := by
  constructor
  · intro typeName v hv htext
    have hnone : (Filter.constant typeName v).noSql? = none := by
      rw [Filter.noSql?, show v.noText? = none from htext, Option.map_none]
    refine ⟨String.ofList (Filter.literalChars v), ?_, fun following => ?_⟩
    · rw [Filter.sql, hnone, Filter.sqlChars]
    · rw [Filter.literalChars_of_typeName hv, String.toList_ofList]
      exact Sql.readsLiteral_textLiteral hescapes v.shown.toList following
  · intro r s t link value more hvalues hvalue ht hm hl
    obtain ⟨rest, hcalls, hrest⟩ := exists_calls_of_values hvalues hvalue ht hm hl
    refine ⟨_, rest, (Filter.withoutDashes value).toList.flatMap Filter.literalChar, hcalls,
      hrest, ?_, ?_⟩
    · rw [String.toList_ofList]
      exact Filter.pieces_idIs _
    · rw [Sql.denoted_escaped hescapes, Filter.withoutDashes, String.toList_ofList]

/-- A list with both quotes and a backslash in it is a literal that ends before a disjunction,
and so is a value for the key that tries to end its literal. -/
theorem quoted_list_and_value :
    let escapes : Char → Option Char := fun c => if c = 'n' then some '\n' else some c
    let v : Value := .list [.text "it's", .text "a\\"]
    let r : Request := ⟨"c", "d", "t", .namesByValues ["\\' OR 'a'='b-\\"] 3⟩
    v.shown = "[\"it's\", 'a\\\\']" ∧
      (∃ sql, (Filter.constant "array<string>" v).sql = .ok sql ∧
        Sql.ReadsLiteral escapes (sql.toList ++ ") OR 'a' = 'b'".toList) v.shown.toList
          ") OR 'a' = 'b'".toList) ∧
      ∃ condition rest body, Event.calls ((daily []).answer r ()).events =
          .getTable "c" "d" "t" :: .query (sampleLink.target.query (some condition) 3) :: rest ∧
        rest ⊆ [.getMetadata sampleLink.target] ∧
        Sql.pieces condition.toList = some
          (Sql.plain "(partition_id = " ++ .literal body :: Sql.plain ")") ∧
        Sql.denoted escapes body = some "\\' OR 'a'='b\\".toList := by
  intro escapes v r
  have hescapes : Sql.KeepsMarks escapes := ⟨rfl, rfl⟩
  obtain ⟨hconstants, hvalues⟩ := literals_hold_their_text (daily []) hescapes
  obtain ⟨sql, hsql, hreads⟩ := hconstants "array<string>" v (by decide) rfl
  obtain ⟨condition, rest, body, hcalls, hrest, hpieces, hdenoted⟩ :=
    hvalues r () (sampleTable sampleParameters) sampleLink _ [] rfl (by decide) rfl (by decide) rfl
  have hshown : v.shown = "[\"it's\", 'a\\\\']" := by
    simp only [v, Value.shown, Value.displayChars, Value.displayItems]
    decide +kernel
  refine ⟨hshown, ⟨sql, hsql, hreads _⟩, condition, rest, body, hcalls, ?_, hpieces, ?_⟩
  · intro call hmem
    exact List.mem_singleton.mpr (hrest call hmem)
  · rw [hdenoted]
    decide

end Clients

end LinkedTables
