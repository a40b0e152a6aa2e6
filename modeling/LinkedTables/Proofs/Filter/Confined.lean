import LinkedTables.Proofs.Filter.Carried
import LinkedTables.Proofs.Filter.Form
import LinkedTables.Proofs.Filter.RoundTrip
import LinkedTables.Proofs.Text.Digits
import LinkedTables.Warehouse.Query
import Mathlib.Data.Bool.AllAny

set_option autoImplicit false

/-! # Filters that keep to their place

A filter stands in a query after other conditions and before a limit. It keeps to its place
if its text is confined: outside literals it closes no parenthesis that it has not opened,
and it leaves neither a parenthesis nor a literal open. A confined text can be taken out of
another, and what follows is read as before (`Confined.read_append`).

The text of a filter that was decoded and carried over is put together from columns,
literals, keywords and the names of functions. All of these are confined but for the names,
which are written as they are: a filter can break out of its place through the name of an
operator, and in no other way (`confined_iff_operators`).
-/

namespace LinkedTables.Filter

/-! ## Reading a text -/

/-- Where the reader of a text is. -/
inductive Place where
  /-- Outside literals. -/
  | outside
  /-- Inside a literal. -/
  | literal
  /-- Inside a literal, after a backslash. -/
  | escaped
deriving DecidableEq, Repr

/-- How far a text has been read. -/
structure Reading where
  /-- The number of open parentheses. -/
  opened : Nat
  /-- Where the reader is. -/
  place : Place
deriving DecidableEq, Repr

namespace Reading

/-- Reads one character, unless it closes a parenthesis that is not open. -/
def next : Reading → Char → Option Reading
  | ⟨n, .escaped⟩, _ => some ⟨n, .literal⟩
  | ⟨n, .literal⟩, c =>
    some ⟨n, if c = '\\' then .escaped else if c = '\'' then .outside else .literal⟩
  | ⟨n, .outside⟩, c =>
    if c = '\'' then some ⟨n, .literal⟩
    else if c = '(' then some ⟨n + 1, .outside⟩
    else if c = ')' then
      match n with
      | 0 => none
      | n + 1 => some ⟨n, .outside⟩
    else some ⟨n, .outside⟩

/-- Reads a text, up to a parenthesis that closes none. -/
def read (r : Reading) : List Char → Option Reading
  | [] => some r
  | c :: cs => (r.next c).bind fun s => s.read cs

/-- The reading within a number of further parentheses. -/
def within (n : Nat) (r : Reading) : Reading := ⟨n + r.opened, r.place⟩

theorem read_append (r : Reading) (cs ds : List Char) :
    r.read (cs ++ ds) = (r.read cs).bind fun s => s.read ds := by
  induction cs generalizing r with
  | nil => rfl
  | cons c cs ih =>
      rw [List.cons_append, read, read, Option.bind_assoc]
      exact Option.bind_congr fun s _ => ih s

theorem next_within {r s : Reading} {c : Char} (h : r.next c = some s) (n : Nat) :
    (r.within n).next c = some (s.within n) := by
  obtain ⟨k, place⟩ := r
  cases place with
  | escaped | literal =>
      cases h
      rfl
  | outside =>
      simp only [within, next] at h ⊢
      split_ifs at h ⊢
      · cases h
        rfl
      · cases h
        rfl
      · cases k with
        | zero => cases h
        | succ k =>
            cases h
            rfl
      · cases h
        rfl

/-- What can be read can also be read within further parentheses. -/
theorem read_within {r s : Reading} {cs : List Char} (h : r.read cs = some s) (n : Nat) :
    (r.within n).read cs = some (s.within n) := by
  induction cs generalizing r with
  | nil =>
      cases h
      rfl
  | cons c cs ih =>
      obtain ⟨q, hq, hs⟩ := Option.bind_eq_some_iff.mp h
      rw [read, next_within hq n]
      exact ih hs

end Reading

/-! ## Confined texts -/

/-- A text closes the parentheses and the literals that it opens, and no others. -/
def Confined (cs : List Char) : Prop :=
  Reading.read ⟨0, .outside⟩ cs = some ⟨0, .outside⟩

instance (cs : List Char) : Decidable (Confined cs) :=
  inferInstanceAs (Decidable (_ = _))

namespace Confined

/-- After a confined text outside literals, reading goes on as if the text were not there. -/
theorem read_append {cs : List Char} (h : Confined cs) (n : Nat) (rest : List Char) :
    Reading.read ⟨n, .outside⟩ (cs ++ rest) = Reading.read ⟨n, .outside⟩ rest := by
  have hn : Reading.read ⟨n, .outside⟩ cs = some ⟨n, .outside⟩ := Reading.read_within h n
  rw [Reading.read_append, hn]
  rfl

theorem nil : Confined [] := rfl

theorem append {cs ds : List Char} (hc : Confined cs) (hd : Confined ds) :
    Confined (cs ++ ds) := by
  rw [Confined, hc.read_append]
  exact hd

theorem parenthesized {cs : List Char} (h : Confined cs) : Confined (parenthesized cs) := by
  have hclose := h.read_append 1 [')']
  exact hclose

/-- Characters that open and close nothing are confined. -/
theorem of_plain {cs : List Char} (h : ∀ c ∈ cs, c ∉ ['\'', '(', ')']) : Confined cs := by
  induction cs with
  | nil => exact nil
  | cons c cs ih =>
      have hc := h c (by simp)
      simp only [List.mem_cons, List.not_mem_nil, or_false, not_or] at hc
      rw [Confined, Reading.read, Reading.next, if_neg hc.1, if_neg hc.2.1, if_neg hc.2.2]
      exact ih fun d hd => h d (List.mem_cons_of_mem c hd)

theorem intercalate {separator : List Char} (hs : Confined separator)
    {parts : List (List Char)} (h : ∀ cs ∈ parts, Confined cs) :
    Confined (separator.intercalate parts) := by
  induction parts with
  | nil => exact nil
  | cons cs parts ih =>
      obtain ⟨hc, hparts⟩ := List.forall_mem_cons.mp h
      cases parts with
      | nil => simpa using hc
      | cons ds parts =>
          rw [List.intercalate_cons_cons]
          exact (hc.append hs).append (ih hparts)

/-- Inside a literal an escaped character leads nowhere. -/
theorem read_literalChar (n : Nat) (c : Char) :
    Reading.read ⟨n, .literal⟩ (literalChar c) = some ⟨n, .literal⟩ := by
  unfold literalChar
  split_ifs with hc
  · rfl
  · obtain ⟨hbackslash, hquote⟩ := not_or.mp hc
    simp [Reading.read, Reading.next, hbackslash, hquote]

theorem textLiteral (cs : List Char) : Confined (textLiteral cs) := by
  have hchars : Reading.read ⟨0, .literal⟩ (cs.flatMap literalChar) =
      some ⟨0, .literal⟩ := by
    induction cs with
    | nil => rfl
    | cons c cs ih =>
        rw [List.flatMap_cons, Reading.read_append, read_literalChar]
        exact ih
  have hclosed : Reading.read ⟨0, .literal⟩ (cs.flatMap literalChar ++ ['\'']) =
      some ⟨0, .outside⟩ := by
    rw [Reading.read_append, hchars]
    rfl
  exact hclosed

/-- A name that is confined before two parentheses is confined. -/
theorem of_append_parentheses {cs : List Char} (h : Confined (cs ++ ['(', ')'])) :
    Confined cs := by
  rw [Confined, Reading.read_append] at h
  obtain ⟨⟨n, place⟩, hcs, hend⟩ := Option.bind_eq_some_iff.mp h
  rw [Confined, hcs, ← hend]
  cases place with
  | outside => rfl
  | literal | escaped => cases hend

end Confined

/-! ## The text of a filter -/

/-- The symbols between operands open and close nothing. -/
theorem confined_symbol {symbol : List Char} (h : symbol ∈ chainSymbols.map (·.2)) :
    Confined (' ' :: (symbol ++ [' '])) := by
  revert symbol
  decide

/-- An operator that stands between its operands opens and closes nothing. -/
theorem confined_of_form_chain {operator : String} {count : Nat} {symbol : List Char}
    (h : form operator count = .chain symbol) : Confined operator.toList := by
  have hplain : ∀ symbol ∈ chainSymbols.map (·.2),
      (Form.chain symbol).word.all (· ∉ ['\'', '(', ')']) = true := by decide
  have hfold : ∀ d ∈ ['\'', '(', ')'], foldChar d = d := List.all_iff_forall_prop.mp rfl
  have hform := formOf_form operator count
  rw [h] at hform
  cases hform with
  | chain hs ho =>
      refine .of_plain fun c hc hmem => ?_
      have hword : foldChar c ∈ (Form.chain symbol).word := ho ▸ List.mem_map_of_mem hc
      rw [hfold c hmem] at hword
      exact List.all_iff_forall_prop.mp (hplain _ hs) c hword hmem

theorem confined_applied {operator : String} {operands : List (List Char)}
    (ho : Confined operator.toList) (h : ∀ cs ∈ operands, Confined cs) :
    Confined (applied operator operands) := by
  have hform := formOf_form operator operands.length
  have hseparated : ∀ {parts : List (List Char)}, (∀ cs ∈ parts, Confined cs) →
      Confined (commaSeparated parts) := .intercalate (by decide)
  unfold applied
  split
  next symbol hchain =>
    rw [hchain] at hform
    cases hform with
    | chain hs => exact (Confined.intercalate (confined_symbol hs) h).parenthesized
  next a hnot =>
    exact (Confined.append (by decide) (h a (by simp))).parenthesized
  next a others hin =>
    obtain ⟨ha, hothers⟩ := List.forall_mem_cons.mp h
    exact ((ha.append (by decide)).append (hseparated hothers).parenthesized).parenthesized
  next a low high hbetween =>
    exact (((((h a (by simp)).append (by decide)).append (h low (by simp))).append
      (by decide)).append (h high (by simp))).parenthesized
  next a hnull => exact ((h a (by simp)).append (by decide)).parenthesized
  next a hnotnull => exact ((h a (by simp)).append (by decide)).parenthesized
  next => exact ho.append (hseparated h).parenthesized

/-- A filter over partition ids is confined if its operators are. -/
theorem OverIds.confined {f : Filter} (h : OverIds f)
    (ho : ∀ o ∈ f.operators, Confined o.toList) : Confined f.sqlChars := by
  induction h with
  | column => decide
  | constant typeName s => exact .textLiteral s.toList
  | call operator h ih =>
      rw [operators, operatorsIn_eq_flatMap] at ho
      rw [sqlChars, sqlParts_eq_map]
      obtain ⟨hoperator, hothers⟩ := List.forall_mem_cons.mp ho
      refine confined_applied hoperator fun cs hcs => ?_
      obtain ⟨f, hf, rfl⟩ := List.mem_map.mp hcs
      exact ih f hf fun o hmem => hothers o (List.mem_flatMap.mpr ⟨f, hf, hmem⟩)

/-- A filter of one call without operands is confined only if its operator is. -/
theorem confined_of_call {operator : String} (h : Confined (sqlChars (.call operator []))) :
    Confined operator.toList := by
  unfold sqlChars sqlParts applied at h
  split at h
  case h_1 symbol hchain => exact confined_of_form_chain hchain
  case h_7 => exact .of_append_parentheses h
  all_goals contradiction

/-! ## Filters in queries -/

theorem confined_limitClause (limit : Int) : Confined (TableId.limitClause limit).toList := by
  unfold TableId.limitClause
  split_ifs with h
  · obtain ⟨n, rfl⟩ := Int.eq_ofNat_of_zero_le h.le
    rw [String.toList_append, String.toList_ofList (l := Text.intDigits n)]
    have hparentheses : ∀ c ∈ ['\'', '(', ')'], c.isDigit = false :=
      List.all_iff_forall_prop.mp rfl
    refine .append (by decide) (.of_plain fun c hc hmem => ?_)
    have hdigit : c.isDigit = true := Text.isDigit_of_mem_natDigits hc
    rw [hparentheses c hmem] at hdigit
    cases hdigit
  · exact .nil

/-- A query is confined if its condition is, and if the query for all partitions is. -/
theorem confined_query {id : TableId} (hid : Confined id.baseQuery.toList) {condition : String}
    (h : Confined condition.toList) (limit : Int) :
    Confined (id.query (some condition) limit).toList := by
  have hclause : Confined (TableId.conditionClause (some condition)).toList := by
    rw [TableId.conditionClause, String.toList_append]
    exact .append (by decide) h
  rw [TableId.query, String.toList_append, String.toList_append]
  exact (hid.append hclause).append (confined_limitClause limit)

/-! ## Decoded filters -/

mutual

/-- No operator of a filter that a document describes is empty. -/
theorem operator_ne_of_describes : ∀ {v : Value} {f : Filter}, Describes v f →
    ∀ o ∈ f.operators, o ≠ ""
  | _, _, .call _ _ hne hc _ =>
      List.forall_mem_cons.mpr ⟨hne, operator_ne_of_tellsOperands hc⟩
  | _, _, .column .. | _, _, .constant .. => by simp [operators]

theorem operator_ne_of_tellsOperands : ∀ {es : List (String × Value)} {fs : List Filter},
    TellsOperands es fs → ∀ o ∈ operatorsIn fs, o ≠ ""
  | _, _, .absent _ => by simp [operatorsIn]
  | _, _, .present _ hs => operator_ne_of_describesAll hs

theorem operator_ne_of_describesAll : ∀ {vs : List Value} {fs : List Filter},
    DescribesAll vs fs → ∀ o ∈ operatorsIn fs, o ≠ ""
  | _, _, .nil => by simp [operatorsIn]
  | _, _, .cons h hs => by
      rw [operatorsIn]
      exact List.forall_mem_append.mpr
        ⟨operator_ne_of_describes h, operator_ne_of_describesAll hs⟩

end

theorem decode_encode_call {operator : String} (h : operator ≠ "") :
    decode (encode (.call operator [])).toUTF8 = .ok (.call operator []) :=
  decode_encode_of_finite (.call h (by simp)) rfl (Nat.le_of_ble_eq_true rfl)

/-- **A filter can break out of its place only through the name of an operator.** The
filters with certain operators that can be decoded and carried over are all confined, and
leave the queries they stand in confined, if and only if the names of these operators are. -/
theorem confined_iff_operators (P : String → Prop) :
    (∀ bytes f g, decode bytes = .ok f → f.toPartitionId = .ok g → (∀ o ∈ f.operators, P o) →
      ∃ s, g.sql = .ok s ∧ Confined s.toList ∧
        ∀ (id : TableId) (limit : Int), Confined id.baseQuery.toList →
          Confined (id.query (some s) limit).toList) ↔
      ∀ o, o ≠ "" → P o → Confined o.toList := by
  constructor
  · intro h o hne ho
    obtain ⟨s, hs, hc, -⟩ := h _ _ _ (decode_encode_call hne) rfl
      (by simpa [operators, operatorsIn])
    cases hs
    rw [String.toList_ofList] at hc
    exact confined_of_call hc
  · intro h bytes f g hf hg ho
    have hread := (decode_eq bytes).1 f |>.mp hf
    obtain ⟨v, -, hv⟩ := readBytes_eq_valid_iff.mp hread
    have hoperators : ∀ o ∈ g.operators, Confined o.toList := by
      rw [operators_of_toPartitionId f hg]
      exact fun o hmem => h o (operator_ne_of_describes hv o hmem) (ho o hmem)
    have hi := overIds_of_toPartitionId f hg
    have hc : Confined (String.ofList g.sqlChars).toList := by
      rw [String.toList_ofList]
      exact hi.confined hoperators
    exact ⟨_, hi.sql_eq, hc, fun id limit hid => confined_query hid hc limit⟩

/-- The name of an operator can close the parenthesis around a condition and open another,
which puts a disjunction beside the condition on the table. -/
theorem operator_breaks_out :
    let f := call "x) OR (y" []
    let id : TableId := ⟨⟨"p", by decide⟩, ⟨"d", by decide⟩, ⟨"t", by decide⟩⟩
    decode f.encode.toUTF8 = .ok f ∧ f.toPartitionId = .ok f ∧ f.sql = .ok "x) OR (y()" ∧
      ¬ Confined "x) OR (y()".toList ∧
      id.filteredQuery (some f) (-1) = .ok
        ("SELECT partition_id FROM `p.d.INFORMATION_SCHEMA.PARTITIONS` " ++
          "WHERE table_name = 't' AND x) OR (y()") := by
  intro f id
  exact ⟨decode_encode_call (by decide), rfl, rfl, by decide, rfl⟩

end LinkedTables.Filter
