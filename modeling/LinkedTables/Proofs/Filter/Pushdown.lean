import LinkedTables.Proofs.Filter.Truth

set_option autoImplicit false

/-! # What is lost when a filter is carried over

A filter over partition values becomes a filter over partition ids by taking the dashes out
of its constants. Calls look at nothing but the order of texts (`tested_map`), so that the
truth of a filter survives whenever the order of its texts does: `Selects.sameTruth`.

With dates for constants it always survives. With constants of any kind it need not, and
then partitions that the filter selects may be left out of the answer. The sets of
constants for which this cannot happen are those that keep their order among the dates.
-/

namespace LinkedTables.Filter

/-! ## Carrying over, node by node -/

theorem toPartitionIds_eq_ok_iff {fs gs : List Filter} :
    toPartitionIds fs = .ok gs ↔ List.Forall₂ (fun f g => toPartitionId f = .ok g) fs gs := by
  induction fs generalizing gs with
  | nil =>
      rw [toPartitionIds, List.forall₂_nil_left_iff, Except.ok.injEq]
      exact eq_comm
  | cons f fs ih =>
      rw [toPartitionIds, List.forall₂_cons_left_iff]
      constructor
      · intro h
        split at h
        · cases h
        next g hg =>
          split at h
          · cases h
          next gs' hgs =>
            cases h
            exact ⟨g, gs', hg, ih.mp hgs, rfl⟩
      · rintro ⟨g, gs', hg, hgs, rfl⟩
        rw [hg, ih.mpr hgs]

theorem toPartitionId_call_eq_ok_iff {operator : String} {fs : List Filter} {g : Filter} :
    toPartitionId (call operator fs) = .ok g ↔
      ∃ gs, toPartitionIds fs = .ok gs ∧ g = call operator gs := by
  rw [toPartitionId]
  cases toPartitionIds fs with
  | error e => simp
  | ok gs => simp [eq_comm]

/-- A list can be carried over if each of its filters can. -/
theorem exists_toPartitionIds {fs : List Filter} (h : ∀ f ∈ fs, ∃ g, toPartitionId f = .ok g) :
    ∃ gs, toPartitionIds fs = .ok gs := by
  induction fs with
  | nil => exact ⟨[], rfl⟩
  | cons f fs ih =>
      obtain ⟨g, hg⟩ := h f (by simp)
      obtain ⟨gs, hgs⟩ := ih fun x hx => h x (by simp [hx])
      exact ⟨g :: gs, toPartitionIds_eq_ok_iff.mpr (.cons hg (toPartitionIds_eq_ok_iff.mp hgs))⟩

theorem Operand.exists_toPartitionId {P : String → Prop} {a : Filter} (h : Operand P a) :
    ∃ g, toPartitionId a = .ok g := by
  cases h with
  | column name => exact ⟨_, rfl⟩
  | constant typeName hs => exact ⟨_, rfl⟩

theorem exists_toPartitionId_call {operator : String} {fs : List Filter}
    (h : ∀ f ∈ fs, ∃ g, toPartitionId f = .ok g) :
    ∃ g, toPartitionId (call operator fs) = .ok g := by
  obtain ⟨gs, hgs⟩ := exists_toPartitionIds h
  exact ⟨call operator gs, toPartitionId_call_eq_ok_iff.mpr ⟨gs, hgs, rfl⟩⟩

/-- Filters that select can be carried over. -/
theorem Selects.exists_toPartitionId {P : String → Prop} {f : Filter} (h : Selects P f) :
    ∃ g, toPartitionId f = .ok g := by
  induction h with
  | comparison _ _ h | membership _ h | range _ h | isNull _ h | isNotNull _ h =>
      exact exists_toPartitionId_call fun x hx => (h x hx).exists_toPartitionId
  | conjunction _ _ ih | disjunction _ _ ih | negation _ _ ih => exact exists_toPartitionId_call ih

/-! ## Tests of texts -/

theorem comparison?_withoutDashes {S : String → Prop} (hS : KeepsOrder S) {symbol : List Char}
    {holds : String → String → Bool} (hsym : comparison? symbol = some holds) {a b : String}
    (ha : S a) (hb : S b) : holds (withoutDashes a) (withoutDashes b) = holds a b := by
  have hlt := hS a b ha hb
  have hgt := hS b a hb ha
  have heq := hS.eq_iff ha hb
  -- The other comparisons are these three or their negations.
  have hle : withoutDashes a ≤ withoutDashes b ↔ a ≤ b := by
    rw [← not_lt, hgt, not_lt]
  have hge : withoutDashes b ≤ withoutDashes a ↔ b ≤ a := by
    rw [← not_lt, hlt, not_lt]
  unfold comparison? at hsym
  split at hsym <;> cases hsym <;> simp only [hlt, hgt, heq, hle, hge, ne_eq]

/-- **Tests look at the order of texts only.** -/
theorem tested_map {S : String → Prop} (hS : KeepsOrder S) (form : Form) {ts : List String}
    (h : ∀ t ∈ ts, S t) : tested form (ts.map withoutDashes) = tested form ts := by
  cases form with
  | chain symbol =>
      match ts, h with
      | [a, b], h =>
          have ha : S a := h a (by simp)
          have hb : S b := h b (by simp)
          simp only [tested, List.map_cons, List.map_nil]
          cases hsym : comparison? symbol with
          | none => rfl
          | some holds =>
              rw [Option.map_some, Option.map_some, comparison?_withoutDashes hS hsym ha hb]
      | [], _ | [_], _ | _ :: _ :: _ :: _, _ => rfl
  | membership =>
      match ts, h with
      | [], _ => rfl
      | a :: others, h =>
          have hmem : withoutDashes a ∈ others.map withoutDashes ↔ a ∈ others := by
            rw [List.mem_map]
            constructor
            · rintro ⟨b, hb, he⟩
              have hab := (hS.eq_iff (h b (by simp [hb])) (h a (by simp))).mp he
              rwa [← hab]
            · intro ha
              exact ⟨a, ha, rfl⟩
          simp only [tested, List.map_cons, hmem]
  | range =>
      match ts, h with
      | [a, low, high], h =>
          have hlow := hS a low (h a (by simp)) (h low (by simp))
          have hhigh := hS high a (h high (by simp)) (h a (by simp))
          simp only [tested, List.map_cons, List.map_nil, ← not_lt, hlow, hhigh]
      | [], _ | [_], _ | [_, _], _ | _ :: _ :: _ :: _ :: _, _ => rfl
  | nullTest negated =>
      match ts with
      | [_] | [] | _ :: _ :: _ => rfl
  | negation | application => rfl

/-! ## The two sides of a filter -/

/-- Columns with values from a set, and the column of ids with these values without their
dashes. -/
structure SamePartition (S : String → Prop) (columns ids : String → String) : Prop where
  /-- The values of the columns belong to the set. -/
  value : ∀ name, S (columns name)
  /-- The id is what a value is without its dashes. -/
  id : ∀ name, ids partitionIdColumn = withoutDashes (columns name)

/-- Both filters have a truth value, and it is the same. -/
def SameTruth (columns ids : String → String) (f g : Filter) : Prop :=
  ∃ b, truth? columns f = some b ∧ truth? ids g = some b

section

variable {P S : String → Prop} {columns ids : String → String}

theorem Operand.exists_text (h : SamePartition S columns ids) (hPS : ∀ s, P s → S s)
    {a g : Filter} (ha : Operand P a) (hg : toPartitionId a = .ok g) :
    ∃ t, S t ∧ operandText? columns a = some t ∧
      operandText? ids g = some (withoutDashes t) := by
  cases ha with
  | column name =>
      cases hg
      exact ⟨columns name, h.value name, rfl, congrArg some (h.id name)⟩
  | constant typeName hs =>
      cases hg
      exact ⟨_, hPS _ hs, rfl, rfl⟩

/-- The texts of the operands of a call on both sides. -/
theorem exists_texts (h : SamePartition S columns ids) (hPS : ∀ s, P s → S s)
    {as gs : List Filter} (ha : ∀ a ∈ as, Operand P a) (hg : toPartitionIds as = .ok gs) :
    ∃ ts, ts.length = as.length ∧ (∀ t ∈ ts, S t) ∧
      as.mapM (operandText? columns) = some ts ∧
      gs.mapM (operandText? ids) = some (ts.map withoutDashes) := by
  rw [toPartitionIds_eq_ok_iff] at hg
  -- By induction on the pairs of an operand and what it is carried over to.
  induction hg with
  | nil => exact ⟨[], rfl, by simp, rfl, rfl⟩
  | cons hag _ ih =>
      obtain ⟨t, ht, hta, htg⟩ := (ha _ (by simp)).exists_text h hPS hag
      obtain ⟨ts, hlen, hts, htas, htgs⟩ := ih fun x hx => ha x (by simp [hx])
      refine ⟨t :: ts, by simp [hlen], by simpa using ⟨ht, hts⟩, ?_, ?_⟩
      · rw [List.mapM_cons, hta, htas]
        rfl
      · rw [List.mapM_cons, htg, htgs]
        rfl

/-- The truth values of the operands of a call on both sides. -/
theorem exists_truths {fs gs : List Filter}
    (hf : ∀ f ∈ fs, ∀ g, toPartitionId f = .ok g → SameTruth columns ids f g)
    (hg : toPartitionIds fs = .ok gs) :
    ∃ bs, bs.length = fs.length ∧ truths? columns fs = some bs ∧ truths? ids gs = some bs := by
  rw [toPartitionIds_eq_ok_iff] at hg
  induction hg with
  | nil => exact ⟨[], rfl, rfl, rfl⟩
  | cons hfg _ ih =>
      obtain ⟨b, hbf, hbg⟩ := hf _ (by simp) _ hfg
      obtain ⟨bs, hlen, hbfs, hbgs⟩ := ih fun x hx => hf x (by simp [hx])
      refine ⟨b :: bs, by simp [hlen], ?_, ?_⟩
      · rw [truths?, hbf, hbfs]
        rfl
      · rw [truths?, hbg, hbgs]
        rfl

theorem length_eq_of_toPartitionIds {fs gs : List Filter} (h : toPartitionIds fs = .ok gs) :
    gs.length = fs.length :=
  (toPartitionIds_eq_ok_iff.mp h).length_eq.symm

/-- A call that tests texts has the same truth value on both sides. -/
theorem sameTruth_tested (hS : KeepsOrder S) (h : SamePartition S columns ids)
    (hPS : ∀ s, P s → S s) {operator : String} {as : List Filter} {test : Form}
    (ha : ∀ a ∈ as, Operand P a) (hform : form operator as.length = test)
    (hjoins : test.joins = false)
    (hsome : ∀ ts : List String, ts.length = as.length → ∃ b, tested test ts = some b)
    {g : Filter} (hg : toPartitionId (call operator as) = .ok g) :
    SameTruth columns ids (call operator as) g := by
  obtain ⟨gs, hgs, rfl⟩ := toPartitionId_call_eq_ok_iff.mp hg
  obtain ⟨ts, hlen, hts, htas, htgs⟩ := exists_texts h hPS ha hgs
  obtain ⟨b, hb⟩ := hsome ts hlen
  refine ⟨b, ?_, ?_⟩
  · simp only [truth?, hform, hjoins, htas, Bool.false_eq_true, if_false, Option.bind_some, hb]
  · simp only [truth?, length_eq_of_toPartitionIds hgs, hform, hjoins, htgs,
      Bool.false_eq_true, if_false, Option.bind_some, tested_map hS _ hts, hb]

/-- A call that joins filters has the same truth value on both sides. -/
theorem sameTruth_joined {operator : String} {fs : List Filter} {join : Form}
    (hf : ∀ f ∈ fs, ∀ g, toPartitionId f = .ok g → SameTruth columns ids f g)
    (hform : form operator fs.length = join) (hjoins : join.joins = true)
    (hsome : ∀ bs : List Bool, bs.length = fs.length → ∃ b, joined join bs = some b)
    {g : Filter} (hg : toPartitionId (call operator fs) = .ok g) :
    SameTruth columns ids (call operator fs) g := by
  obtain ⟨gs, hgs, rfl⟩ := toPartitionId_call_eq_ok_iff.mp hg
  obtain ⟨bs, hlen, hbfs, hbgs⟩ := exists_truths hf hgs
  obtain ⟨b, hb⟩ := hsome bs hlen
  refine ⟨b, ?_, ?_⟩
  · simp only [truth?, hform, hjoins, hbfs, if_true, Option.bind_some, hb]
  · simp only [truth?, length_eq_of_toPartitionIds hgs, hform, hjoins, hbgs, if_true,
      Option.bind_some, hb]

/-- A test for null has a truth value on every text. -/
theorem exists_tested_nullTest (negated : Bool) {ts : List String} (h : ts.length = 1) :
    ∃ b, tested (.nullTest negated) ts = some b := by
  obtain ⟨x, rfl⟩ := List.length_eq_one_iff.mp h
  exact ⟨negated, rfl⟩

/-- Conjunctions and disjunctions of one filter or more have a truth value. -/
theorem exists_joined_chain {symbol : List Char} (hs : symbol = andSymbol ∨ symbol = orSymbol)
    {n : Nat} {bs : List Bool} (h : bs.length = n + 1) :
    ∃ b, joined (.chain symbol) bs = some b := by
  obtain ⟨b, bs, rfl⟩ := List.exists_cons_of_length_eq_add_one h
  rcases hs with rfl | rfl
  · exact ⟨(b :: bs).all id, by rw [joined, if_pos rfl]⟩
  · exact ⟨(b :: bs).any id, by rw [joined, if_neg (by decide), if_pos rfl]⟩

/-- **Where the order of its texts is kept, the truth of a filter is.** -/
theorem Selects.sameTruth (hS : KeepsOrder S) (h : SamePartition S columns ids)
    (hPS : ∀ s, P s → S s) {f : Filter} (hf : Selects P f) :
    ∀ g, toPartitionId f = .ok g → SameTruth columns ids f g := by
  -- Each constructor fixes the form of the call and the number of its operands, by which
  -- the form has a truth value.
  induction hf with
  | comparison hw ho ha =>
      obtain ⟨symbol, holds, hword, hjoins, hcmp⟩ := form_comparison hw
      have hform := (form_of_isWord ho 2).trans hword
      intro g
      refine sameTruth_tested hS h hPS ha hform hjoins fun ts hts => ?_
      obtain ⟨x, y, rfl⟩ := List.length_eq_two.mp hts
      exact ⟨holds x y, by rw [tested, hcmp, Option.map_some]⟩
  | membership ho ha =>
      intro g
      refine sameTruth_tested hS h hPS ha (form_of_isWord ho _) rfl fun ts hts => ?_
      obtain ⟨x, xs, rfl⟩ := List.exists_cons_of_length_eq_add_one hts
      exact ⟨decide (x ∈ xs), rfl⟩
  | range ho ha =>
      intro g
      refine sameTruth_tested hS h hPS ha (form_of_isWord ho 3) rfl fun ts hts => ?_
      obtain ⟨x, low, high, rfl⟩ := List.length_eq_three.mp hts
      exact ⟨decide (low ≤ x) && decide (x ≤ high), rfl⟩
  | isNull ho ha =>
      intro g
      exact sameTruth_tested hS h hPS ha (form_of_isWord ho 1) rfl fun ts hts =>
        exists_tested_nullTest false hts
  | isNotNull ho ha =>
      intro g
      exact sameTruth_tested hS h hPS ha (form_of_isWord ho 1) rfl fun ts hts =>
        exists_tested_nullTest true hts
  | conjunction ho _ ih =>
      intro g
      exact sameTruth_joined ih (form_of_isWord ho _) rfl fun bs hbs =>
        exists_joined_chain (Or.inl rfl) hbs
  | disjunction ho _ ih =>
      intro g
      exact sameTruth_joined ih (form_of_isWord ho _) rfl fun bs hbs =>
        exists_joined_chain (Or.inr rfl) hbs
  | negation ho _ ih =>
      intro g
      refine sameTruth_joined ih (form_of_isWord ho 1) rfl fun bs hbs => ?_
      obtain ⟨b, rfl⟩ := List.length_eq_one_iff.mp hbs
      exact ⟨!b, rfl⟩

end

/-! ## Filters over dates -/

theorem samePartition_of_spells {id : String} {d : Date} (hid : DayId.Spells id d)
    (hy : 1000 ≤ d.year) {S : String → Prop} (hS : ∀ s, DayValue s → S s)
    {columns ids : String → String} (hc : ∀ name, columns name = d.dashed)
    (hi : ids partitionIdColumn = id) : SamePartition S columns ids where
  value name := hS _ (hc name ▸ ⟨id, d, hid, hy, rfl⟩)
  id name := by rw [hi, hc, withoutDashes_dashed hid hy]

/-- **Carrying over keeps the meaning of filters over dates.** A filter whose constants are
dates can be carried over, and selects the same days before and after. -/
theorem sameTruth_of_dates {f : Filter} (hf : Selects DateShaped f) :
    ∃ g, f.toPartitionId = .ok g ∧
      ∀ id d, DayId.Spells id d → 1000 ≤ d.year →
        ∃ v, DayId.toValue id = .ok v ∧
          ∀ columns ids, (∀ name, columns name = v) → ids partitionIdColumn = id →
            SameTruth columns ids f g := by
  obtain ⟨g, hg⟩ := hf.exists_toPartitionId
  refine ⟨g, hg, fun id d hid hy => ⟨d.dashed, DayId.toValue_of_spells hid, ?_⟩⟩
  intro columns ids hc hi
  have hS : KeepsOrder DateShaped :=
    keepsOrder_dateAligned.mono fun s hs => hs.dateAligned
  have hsame : SamePartition DateShaped columns ids :=
    samePartition_of_spells hid hy (fun s hs => hs.dateShaped) hc hi
  exact hf.sameTruth hS hsame (fun s hs => hs) g hg

/-- The first of March of a leap year is selected from 2023 on and is none of the last days
of February. -/
theorem march_selected_on_both_sides :
    let f := call "AND" [
      call ">=" [column "dt", constant "string" (.text "2023-01-01")],
      call "not" [call "In" [column "dt", constant "date" (.text "2023-02-28"),
        constant "date" (.text "2024-02-29")]]]
    Selects DateShaped f ∧ DayId.Spells "20240301" ⟨2024, 3, 1⟩ ∧
      ∃ g, f.toPartitionId = .ok g ∧ truth? (fun _ => "2024-03-01") f = some true ∧
        truth? (fun _ => "20240301") g = some true := by
  intro f
  have hdate : ∀ s ∈ ["2023-01-01", "2023-02-28", "2024-02-29"], DateShaped s := by
    intro s hs
    simp only [List.mem_cons, List.not_mem_nil, or_false] at hs
    rcases hs with rfl | rfl | rfl <;> exact ⟨_, _, _, _, _, _, _, _, rfl, List.all_eq_true.mp rfl⟩
  have hconst : ∀ type, ∀ s ∈ ["2023-01-01", "2023-02-28", "2024-02-29"],
      Operand DateShaped (constant type (.text s)) := fun type s hs => .constant type (hdate s hs)
  have hf : Selects DateShaped f := by
    refine .conjunction rfl fun x hx => ?_
    simp only [List.mem_cons, List.not_mem_nil, or_false] at hx
    rcases hx with rfl | rfl
    · refine .comparison (show ">=" ∈ comparisonWords by decide) rfl fun y hy => ?_
      simp only [List.mem_cons, List.not_mem_nil, or_false] at hy
      rcases hy with rfl | rfl
      · exact .column "dt"
      · exact hconst _ _ (by decide)
    · refine .negation rfl fun y hy => ?_
      obtain rfl := List.mem_singleton.mp hy
      refine .membership rfl fun z hz => ?_
      simp only [List.mem_cons, List.not_mem_nil, or_false] at hz
      rcases hz with rfl | rfl | rfl
      · exact .column "dt"
      · exact hconst _ _ (by decide)
      · exact hconst _ _ (by decide)
  have hid : DayId.Spells "20240301" ⟨2024, 3, 1⟩ :=
    ⟨rfl, List.all_eq_true.mp rfl, by decide, by decide, by decide, by decide⟩
  obtain ⟨g, hg, hdays⟩ := sameTruth_of_dates hf
  obtain ⟨v, hv, hsame⟩ := hdays "20240301" ⟨2024, 3, 1⟩ hid (by decide)
  have hvalue : v = "2024-03-01" := by
    rw [DayId.toValue_of_spells hid] at hv
    exact (Except.ok.inj hv).symm
  have htrue : truth? (fun _ => "2024-03-01") f = some true := rfl
  obtain ⟨b, hbf, hbg⟩ := hsame (fun _ => v) (fun _ => "20240301") (fun _ => rfl) rfl
  rw [hvalue, htrue] at hbf
  exact ⟨hf, hid, g, hg, htrue, hbg.trans hbf.symm⟩

/-! ## Filters over any texts -/

/-- A filter can be carried over, and of the days from the year 1000 on that it selects
none is lost. -/
def NeverDrops (f : Filter) : Prop :=
  ∃ g, f.toPartitionId = .ok g ∧
    ∀ id d, DayId.Spells id d → 1000 ≤ d.year →
      ∃ v, DayId.toValue id = .ok v ∧
        ∀ columns ids, (∀ name, columns name = v) → ids partitionIdColumn = id →
          truth? columns f = some true → truth? ids g = some true

/-- The tenth month sorts after `2023-1-5` as a text, but its ids do not sort after the
constant without its dashes. -/
theorem october_dropped :
    let f := call ">" [column "dt", constant "string" (.text "2023-1-5")]
    Selects (fun _ => True) f ∧
      (∃ g, f.toPartitionId = .ok g ∧ DayId.Spells "20231015" ⟨2023, 10, 15⟩ ∧
        DayId.toValue "20231015" = .ok "2023-10-15" ∧
        truth? (fun _ => "2023-10-15") f = some true ∧
        truth? (fun _ => "20231015") g = some false) ∧
      ¬ NeverDrops f := by
  intro f
  have hid : DayId.Spells "20231015" ⟨2023, 10, 15⟩ :=
    ⟨rfl, List.all_eq_true.mp rfl, by decide, by decide, by decide, by decide⟩
  have hvalue : DayId.toValue "20231015" = .ok "2023-10-15" := DayId.toValue_of_spells hid
  have hg : f.toPartitionId =
      .ok (call ">" [column partitionIdColumn, constant "string" (.text "202315")]) := rfl
  have htrue : truth? (fun _ => "2023-10-15") f = some true := rfl
  have hfalse : truth? (fun _ => "20231015")
      (call ">" [column partitionIdColumn, constant "string" (.text "202315")]) =
        some false := rfl
  refine ⟨.comparison (show ">" ∈ comparisonWords by decide) rfl fun x hx => ?_,
    ⟨_, hg, hid, hvalue, htrue, hfalse⟩, ?_⟩
  · simp only [List.mem_cons, List.not_mem_nil, or_false] at hx
    rcases hx with rfl | rfl
    · exact .column "dt"
    · exact .constant "string" trivial
  · rintro ⟨g, hg', hdays⟩
    obtain rfl := Except.ok.inj (hg.symm.trans hg')
    obtain ⟨v, hv, hkept⟩ := hdays "20231015" ⟨2023, 10, 15⟩ hid (by decide)
    obtain rfl := Except.ok.inj (hvalue.symm.trans hv)
    have hafter := hkept (fun _ => "2023-10-15") (fun _ => "20231015") (fun _ => rfl) rfl htrue
    rw [hfalse] at hafter
    cases hafter

theorem neverDrops_of_keepsOrder {P : String → Prop}
    (h : KeepsOrder fun s => DayValue s ∨ P s) {f : Filter} (hf : Selects P f) :
    NeverDrops f := by
  obtain ⟨g, hg⟩ := hf.exists_toPartitionId
  refine ⟨g, hg, fun id d hid hy => ⟨d.dashed, DayId.toValue_of_spells hid, ?_⟩⟩
  intro columns ids hc hi htrue
  have hsame : SamePartition (fun s => DayValue s ∨ P s) columns ids :=
    samePartition_of_spells hid hy (fun s hs => .inl hs) hc hi
  obtain ⟨b, hbf, hbg⟩ := hf.sameTruth h hsame (fun s hs => .inr hs) g hg
  rw [hbg, ← hbf, htrue]

/-! ### Constants that do not keep their order

If two texts do not keep their order, then one of the two filters that compare them, by
`<` or by `>=`, is true before and false after. -/

/-- The truth of the comparison of two texts. -/
theorem truth?_comparison {columns : String → String} {a b : Filter} {s t : String}
    (ha : operandText? columns a = some s) (hb : operandText? columns b = some t)
    {word : String} {symbol : List Char} {holds : String → String → Bool}
    (hform : form word 2 = .chain symbol) (hjoins : (Form.chain symbol).joins = false)
    (hcmp : comparison? symbol = some holds) :
    truth? columns (call word [a, b]) = some (holds s t) := by
  simp [truth?, hform, hjoins, ha, hb, tested, hcmp]

theorem lt_iff_of_neverDrops {P : String → Prop} (hall : ∀ f, Selects P f → NeverDrops f)
    {id : String} {d : Date} (hid : DayId.Spells id d) (hy : 1000 ≤ d.year) {a b : Filter}
    (ha : Operand P a) (hb : Operand P b) {s t : String}
    (hs : operandText? (fun _ => d.dashed) a = some s)
    (ht : operandText? (fun _ => d.dashed) b = some t) :
    withoutDashes s < withoutDashes t ↔ s < t := by
  have hsame : SamePartition (fun _ => True) (fun _ => d.dashed) (fun _ => id) :=
    samePartition_of_spells hid hy (fun _ _ => trivial) (fun _ => rfl) rfl
  obtain ⟨ga, hga⟩ := ha.exists_toPartitionId
  obtain ⟨gb, hgb⟩ := hb.exists_toPartitionId
  have hs' : operandText? (fun _ => id) ga = some (withoutDashes s) := by
    obtain ⟨s', -, h, h'⟩ := ha.exists_text hsame (fun _ _ => trivial) hga
    rwa [Option.some.inj (hs.symm.trans h)]
  have ht' : operandText? (fun _ => id) gb = some (withoutDashes t) := by
    obtain ⟨t', -, h, h'⟩ := hb.exists_text hsame (fun _ _ => trivial) hgb
    rwa [Option.some.inj (ht.symm.trans h)]
  have hpair : ∀ x ∈ [a, b], Operand P x := by
    intro x hx
    simp only [List.mem_cons, List.not_mem_nil, or_false] at hx
    rcases hx with rfl | rfl
    · exact ha
    · exact hb
  -- What a comparison says before it also says after.
  have hkept : ∀ {word symbol holds}, word ∈ comparisonWords → form word 2 = .chain symbol →
      (Form.chain symbol).joins = false → comparison? symbol = some holds →
      holds s t = true → holds (withoutDashes s) (withoutDashes t) = true := by
    intro word symbol holds hw hform hjoins hcmp htrue
    obtain ⟨g, hg, hdays⟩ := hall _ (.comparison hw rfl hpair)
    obtain ⟨v, hv, hdrop⟩ := hdays id d hid hy
    obtain rfl : d.dashed = v := Except.ok.inj ((DayId.toValue_of_spells hid).symm.trans hv)
    have hgs : toPartitionIds [a, b] = .ok [ga, gb] :=
      toPartitionIds_eq_ok_iff.mpr (.cons hga (.cons hgb .nil))
    obtain ⟨gs, hgs', rfl⟩ := toPartitionId_call_eq_ok_iff.mp hg
    obtain rfl : [ga, gb] = gs := Except.ok.inj (hgs.symm.trans hgs')
    have hafter := hdrop _ (fun _ => id) (fun _ => rfl) rfl
      ((truth?_comparison hs ht hform hjoins hcmp).trans (congrArg some htrue))
    rw [truth?_comparison hs' ht' hform hjoins hcmp] at hafter
    exact Option.some.inj hafter
  constructor
  · intro hlt
    -- Otherwise `>=` is true before, and so it would be true after.
    by_contra hge
    have := hkept (show ">=" ∈ comparisonWords by decide) rfl rfl rfl
      (decide_eq_true (not_lt.mp hge))
    exact not_le_of_gt hlt (of_decide_eq_true this)
  · intro hlt
    have := hkept (show "<" ∈ comparisonWords by decide) rfl rfl rfl (decide_eq_true hlt)
    exact of_decide_eq_true this

theorem keepsOrder_of_neverDrops {P : String → Prop} (hall : ∀ f, Selects P f → NeverDrops f) :
    KeepsOrder fun s => DayValue s ∨ P s := by
  rintro s t (hs | hs) (ht | ht)
  · exact keepsOrder_dateAligned s t hs.dateShaped.dateAligned ht.dateShaped.dateAligned
  · obtain ⟨id, d, hid, hy, rfl⟩ := hs
    exact lt_iff_of_neverDrops hall hid hy (.column "dt") (.constant "string" ht) rfl rfl
  · obtain ⟨id, d, hid, hy, rfl⟩ := ht
    exact lt_iff_of_neverDrops hall hid hy (.constant "string" hs) (.column "dt") rfl rfl
  · -- No column is looked at, so any day will do.
    have hid : DayId.Spells "20230615" ⟨2023, 6, 15⟩ :=
      ⟨rfl, List.all_eq_true.mp rfl, by decide, by decide, by decide, by decide⟩
    exact lt_iff_of_neverDrops hall hid (by decide) (.constant "string" hs)
      (.constant "string" ht) rfl rfl

/-- **When nothing is lost.** No filter over constants of a set drops a day that it selects
if and only if taking out the dashes keeps the order of these constants among the values of
the days. Constants with the dashes of a date are such a set. -/
theorem neverDrops_iff_keepsOrder :
    (∀ P : String → Prop,
      (∀ f, Selects P f → NeverDrops f) ↔ KeepsOrder fun s => DayValue s ∨ P s) ∧
    ∀ f, Selects DateAligned f → NeverDrops f := by
  refine ⟨fun P => ⟨keepsOrder_of_neverDrops, fun h f hf => neverDrops_of_keepsOrder h hf⟩,
    fun f hf => neverDrops_of_keepsOrder ?_ hf⟩
  refine keepsOrder_dateAligned.mono fun s hs => ?_
  rcases hs with hs | hs
  · exact hs.dateShaped.dateAligned
  · exact hs

end LinkedTables.Filter
