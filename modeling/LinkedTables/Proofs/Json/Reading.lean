import LinkedTables.Proofs.Json.Leaves

set_option autoImplicit false

/-! # Reading documents

The reader of documents accepts exactly the documents of the grammar, and gives the value
that a document spells. A spelling is read if the bound of the reader is at least its
length: each value, each item and each member has a character of its own, so that the
bound never runs out before the text does.
-/

namespace LinkedTables.Json

/-! ## First characters -/

/-- The characters that close a value or divide it from the next. -/
def marks : List Char := [',', ':', ']', '}']

theorem mem_marks_iff {c : Char} : c ∈ marks ↔ c = ',' ∨ c = ':' ∨ c = ']' ∨ c = '}' := by
  simp [marks]

theorem noBlank_cons {c : Char} (hc : isBlank c = false) (cs : List Char) :
    NoBlank (c :: cs) := by
  rintro _ ⟨⟩
  exact hc

theorem skipBlanks_mark {ws : List Char} (hw : Blanks ws) (c : Char) (hc : c ∈ marks)
    (cs : List Char) : skipBlanks (ws ++ c :: cs) = c :: cs := by
  refine skipBlanks_append hw (noBlank_cons ?_ cs)
  rcases mem_marks_iff.mp hc with rfl | rfl | rfl | rfl <;> rfl

theorem noNumber_blanks {ws rest : List Char} (hw : Blanks ws) (hr : NoNumber rest) :
    NoNumber (ws ++ rest) := by
  cases ws with
  | nil => exact hr
  | cons w ws =>
      have hb : w = ' ' ∨ w = '\t' ∨ w = '\n' ∨ w = '\r' := by
        simpa [isBlank, or_assoc] using hw w (by simp)
      rintro _ ⟨⟩
      rcases hb with rfl | rfl | rfl | rfl <;> decide

theorem noNumber_mark {ws : List Char} (hw : Blanks ws) (c : Char) (hc : c ∈ marks)
    (cs : List Char) : NoNumber (ws ++ c :: cs) := by
  refine noNumber_blanks hw ?_
  rintro _ ⟨⟩
  rcases mem_marks_iff.mp hc with rfl | rfl | rfl | rfl <;> decide

/-- What an atom starts with is no blank, no quote and no bracket or brace. -/
theorem Atom.exists_head {cs : List Char} {v : Value} (h : Atom cs v) :
    ∃ c tail, cs = c :: tail ∧ isBlank c = false ∧ c ≠ '"' ∧ c ≠ '[' ∧ c ≠ '{' ∧ c ≠ ']' := by
  cases h with
  | number h =>
      obtain ⟨d, tail, rfl, hd⟩ := h.exists_digit
      refine ⟨d, tail, rfl, ?_⟩
      rw [← Bool.not_eq_true]
      refine ⟨fun hb => ?_, ?_, ?_, ?_, ?_⟩
      · have hb : d = ' ' ∨ d = '\t' ∨ d = '\n' ∨ d = '\r' := by simpa [isBlank, or_assoc] using hb
        rcases hb with rfl | rfl | rfl | rfl <;> simp at hd
      all_goals rintro rfl; simp at hd
  | _ => exact ⟨_, _, rfl, by decide⟩

theorem Spells.exists_head {cs : List Char} {v : Value} (h : Spells cs v) :
    ∃ c tail, cs = c :: tail ∧ isBlank c = false ∧ c ≠ ']' := by
  cases h with
  | atom h =>
      obtain ⟨c, tail, rfl, hb, _, _, _, hc⟩ := h.exists_head
      exact ⟨c, tail, rfl, hb, hc⟩
  | text h => cases h; exact ⟨_, _, rfl, by decide⟩
  | _ => exact ⟨_, _, rfl, by decide⟩

theorem SpellsItems.exists_head {cs : List Char} {vs : List Value} (h : SpellsItems cs vs) :
    ∃ c tail, cs = c :: tail ∧ isBlank c = false ∧ c ≠ ']' := by
  cases h with
  | last hv _ =>
      obtain ⟨c, tail, rfl, hb, hc⟩ := hv.exists_head
      exact ⟨c, _, rfl, hb, hc⟩
  | more hv _ _ _ =>
      obtain ⟨c, tail, rfl, hb, hc⟩ := hv.exists_head
      exact ⟨c, _, rfl, hb, hc⟩

theorem SpellsMembers.exists_head {cs : List Char} {es : List (String × Value)}
    (h : SpellsMembers cs es) : ∃ tail, cs = '"' :: tail := by
  cases h with
  | last hk _ _ _ _ => cases hk; exact ⟨_, rfl⟩
  | more hk _ _ _ _ _ _ => cases hk; exact ⟨_, rfl⟩

theorem Spells.noBlank {cs : List Char} {v : Value} (h : Spells cs v) (rest : List Char) :
    NoBlank (cs ++ rest) := by
  obtain ⟨c, tail, rfl, hb, _⟩ := h.exists_head
  exact noBlank_cons hb _

theorem SpellsItems.noBlank {cs : List Char} {vs : List Value} (h : SpellsItems cs vs)
    (rest : List Char) : NoBlank (cs ++ rest) := by
  obtain ⟨c, tail, rfl, hb, _⟩ := h.exists_head
  exact noBlank_cons hb _

theorem SpellsMembers.noBlank {cs : List Char} {es : List (String × Value)}
    (h : SpellsMembers cs es) (rest : List Char) : NoBlank (cs ++ rest) := by
  obtain ⟨tail, rfl⟩ := h.exists_head
  exact noBlank_cons (by decide) _

/-! ## Spellings are read -/

theorem value?_atom {bound : Nat} {cs rest : List Char} {v : Value} (h : Atom cs v)
    (hr : NoNumber rest) : value? (bound + 1) (cs ++ rest) = some (v, rest) := by
  have ha := atom?_append h hr
  obtain ⟨c, tail, rfl, _, hq, hl, hd, _⟩ := h.exists_head
  rw [List.cons_append] at ha ⊢
  rw [value?.eq_5 _ _ (by simp [hq]) (by simp [hl]) (by simp [hd]), ha]

theorem value?_text {bound : Nat} {cs rest : List Char} {s : String} (h : Quoted cs s) :
    value? (bound + 1) (cs ++ rest) = some (.text s, rest) := by
  cases h with
  | mk hb =>
      rw [List.cons_append, value?.eq_2, text?_append (.mk hb) rest]
      rfl

theorem value?_list {bound : Nat} {ws cs rest : List Char} {vs : List Value} (hw : Blanks ws)
    (h : SpellsItems cs vs) (hi : items? bound (cs ++ rest) = some (vs, rest)) :
    value? (bound + 1) ('[' :: (ws ++ (cs ++ rest))) = some (.list vs, rest) := by
  rw [value?.eq_3, skipBlanks_append hw (h.noBlank rest)]
  obtain ⟨c, tail, rfl, _, hc⟩ := h.exists_head
  split
  · rename_i hs
    cases hs
    contradiction
  · rw [hi]; rfl

theorem value?_dict {bound : Nat} {ws cs rest : List Char} {es : List (String × Value)}
    (hw : Blanks ws) (h : SpellsMembers cs es)
    (hm : members? bound (cs ++ rest) = some (es, rest)) :
    value? (bound + 1) ('{' :: (ws ++ (cs ++ rest))) = some (.dict es, rest) := by
  rw [value?.eq_4, skipBlanks_append hw (h.noBlank rest)]
  obtain ⟨tail, rfl⟩ := h.exists_head
  split
  · rename_i hs
    cases hs
  · rw [hm]; rfl

theorem items?_last {bound : Nat} {cs ws rest : List Char} {v : Value} (hw : Blanks ws)
    (h : value? bound (cs ++ (ws ++ ']' :: rest)) = some (v, ws ++ ']' :: rest)) :
    items? (bound + 1) (cs ++ (ws ++ ']' :: rest)) = some ([v], rest) := by
  rw [items?.eq_2, h]
  simp [skipBlanks_mark hw ']' (by decide)]

theorem items?_more {bound : Nat} {cs ws ws' items rest : List Char} {v : Value}
    {vs : List Value} (hw : Blanks ws) (hw' : Blanks ws') (hn : NoBlank (items ++ rest))
    (h : value? bound (cs ++ (ws ++ ',' :: (ws' ++ (items ++ rest)))) =
      some (v, ws ++ ',' :: (ws' ++ (items ++ rest))))
    (hi : items? bound (items ++ rest) = some (vs, rest)) :
    items? (bound + 1) (cs ++ (ws ++ ',' :: (ws' ++ (items ++ rest)))) =
      some (v :: vs, rest) := by
  rw [items?.eq_2, h]
  simp [skipBlanks_mark hw ',' (by decide), skipBlanks_append hw' hn, hi]

/-- A member is read by reading its key and its value; what then follows decides whether
another member is read. -/
theorem members?_member {bound : Nat} {ks ws ws' cs rest : List Char} {k : String} {v : Value}
    (hk : Quoted ks k) (hw : Blanks ws) (hw' : Blanks ws') (hn : NoBlank (cs ++ rest))
    (h : value? bound (cs ++ rest) = some (v, rest)) :
    members? (bound + 1) (ks ++ (ws ++ ':' :: (ws' ++ (cs ++ rest)))) =
      match skipBlanks rest with
      | '}' :: rest => some ([(k, v)], rest)
      | ',' :: cs => (members? bound (skipBlanks cs)).map fun (es, rest) => ((k, v) :: es, rest)
      | _ => none := by
  cases hk with
  | mk hb =>
      rw [List.cons_append, members?.eq_2, text?_append (.mk hb)]
      simp only [Option.bind_eq_bind, Option.bind_some, Option.map_eq_bind,
        skipBlanks_mark hw ':' (by decide), skipBlanks_append hw' hn, h]
      rfl

mutual

theorem Spells.value?_append {cs : List Char} {v : Value} (h : Spells cs v) {bound : Nat}
    {rest : List Char} (hb : cs.length ≤ bound) (hr : NoNumber rest) :
    value? bound (cs ++ rest) = some (v, rest) := by
  -- A value has a first character, so that the bound is not zero; its parts are shorter.
  obtain ⟨c, tail, hc, _⟩ := h.exists_head
  obtain ⟨bound, rfl⟩ : ∃ b, bound = b + 1 := ⟨bound - 1, by simp [hc] at hb; omega⟩
  cases h with
  | atom h => exact value?_atom h hr
  | text h => exact value?_text h
  | emptyList hw =>
      simp [value?.eq_3, skipBlanks_mark hw ']' (by decide)]
  | list hw h =>
      simp only [List.length_cons, List.length_append] at hb
      rw [List.cons_append, List.append_assoc]
      exact value?_list hw h (h.items?_append (by omega))
  | emptyDict hw =>
      simp [value?.eq_4, skipBlanks_mark hw '}' (by decide)]
  | dict hw h =>
      simp only [List.length_cons, List.length_append] at hb
      rw [List.cons_append, List.append_assoc]
      exact value?_dict hw h (h.members?_append (by omega))

theorem SpellsItems.items?_append {cs : List Char} {vs : List Value} (h : SpellsItems cs vs)
    {bound : Nat} {rest : List Char} (hb : cs.length ≤ bound) :
    items? bound (cs ++ rest) = some (vs, rest) := by
  obtain ⟨c, tail, hc, _⟩ := h.exists_head
  obtain ⟨bound, rfl⟩ : ∃ b, bound = b + 1 := ⟨bound - 1, by simp [hc] at hb; omega⟩
  cases h with
  | last hv hw =>
      simp only [List.length_append, List.length_singleton] at hb
      simp only [List.append_assoc, List.singleton_append]
      exact items?_last hw (hv.value?_append (by omega) (noNumber_mark hw ']' (by decide) rest))
  | more hv hw hw' h =>
      simp only [List.length_append, List.length_cons] at hb
      simp only [List.append_assoc, List.cons_append]
      exact items?_more hw hw' (h.noBlank rest)
        (hv.value?_append (by omega) (noNumber_mark hw ',' (by decide) _))
        (h.items?_append (by omega))

theorem SpellsMembers.members?_append {cs : List Char} {es : List (String × Value)}
    (h : SpellsMembers cs es) {bound : Nat} {rest : List Char} (hb : cs.length ≤ bound) :
    members? bound (cs ++ rest) = some (es, rest) := by
  obtain ⟨tail, hc⟩ := h.exists_head
  obtain ⟨bound, rfl⟩ : ∃ b, bound = b + 1 := ⟨bound - 1, by simp [hc] at hb; omega⟩
  cases h with
  | last hk hw hw' hv hu =>
      simp only [List.length_append, List.length_cons] at hb
      simp only [List.append_assoc, List.cons_append, List.nil_append]
      rw [members?_member hk hw hw' (hv.noBlank _)
        (hv.value?_append (by omega) (noNumber_mark hu '}' (by decide) rest)),
        skipBlanks_mark hu '}' (by decide)]
      rfl
  | more hk hw hw' hv hu hu' h =>
      simp only [List.length_append, List.length_cons] at hb
      have hm : members? bound (_ ++ rest) = _ := h.members?_append (by omega)
      simp only [List.append_assoc, List.cons_append]
      rw [members?_member hk hw hw' (hv.noBlank _)
        (hv.value?_append (by omega) (noNumber_mark hu ',' (by decide) _)),
        skipBlanks_mark hu ',' (by decide)]
      simp only [skipBlanks_append hu' (h.noBlank rest), hm]
      rfl

end

/-! ## What is read was spelled -/

/-- Whatever the readers with a bound take from the front of a text was spelled there. -/
structure ReadsSpellings (bound : Nat) : Prop where
  value {cs rest : List Char} {v : Value} (h : value? bound cs = some (v, rest)) :
    ∃ front, Spells front v ∧ cs = front ++ rest
  items {cs rest : List Char} {vs : List Value} (h : items? bound cs = some (vs, rest)) :
    ∃ front, SpellsItems front vs ∧ cs = front ++ rest
  members {cs rest : List Char} {es : List (String × Value)}
    (h : members? bound cs = some (es, rest)) :
    ∃ front, SpellsMembers front es ∧ cs = front ++ rest

theorem ReadsSpellings.value_succ {bound : Nat} (ih : ReadsSpellings bound)
    {cs rest : List Char} {v : Value} (h : value? (bound + 1) cs = some (v, rest)) :
    ∃ front, Spells front v ∧ cs = front ++ rest := by
  rw [value?.eq_def] at h
  simp only at h
  split at h
  · obtain ⟨⟨s, rest'⟩, ht, h⟩ := Option.map_eq_some_iff.mp h
    obtain ⟨rfl, rfl⟩ := Prod.mk.inj h
    obtain ⟨front, hq, rfl⟩ := exists_quoted ht
    exact ⟨_, .text hq, rfl⟩
  · -- After a bracket and blanks, the list is closed at once or has items.
    rename_i tail
    obtain ⟨ws, hw, htail⟩ := exists_blanks tail
    split at h
    · rename_i hs
      obtain ⟨rfl, rfl⟩ := Prod.mk.inj (Option.some.inj h)
      exact ⟨_, .emptyList hw, by rw [htail, hs]; simp⟩
    · obtain ⟨⟨vs, rest'⟩, hi, h⟩ := Option.map_eq_some_iff.mp h
      obtain ⟨rfl, rfl⟩ := Prod.mk.inj h
      obtain ⟨front, hf, hs⟩ := ih.items hi
      exact ⟨_, .list hw hf, by rw [htail, hs]; simp⟩
  · rename_i tail
    obtain ⟨ws, hw, htail⟩ := exists_blanks tail
    split at h
    · rename_i hs
      obtain ⟨rfl, rfl⟩ := Prod.mk.inj (Option.some.inj h)
      exact ⟨_, .emptyDict hw, by rw [htail, hs]; simp⟩
    · obtain ⟨⟨es, rest'⟩, hm, h⟩ := Option.map_eq_some_iff.mp h
      obtain ⟨rfl, rfl⟩ := Prod.mk.inj h
      obtain ⟨front, hf, hs⟩ := ih.members hm
      exact ⟨_, .dict hw hf, by rw [htail, hs]; simp⟩
  · obtain ⟨front, ha, rfl⟩ := exists_atom h
    exact ⟨front, .atom ha, rfl⟩

theorem ReadsSpellings.items_succ {bound : Nat} (ih : ReadsSpellings bound)
    {cs rest : List Char} {vs : List Value} (h : items? (bound + 1) cs = some (vs, rest)) :
    ∃ front, SpellsItems front vs ∧ cs = front ++ rest := by
  rw [items?.eq_2] at h
  simp only [Option.bind_eq_bind, Option.bind_eq_some_iff] at h
  obtain ⟨⟨v, cs₁⟩, hv, h⟩ := h
  obtain ⟨front, hf, rfl⟩ := ih.value hv
  obtain ⟨ws, hw, hcs⟩ := exists_blanks cs₁
  split at h
  · rename_i hs
    obtain ⟨rfl, rfl⟩ := Prod.mk.inj (Option.some.inj h)
    exact ⟨_, .last hf hw, by rw [hcs, hs]; simp⟩
  · rename_i cs₂ hs
    obtain ⟨⟨us, rest'⟩, hi, h⟩ := Option.bind_eq_some_iff.mp h
    obtain ⟨rfl, rfl⟩ := Prod.mk.inj (Option.some.inj h)
    obtain ⟨ws', hw', hcs'⟩ := exists_blanks cs₂
    obtain ⟨back, hb, hr⟩ := ih.items hi
    exact ⟨_, .more hf hw hw' hb, by rw [hcs, hs, hcs', hr]; simp⟩
  · cases h

theorem ReadsSpellings.members_succ {bound : Nat} (ih : ReadsSpellings bound)
    {cs rest : List Char} {es : List (String × Value)}
    (h : members? (bound + 1) cs = some (es, rest)) :
    ∃ front, SpellsMembers front es ∧ cs = front ++ rest := by
  rw [members?.eq_def] at h
  simp only at h
  -- The key, the colon, the value, and then a brace or a comma, with blanks between them.
  split at h
  · simp only [Option.bind_eq_bind, Option.bind_eq_some_iff] at h
    obtain ⟨⟨k, cs₁⟩, hk, h⟩ := h
    obtain ⟨ks, hks, rfl⟩ := exists_quoted hk
    obtain ⟨ws, hw, hcs₁⟩ := exists_blanks cs₁
    split at h
    · rename_i cs₂ hs₁
      obtain ⟨ws', hw', hcs₂⟩ := exists_blanks cs₂
      obtain ⟨⟨v, cs₃⟩, hv, h⟩ := Option.bind_eq_some_iff.mp h
      obtain ⟨vs, hvs, hs₂⟩ := ih.value hv
      obtain ⟨us, hu, hcs₃⟩ := exists_blanks cs₃
      split at h
      · rename_i hs₃
        obtain ⟨rfl, rfl⟩ := Prod.mk.inj (Option.some.inj h)
        exact ⟨_, .last hks hw hw' hvs hu, by rw [hcs₁, hs₁, hcs₂, hs₂, hcs₃, hs₃]; simp⟩
      · rename_i cs₄ hs₃
        obtain ⟨⟨es', rest'⟩, hm, h⟩ := Option.bind_eq_some_iff.mp h
        obtain ⟨rfl, rfl⟩ := Prod.mk.inj (Option.some.inj h)
        obtain ⟨us', hu', hcs₄⟩ := exists_blanks cs₄
        obtain ⟨back, hb, hr⟩ := ih.members hm
        exact ⟨_, .more hks hw hw' hvs hu hu' hb, by
          rw [hcs₁, hs₁, hcs₂, hs₂, hcs₃, hs₃, hcs₄, hr]; simp⟩
      · cases h
    · cases h
  · cases h

theorem readsSpellings (bound : Nat) : ReadsSpellings bound := by
  induction bound with
  | zero => exact ⟨by simp [value?], by simp [items?], by simp [members?]⟩
  | succ bound ih => exact ⟨ih.value_succ, ih.items_succ, ih.members_succ⟩

/-! ## Documents -/

/-- **The reader of documents accepts the grammar**: it gives a value for a text if and
only if the text spells it. -/
theorem document?_eq_some_iff {cs : List Char} {v : Value} :
    document? cs = some v ↔ Document cs v := by
  rw [document?]
  constructor
  · intro h
    split at h
    · rename_i u rest hu
      rw [Option.ite_none_right_eq_some] at h
      obtain ⟨he, h⟩ := h
      obtain rfl := Option.some.inj h
      obtain ⟨ws, hw, hcs⟩ := exists_blanks cs
      obtain ⟨front, hf, hs⟩ := (readsSpellings _).value hu
      obtain ⟨ws', hw', hr⟩ := exists_blanks rest
      rw [List.isEmpty_iff] at he
      rw [hcs, hs, hr, he, List.append_nil]
      exact .mk hw hf hw'
    · cases h
  · rintro ⟨hw, h, hw'⟩
    have hr : NoNumber (_ ++ []) := noNumber_blanks hw' (by rintro _ ⟨⟩)
    have hs : skipBlanks (_ ++ []) = [] := skipBlanks_append hw' (by rintro _ ⟨⟩)
    rw [List.append_nil] at hr hs
    -- The bound is the length of the whole text.
    rw [skipBlanks_append hw (h.noBlank _), h.value?_append ?_ hr]
    · simp only [hs, List.isEmpty_nil, if_true]
    · simp only [List.length_append]
      omega

theorem fromUTF8?_eq_some_iff {bytes : ByteArray} {s : String} :
    String.fromUTF8? bytes = some s ↔ bytes = s.toUTF8 := by
  rw [String.fromUTF8?, Option.dite_none_right_eq_some, String.toUTF8_eq_toByteArray]
  constructor
  · rintro ⟨h, hs⟩
    rw [← Option.some.inj hs]
    rfl
  · rintro rfl
    exact ⟨s.isValidUTF8, rfl⟩

theorem parse?_eq_some_iff {s : String} {v : Value} :
    parse? s = some v ↔ Document s.toList v ∧ v.depth ≤ greatestDepth := by
  rw [parse?, Option.filter_eq_some_iff, document?_eq_some_iff, decide_eq_true_eq]

theorem parse?_of_spells {cs : List Char} {v : Value} (h : Spells cs v)
    (hd : v.depth ≤ greatestDepth) : parse? (String.ofList cs) = some v := by
  have hblanks : Blanks [] := fun _ hc => by cases hc
  have hdoc := Document.mk hblanks h hblanks
  rw [List.nil_append, List.append_nil] at hdoc
  rw [parse?_eq_some_iff, String.toList_ofList]
  exact ⟨hdoc, hd⟩

/-- Bytes are read as a value if and only if they are the bytes of a text that spells it
and the value is not too deep. -/
theorem parseBytes?_eq_some_iff {bytes : ByteArray} {v : Value} :
    parseBytes? bytes = some v ↔
      ∃ s : String, bytes = s.toUTF8 ∧ Document s.toList v ∧ v.depth ≤ greatestDepth := by
  simp only [parseBytes?, Option.bind_eq_some_iff, fromUTF8?_eq_some_iff, parse?_eq_some_iff]

/-! ## Beginnings of documents -/

/-- The end of an object is found whatever comes after it. -/
theorem Spells.value?_object {cs : List Char} {v : Value} (h : Spells ('{' :: cs) v)
    (bound : Nat) (hb : cs.length < bound) (rest : List Char) :
    value? bound ('{' :: (cs ++ rest)) = some (v, rest) := by
  obtain ⟨bound, rfl⟩ : ∃ b, bound = b + 1 := ⟨bound - 1, by omega⟩
  cases h with
  | atom h =>
      obtain ⟨c, tail, heq, _, _, _, hne, _⟩ := h.exists_head
      exact absurd (List.cons.inj heq).1.symm hne
  | text h => cases h
  | emptyDict hw => simp [value?.eq_4, skipBlanks_mark hw '}' (by decide)]
  | dict hw h =>
      rw [List.length_append] at hb
      rw [List.append_assoc]
      exact value?_dict hw h (h.members?_append (by omega))

/-- **Of an object that is spelled in full** no proper beginning is a document. -/
theorem Document.eq_nil_of_object {front rest tail : List Char} {v w : Value}
    (h : Document front v) (hfull : Spells ('{' :: tail) w)
    (heq : front ++ rest = '{' :: tail) : rest = [] := by
  obtain @⟨ws, cs, ws', _, hw, hs, -⟩ := h
  cases ws with
  | cons c ws =>
      obtain ⟨rfl, -⟩ := List.cons.inj heq
      exact absurd (hw '{' List.mem_cons_self) (by decide)
  | nil =>
      obtain ⟨c, cs', rfl, -, -⟩ := hs.exists_head
      rw [List.nil_append, List.append_assoc, List.cons_append] at heq
      obtain ⟨rfl, htail⟩ := List.cons.inj heq
      have hlength := congrArg List.length htail
      rw [List.length_append] at hlength
      -- Both end where the first object of the text ends.
      have hfront := hs.value?_object (tail.length + 1) (by omega) (ws' ++ rest)
      have hwhole := hfull.value?_object (tail.length + 1) (by omega) []
      rw [htail] at hfront
      rw [List.append_nil, hfront] at hwhole
      exact (List.append_eq_nil_iff.mp (Prod.mk.inj (Option.some.inj hwhole)).2).2

end LinkedTables.Json
