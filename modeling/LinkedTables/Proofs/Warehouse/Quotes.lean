import LinkedTables.Filter.Sql

set_option autoImplicit false

/-! # Quoted parts of queries

The warehouse reads a query from left to right. A backtick opens a name, which the next
backtick ends. A single quote opens a literal, in which a backslash takes the next character
with it and the first other single quote ends it. So a query falls into names, literals and
the characters outside of both (`pieces`), and it does so in one way only
(`pieces_eq_some_iff`).

A literal denotes the text in it, where every escape stands for one character. Which one that
is depends on the reader; all that is asked of one here is that a backslash and a quote after a
backslash stand for themselves (`KeepsMarks`).
-/

namespace LinkedTables.Sql

/-! ## Names and literals -/

/-- Splits a text after a name that ends with the first backtick. -/
def splitName : List Char → Option (List Char × List Char)
  | [] => none
  | c :: cs => if c = '\x60' then some ([], cs) else (splitName cs).map fun p => (c :: p.1, p.2)

/-- Splits a text after the inside of a literal and the quote that ends it. -/
def splitLiteral : List Char → Option (List Char × List Char)
  | [] => none
  | '\'' :: cs => some ([], cs)
  | '\\' :: c :: cs => (splitLiteral cs).map fun p => ('\\' :: c :: p.1, p.2)
  | c :: cs => (splitLiteral cs).map fun p => (c :: p.1, p.2)

example : splitLiteral ['a', '\\', '\'', 'b', '\'', ')'] =
    some (['a', '\\', '\'', 'b'], [')']) := by decide

/-- What can stand in a literal: characters other than the quote, and escapes. -/
inductive LiteralBody : List Char → Prop
  | nil : LiteralBody []
  | char {c : Char} {cs : List Char} (hq : c ≠ '\'') (hb : c ≠ '\\') (h : LiteralBody cs) :
      LiteralBody (c :: cs)
  | escape (c : Char) {cs : List Char} (h : LiteralBody cs) : LiteralBody ('\\' :: c :: cs)

theorem splitName_append {name : List Char} (h : '\x60' ∉ name) (rest : List Char) :
    splitName (name ++ '\x60' :: rest) = some (name, rest) := by
  induction name with
  | nil => rfl
  | cons c name ih =>
      rw [List.mem_cons, not_or] at h
      rw [List.cons_append, splitName, if_neg (Ne.symm h.1), ih h.2]
      rfl

theorem splitName_eq_some_iff {cs name rest : List Char} :
    splitName cs = some (name, rest) ↔ '\x60' ∉ name ∧ cs = name ++ '\x60' :: rest := by
  constructor
  · intro h
    induction cs generalizing name with
    | nil => cases h
    | cons c cs ih =>
        rw [splitName] at h
        split at h
        next hc =>
          cases h
          exact ⟨List.not_mem_nil, by rw [hc, List.nil_append]⟩
        next hc =>
          obtain ⟨⟨name', rest'⟩, hsplit, heq⟩ := Option.map_eq_some_iff.mp h
          cases heq
          obtain ⟨hname, rfl⟩ := ih hsplit
          exact ⟨by simp [Ne.symm hc, hname], rfl⟩
  · rintro ⟨hname, rfl⟩
    exact splitName_append hname rest

theorem splitLiteral_cons {c : Char} (hq : c ≠ '\'') (hb : c ≠ '\\') (cs : List Char) :
    splitLiteral (c :: cs) = (splitLiteral cs).map fun p => (c :: p.1, p.2) := by
  rw [splitLiteral]
  · exact hq
  · exact fun _ _ hc => absurd hc hb

theorem LiteralBody.splitLiteral_append {body : List Char} (h : LiteralBody body)
    (rest : List Char) : splitLiteral (body ++ '\'' :: rest) = some (body, rest) := by
  induction h with
  | nil => rfl
  | char hq hb _ ih =>
      rw [List.cons_append, splitLiteral_cons hq hb, ih]
      rfl
  | escape c _ ih =>
      rw [List.cons_append, List.cons_append, splitLiteral, ih]
      rfl

theorem splitLiteral_eq_some_iff {cs body rest : List Char} :
    splitLiteral cs = some (body, rest) ↔ LiteralBody body ∧ cs = body ++ '\'' :: rest := by
  constructor
  · intro h
    fun_induction splitLiteral cs generalizing body with
    | case1 => cases h
    | case2 cs =>
        cases h
        exact ⟨.nil, rfl⟩
    | case3 c cs ih =>
        obtain ⟨⟨body', rest'⟩, hsplit, heq⟩ := Option.map_eq_some_iff.mp h
        cases heq
        obtain ⟨hbody, rfl⟩ := ih hsplit
        exact ⟨.escape c hbody, rfl⟩
    | case4 c cs hq hb ih =>
        obtain ⟨⟨body', rest'⟩, hsplit, heq⟩ := Option.map_eq_some_iff.mp h
        cases heq
        obtain ⟨hbody, rfl⟩ := ih hsplit
        -- A backslash with something after it is an escape, and the body's quote is after it.
        refine ⟨.char hq (fun hc => ?_) hbody, rfl⟩
        cases body' <;> exact hb _ _ hc rfl
  · rintro ⟨hbody, rfl⟩
    exact hbody.splitLiteral_append rest

/-! ## What literals denote -/

/-- The text that the inside of a literal denotes, where `escapes` says what character stands
for which after a backslash. -/
def denoted (escapes : Char → Option Char) : List Char → Option (List Char)
  | [] => some []
  | ['\\'] => none
  | '\\' :: c :: cs => (escapes c).bind fun d => (denoted escapes cs).map (d :: ·)
  | c :: cs => (denoted escapes cs).map (c :: ·)

/-- A backslash and a quote after a backslash stand for themselves. -/
structure KeepsMarks (escapes : Char → Option Char) : Prop where
  backslash : escapes '\\' = some '\\'
  quote : escapes '\'' = some '\''

variable {escapes : Char → Option Char}

theorem denoted_cons {c : Char} (hb : c ≠ '\\') (cs : List Char) :
    denoted escapes (c :: cs) = (denoted escapes cs).map (c :: ·) := by
  rw [denoted]
  · exact fun hc => absurd hc hb
  · exact fun _ _ hc => absurd hc hb

/-- What is denoted is no longer than what is written. -/
theorem length_denoted_le {cs ds : List Char} (h : denoted escapes cs = some ds) :
    ds.length ≤ cs.length := by
  fun_induction denoted escapes cs generalizing ds with
  | case1 =>
      cases h
      exact Nat.le_refl 0
  | case2 => cases h
  | case3 c cs ih =>
      obtain ⟨d, -, hmap⟩ := Option.bind_eq_some_iff.mp h
      obtain ⟨ds', hds, rfl⟩ := Option.map_eq_some_iff.mp hmap
      have hle := ih hds
      simp only [List.length_cons]
      omega
  | case4 c cs _ _ ih =>
      obtain ⟨ds', hds, rfl⟩ := Option.map_eq_some_iff.mp h
      exact Nat.succ_le_succ (ih hds)

/-- An escape is written with two characters and stands for one. -/
theorem length_denoted_lt {cs ds : List Char} (h : denoted escapes cs = some ds)
    (hmem : '\\' ∈ cs) : ds.length < cs.length := by
  fun_induction denoted escapes cs generalizing ds with
  | case1 => cases hmem
  | case2 => cases h
  | case3 c cs ih =>
      obtain ⟨d, -, hmap⟩ := Option.bind_eq_some_iff.mp h
      obtain ⟨ds', hds, rfl⟩ := Option.map_eq_some_iff.mp hmap
      have hle := length_denoted_le hds
      simp only [List.length_cons]
      omega
  | case4 c cs hlone hescape ih =>
      obtain ⟨ds', hds, rfl⟩ := Option.map_eq_some_iff.mp h
      rcases List.mem_cons.mp hmem with rfl | hmem
      · cases cs with
        | nil => exact absurd rfl (hlone rfl)
        | cons c cs => exact absurd rfl (hescape c cs rfl)
      · exact Nat.succ_lt_succ (ih hds hmem)

/-- A text denotes itself if there is no backslash in it, and only then. -/
theorem denoted_eq_self_iff {cs : List Char} : denoted escapes cs = some cs ↔ '\\' ∉ cs := by
  constructor
  · intro h hmem
    exact Nat.lt_irrefl _ (length_denoted_lt h hmem)
  · intro h
    induction cs with
    | nil => rfl
    | cons c cs ih =>
        rw [List.mem_cons, not_or] at h
        rw [denoted_cons (Ne.symm h.1), ih h.2]
        rfl

/-! ## Texts as literals -/

/-- A text with its backslashes and quotes escaped can stand in a literal. -/
theorem literalBody_escaped (cs : List Char) : LiteralBody (cs.flatMap Filter.literalChar) := by
  induction cs with
  | nil => exact .nil
  | cons c cs ih =>
      rw [List.flatMap_cons, Filter.literalChar]
      split
      next => exact .escape c ih
      next hc => exact .char (fun hq => hc (.inr hq)) (fun hb => hc (.inl hb)) ih

theorem denoted_escaped (h : KeepsMarks escapes) (cs : List Char) :
    denoted escapes (cs.flatMap Filter.literalChar) = some cs := by
  induction cs with
  | nil => rfl
  | cons c cs ih =>
      rw [List.flatMap_cons, Filter.literalChar]
      split
      next hc =>
        have hmark : escapes c = some c := by
          rcases hc with rfl | rfl
          · exact h.backslash
          · exact h.quote
        rw [List.cons_append, List.cons_append, List.nil_append, denoted, hmark, ih]
        rfl
      next hc =>
        rw [List.cons_append, List.nil_append, denoted_cons (fun hb => hc (.inl hb)), ih]
        rfl

/-- Without backslashes it is the quotes alone that a literal cannot hold. -/
theorem literalBody_iff_of_no_backslash {cs : List Char} (h : '\\' ∉ cs) :
    LiteralBody cs ↔ '\'' ∉ cs := by
  induction cs with
  | nil => exact iff_of_true .nil List.not_mem_nil
  | cons c cs ih =>
      rw [List.mem_cons, not_or] at h
      rw [List.mem_cons, not_or, ← ih h.2]
      constructor
      · intro hbody
        cases hbody with
        | char hq _ hbody => exact ⟨Ne.symm hq, hbody⟩
        | escape => exact absurd rfl h.1
      · rintro ⟨hq, hbody⟩
        exact .char (Ne.symm hq) (Ne.symm h.1) hbody

/-! ## Pieces -/

/-- A piece of a query. -/
inductive Piece where
  /-- A character outside quotes. -/
  | char (c : Char)
  /-- A name in backticks. -/
  | name (cs : List Char)
  /-- A literal, with its escapes as they are. -/
  | literal (body : List Char)
deriving DecidableEq, Repr

/-- The pieces that a query falls into, if its quotes are closed. -/
def pieces : List Char → Option (List Piece)
  | [] => some []
  | '\x60' :: cs =>
    match _h : splitName cs with
    | some (name, rest) => (pieces rest).map (.name name :: ·)
    | none => none
  | '\'' :: cs =>
    match _h : splitLiteral cs with
    | some (body, rest) => (pieces rest).map (.literal body :: ·)
    | none => none
  | c :: cs => (pieces cs).map (.char c :: ·)
termination_by cs => cs.length
decreasing_by
  · obtain ⟨-, rfl⟩ := splitName_eq_some_iff.mp _h
    simp
    omega
  · obtain ⟨-, rfl⟩ := splitLiteral_eq_some_iff.mp _h
    simp
    omega
  · simp

theorem pieces_char {c : Char} (hn : c ≠ '\x60') (hl : c ≠ '\'') (cs : List Char) :
    pieces (c :: cs) = (pieces cs).map (.char c :: ·) := by
  rw [pieces]
  · exact hn
  · exact hl

theorem pieces_name {cs name rest : List Char} (h : splitName cs = some (name, rest)) :
    pieces ('\x60' :: cs) = (pieces rest).map (.name name :: ·) := by
  rw [pieces]
  split
  next name' rest' hsplit =>
    cases h.symm.trans hsplit
    rfl
  next hsplit => cases h.symm.trans hsplit

theorem pieces_literal {cs body rest : List Char} (h : splitLiteral cs = some (body, rest)) :
    pieces ('\'' :: cs) = (pieces rest).map (.literal body :: ·) := by
  rw [pieces]
  split
  next body' rest' hsplit =>
    cases h.symm.trans hsplit
    rfl
  next hsplit => cases h.symm.trans hsplit

/-- A text outside quotes as pieces. -/
def plain (s : String) : List Piece := s.toList.map .char

namespace Piece

/-- How a piece is written. -/
def text : Piece → List Char
  | char c => [c]
  | name cs => '\x60' :: (cs ++ ['\x60'])
  | literal body => '\'' :: (body ++ ['\''])

/-- A piece ends where it says that it does. -/
inductive WellFormed : Piece → Prop
  | char {c : Char} (hn : c ≠ '\x60') (hl : c ≠ '\'') : WellFormed (.char c)
  | name {cs : List Char} (h : '\x60' ∉ cs) : WellFormed (.name cs)
  | literal {body : List Char} (h : LiteralBody body) : WellFormed (.literal body)

end Piece

theorem wellFormed_name_iff {cs : List Char} : (Piece.name cs).WellFormed ↔ '\x60' ∉ cs :=
  ⟨fun h => by cases h; assumption, .name⟩

theorem wellFormed_literal_iff {body : List Char} :
    (Piece.literal body).WellFormed ↔ LiteralBody body :=
  ⟨fun h => by cases h; assumption, .literal⟩

theorem flatMap_text_plain (s : String) : (plain s).flatMap Piece.text = s.toList := by
  rw [plain, List.flatMap_map]
  exact List.flatMap_singleton' s.toList

theorem wellFormed_of_mem_plain {s : String} (h : ∀ c ∈ s.toList, c ∉ ['\x60', '\'']) :
    ∀ p ∈ plain s, p.WellFormed := by
  intro p hp
  obtain ⟨c, hc, rfl⟩ := List.mem_map.mp hp
  have hmarks := h c hc
  rw [List.mem_cons, List.mem_singleton, not_or] at hmarks
  exact .char hmarks.1 hmarks.2

/-- **A text falls into pieces in one way.** It does so if it is the text of pieces that each
end where they say. -/
theorem pieces_eq_some_iff {cs : List Char} {ps : List Piece} :
    pieces cs = some ps ↔ (∀ p ∈ ps, p.WellFormed) ∧ cs = ps.flatMap Piece.text := by
  constructor
  · -- By recursion of `pieces`: what is taken off the text is the piece as it is written.
    intro h
    fun_induction pieces cs generalizing ps with
    | case1 =>
        cases h
        simp
    | case2 cs name rest hsplit ih =>
        obtain ⟨ps', hps, rfl⟩ := Option.map_eq_some_iff.mp h
        obtain ⟨hname, rfl⟩ := splitName_eq_some_iff.mp hsplit
        obtain ⟨hformed, rfl⟩ := ih hps
        exact ⟨List.forall_mem_cons.mpr ⟨.name hname, hformed⟩, by simp [Piece.text]⟩
    | case3 => cases h
    | case4 cs body rest hsplit ih =>
        obtain ⟨ps', hps, rfl⟩ := Option.map_eq_some_iff.mp h
        obtain ⟨hbody, rfl⟩ := splitLiteral_eq_some_iff.mp hsplit
        obtain ⟨hformed, rfl⟩ := ih hps
        exact ⟨List.forall_mem_cons.mpr ⟨.literal hbody, hformed⟩, by simp [Piece.text]⟩
    | case5 => cases h
    | case6 c cs hn hl ih =>
        obtain ⟨ps', hps, rfl⟩ := Option.map_eq_some_iff.mp h
        obtain ⟨hformed, rfl⟩ := ih hps
        exact ⟨List.forall_mem_cons.mpr ⟨.char hn hl, hformed⟩, rfl⟩
  · rintro ⟨h, rfl⟩
    induction ps with
    | nil => rw [List.flatMap_nil, pieces]
    | cons p ps ih =>
        obtain ⟨hp, hps⟩ := List.forall_mem_cons.mp h
        cases hp with
        | char hn hl =>
            rw [List.flatMap_cons, Piece.text, List.cons_append, List.nil_append,
              pieces_char hn hl, ih hps]
            rfl
        | @name cs hname =>
            have hsplit := splitName_append hname (ps.flatMap Piece.text)
            rw [List.flatMap_cons, Piece.text, List.cons_append, List.append_assoc,
              List.singleton_append, pieces_name hsplit, ih hps]
            rfl
        | @literal body hbody =>
            have hsplit := hbody.splitLiteral_append (ps.flatMap Piece.text)
            rw [List.flatMap_cons, Piece.text, List.cons_append, List.append_assoc,
              List.singleton_append, pieces_literal hsplit, ih hps]
            rfl

end LinkedTables.Sql
