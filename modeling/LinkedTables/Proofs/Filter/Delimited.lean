import LinkedTables.Proofs.Filter.Carried
import LinkedTables.Proofs.Filter.Form
import LinkedTables.Warehouse.Query
import Mathlib.Data.Bool.AllAny

set_option autoImplicit false

/-! # Filters told apart by their text

The text of a filter over partition ids says which filter it is, up to the letter case of
operators and the types of constants: `folded_eq_of_sql_eq`. This holds of filters in which
every operator is a comparison or an identifier and every operator that stands between its
operands has two or more.

Each such text is delimited, which means that it shows where it ends: a column and the name
of a function end with the last character that can be part of an identifier, a literal with
the first quote that no backslash precedes, and everything else with the parenthesis that
closes it. Since the texts of operands are delimited, the text of a call can be taken apart:
`Legible.delimited`.
-/

namespace LinkedTables.Filter

/-! ## Legible filters -/

/-- Whether a character can start an identifier. -/
def startsIdentifier (c : Char) : Bool := c.isAlpha || c == '_'

/-- Whether a character can be part of an identifier. -/
def inIdentifier (c : Char) : Bool := c.isAlphanum || c == '_'

/-- A text is an identifier: letters, digits and underscores, of which a digit is not the
first. -/
def IsIdentifier (s : String) : Prop :=
  ∃ c cs, s.toList = c :: cs ∧ startsIdentifier c = true ∧ ∀ d ∈ cs, inIdentifier d = true

/-- The words for operators that stand between their operands. -/
def infixWords : List String := comparisonWords ++ ["like", "and", "or"]

/-- Filters whose operators are comparisons or identifiers, where an operator that stands
between its operands has two or more. -/
inductive Legible : Filter → Prop
  | column (name : String) : Legible (.column name)
  | constant (typeName : String) (v : Value) : Legible (.constant typeName v)
  | call {operator : String} {operands : List Filter}
      (ho : operator ∈ comparisonWords ∨ IsIdentifier operator)
      (hn : (∃ word ∈ infixWords, IsWord operator word) → 2 ≤ operands.length)
      (h : ∀ f ∈ operands, Legible f) : Legible (.call operator operands)

mutual

/-- A filter with its operators in lower case and the usual type for all constants. -/
def folded : Filter → Filter
  | call operator operands =>
    call (String.ofList (operator.toList.map foldChar)) (foldedAll operands)
  | column name => column name
  | constant _ v => constant defaultType v
  | foreign v => foreign v

/-- `folded` for each filter of a list. -/
def foldedAll : List Filter → List Filter
  | [] => []
  | f :: fs => folded f :: foldedAll fs

end

/-! ## Texts that show where they end -/

/-- The characters that can follow the text of an operand. -/
def marks : List Char := [' ', ',', ')']

/-- A text starts with a mark. -/
def Ends (cs : List Char) : Prop := ∃ c ∈ marks, ∃ rest, cs = c :: rest

theorem ends_cons {c : Char} (hc : c ∈ marks) (rest : List Char) : Ends (c :: rest) :=
  ⟨c, hc, rest, rfl⟩

/-- Two runs of characters of a kind are the same if both are followed by characters of
another kind and the texts are the same. -/
theorem run_append_inj {p : Char → Bool} {xs ys t u : List Char} {a b : Char}
    (hx : ∀ c ∈ xs, p c = true) (hy : ∀ c ∈ ys, p c = true) (ha : p a = false)
    (hb : p b = false) (h : xs ++ a :: t = ys ++ b :: u) : xs = ys ∧ a :: t = b :: u := by
  induction xs generalizing ys with
  | nil =>
      cases ys with
      | nil => exact ⟨rfl, h⟩
      | cons y ys =>
          obtain rfl : a = y := (List.cons.inj h).1
          rw [hy a (by simp)] at ha
          cases ha
  | cons x xs ih =>
      cases ys with
      | nil =>
          obtain rfl : x = b := (List.cons.inj h).1
          rw [hx x (by simp)] at hb
          cases hb
      | cons y ys =>
          obtain ⟨rfl, htail⟩ := List.cons.inj h
          obtain ⟨rfl, hrest⟩ := ih (fun c hc => hx c (List.mem_cons_of_mem _ hc))
            (fun c hc => hy c (List.mem_cons_of_mem _ hc)) htail
          exact ⟨rfl, hrest⟩

/-- An escaped character is a backslash and the character, or a character that needs no
escape. -/
theorem literalChar_append_inj {c d : Char} {t u : List Char}
    (h : literalChar c ++ t = literalChar d ++ u) : c = d ∧ t = u := by
  unfold literalChar at h
  split_ifs at h with hc hd hd
  · simpa using h
  · obtain rfl : '\\' = d := (List.cons.inj h).1
    exact absurd (Or.inl rfl) hd
  · obtain rfl : c = '\\' := (List.cons.inj h).1
    exact absurd (Or.inl rfl) hc
  · simpa using h

/-- No escaped character starts with the closing quote. -/
theorem literalChar_append_ne (c : Char) (t u : List Char) :
    literalChar c ++ t ≠ '\'' :: u := by
  unfold literalChar
  split_ifs with hc
  · simp
  · intro h
    exact hc (Or.inr (List.cons.inj h).1)

theorem literal_append_inj {cs ds t u : List Char}
    (h : textLiteral cs ++ t = textLiteral ds ++ u) : cs = ds ∧ t = u := by
  simp only [textLiteral, List.cons_append, List.append_assoc, List.nil_append,
    List.cons.injEq, true_and] at h
  induction cs generalizing ds with
  | nil =>
      cases ds with
      | nil => simpa using h
      | cons d ds =>
          rw [List.flatMap_cons, List.append_assoc] at h
          exact absurd h.symm (literalChar_append_ne d _ _)
  | cons c cs ih =>
      cases ds with
      | nil =>
          rw [List.flatMap_cons, List.append_assoc] at h
          exact absurd h (literalChar_append_ne c _ _)
      | cons d ds =>
          rw [List.flatMap_cons, List.flatMap_cons, List.append_assoc, List.append_assoc] at h
          obtain ⟨rfl, htail⟩ := literalChar_append_inj h
          obtain ⟨rfl, hrest⟩ := ih htail
          exact ⟨rfl, hrest⟩

theorem inIdentifier_of_startsIdentifier {c : Char} (h : startsIdentifier c = true) :
    inIdentifier c = true := by
  simp only [startsIdentifier, inIdentifier, Char.isAlphanum, Bool.or_eq_true] at h ⊢
  rcases h with h | h
  · exact Or.inl (Or.inl h)
  · exact Or.inr h

theorem IsIdentifier.inIdentifier {s : String} (h : IsIdentifier s) :
    ∀ c ∈ s.toList, inIdentifier c = true := by
  obtain ⟨c, cs, hs, hc, hcs⟩ := h
  rw [hs]
  exact List.forall_mem_cons.mpr ⟨inIdentifier_of_startsIdentifier hc, hcs⟩

theorem IsIdentifier.append_ne {s : String} (h : IsIdentifier s) {c : Char}
    (hc : Filter.inIdentifier c = false) (t u : List Char) : s.toList ++ t ≠ c :: u := by
  obtain ⟨d, ds, hs, hd, -⟩ := h
  rw [hs]
  intro he
  obtain rfl : d = c := (List.cons.inj he).1
  rw [inIdentifier_of_startsIdentifier hd] at hc
  cases hc

theorem isIdentifier_partitionIdColumn : IsIdentifier partitionIdColumn :=
  ⟨'p', _, rfl, rfl, List.all_eq_true.mp rfl⟩

/-! ## How a legible filter is written -/

/-- The keyword that follows the first operand. -/
def Form.keyword : Form → List Char
  | .chain symbol => symbol
  | .membership => ['I', 'N']
  | .range => ['B', 'E', 'T', 'W', 'E', 'E', 'N']
  | .nullTest _ => ['I', 'S']
  | .negation | .application => []

/-- What follows the keyword, up to the closing parenthesis. -/
def Form.remainder : Form → List (List Char) → List Char
  | .chain symbol, others => (' ' :: (symbol ++ [' '])).intercalate others
  | .membership, others => parenthesized (commaSeparated others)
  | .range, [low, high] => low ++ ([' ', 'A', 'N', 'D', ' '] ++ high)
  | .nullTest false, _ => ['N', 'U', 'L', 'L']
  | .nullTest true, _ => ['N', 'O', 'T', ' ', 'N', 'U', 'L', 'L']
  | _, _ => []

/-- The forms with a keyword after the first operand, and how many further operands they
have in legible filters. -/
inductive Form.HasKeyword : Form → Nat → Prop
  | chain {symbol : List Char} (hs : symbol ∈ chainSymbols.map (·.2)) (n : Nat) :
      HasKeyword (.chain symbol) (n + 1)
  | membership (n : Nat) : HasKeyword .membership n
  | range : HasKeyword .range 2
  | nullTest (negated : Bool) : HasKeyword (.nullTest negated) 0

/-- The ways in which legible filters over partition ids are written. -/
inductive Written : Filter → List Char → Prop
  | column : Written (.column partitionIdColumn) partitionIdColumn.toList
  | literal (typeName s : String) :
      Written (.constant typeName (.text s)) (textLiteral s.toList)
  | negation {operator : String} {a : Filter}
      (ho : operator.toList.map foldChar = Form.negation.word) :
      Written (.call operator [a]) (parenthesized (['N', 'O', 'T', ' '] ++ sqlChars a))
  | keyword {operator : String} {a : Filter} {others : List Filter} {form : Form}
      (ho : operator.toList.map foldChar = form.word) (hf : form.HasKeyword others.length) :
      Written (.call operator (a :: others)) (parenthesized
        (sqlChars a ++ ' ' :: (form.keyword ++ ' ' :: form.remainder (sqlParts others))))
  | application {operator : String} {operands : List Filter} (ho : IsIdentifier operator) :
      Written (.call operator operands)
        (operator.toList ++ parenthesized (commaSeparated (sqlParts operands)))

/-- Legible filters over partition ids. -/
structure Readable (f : Filter) : Prop where
  /-- The filter is legible. -/
  legible : Legible f
  /-- The filter is one over partition ids. -/
  overIds : OverIds f

theorem Readable.operands {operator : String} {fs : List Filter}
    (h : Readable (.call operator fs)) : ∀ f ∈ fs, Readable f := by
  obtain ⟨hl, hi⟩ := h
  cases hl with
  | call _ _ hl =>
      cases hi with
      | call _ hi => exact fun f hf => ⟨hl f hf, hi f hf⟩

/-- A comparison is no application. -/
theorem lookup_comparison {operator : String} (h : operator ∈ comparisonWords) :
    chainSymbols.lookup (operator.toList.map foldChar) ≠ none := by
  revert operator
  decide

/-- A symbol belongs to an operator that stands between its operands. -/
theorem exists_infixWord {symbol : List Char} (h : symbol ∈ chainSymbols.map (·.2)) :
    ∃ word ∈ infixWords, (Form.chain symbol).word = word.toList.map foldChar := by
  revert symbol
  decide

theorem written_call {operator : String} {fs : List Filter}
    (h : Readable (.call operator fs)) :
    Written (.call operator fs) (sqlChars (.call operator fs)) := by
  obtain ⟨hl, -⟩ := h
  cases hl with
  | call ho hn _ =>
      have hform := formOf_form operator fs.length
      unfold sqlChars applied
      rw [length_sqlParts]
      generalize form operator fs.length = φ at hform
      cases hform with
      | chain hs hword =>
          obtain ⟨word, hword', he⟩ := exists_infixWord hs
          have hlen : 2 ≤ fs.length := hn ⟨word, hword', hword.trans he⟩
          match fs, hlen with
          | a :: b :: fs, _ =>
              have hw := @Written.keyword operator a (b :: fs) _ hword (.chain hs fs.length)
              simpa [Form.keyword, Form.remainder, sqlParts, List.intercalate_cons_cons] using hw
      | negation hword hc =>
          obtain ⟨a, rfl⟩ := List.length_eq_one_iff.mp hc
          exact .negation hword
      | membership hword hc =>
          obtain ⟨a, others, rfl⟩ := List.exists_cons_of_length_pos hc
          have hw := @Written.keyword operator a others _ hword (.membership others.length)
          simpa [Form.keyword, Form.remainder, sqlParts] using hw
      | range hword hc =>
          obtain ⟨a, low, high, rfl⟩ := List.length_eq_three.mp hc
          have hw := @Written.keyword operator a [low, high] _ hword .range
          simpa [Form.keyword, Form.remainder, sqlParts] using hw
      | @nullTest negated hword hc =>
          obtain ⟨a, rfl⟩ := List.length_eq_one_iff.mp hc
          have hw := @Written.keyword operator a [] _ hword (.nullTest negated)
          cases negated <;> simpa [Form.keyword, Form.remainder, sqlParts] using hw
      | application hlookup =>
          rcases ho with ho | ho
          · exact absurd hlookup (lookup_comparison ho)
          · exact .application ho

theorem Readable.written {f : Filter} (h : Readable f) : Written f (sqlChars f) := by
  obtain ⟨hl, hi⟩ := h
  cases hi with
  | column => exact .column
  | constant typeName s => exact .literal typeName s
  | call operator hi => exact written_call ⟨hl, .call operator hi⟩

/-- No text of a filter starts with a closing parenthesis. -/
theorem Written.append_ne {f : Filter} {cs : List Char} (h : Written f cs) (t u : List Char) :
    cs ++ t ≠ ')' :: u := by
  cases h with
  | column => exact isIdentifier_partitionIdColumn.append_ne rfl t u
  | literal | negation | keyword => simp [textLiteral, parenthesized]
  | application ho =>
      rw [List.append_assoc]
      exact ho.append_ne rfl _ u

/-! ## Taking texts apart -/

/-- A filter is known from a text that starts with its own, and so is what follows. -/
def Delimited (f : Filter) : Prop :=
  ∀ g, Readable g → ∀ t u, Ends t → Ends u → sqlChars f ++ t = sqlChars g ++ u →
    f.folded = g.folded ∧ t = u

/-- The texts of operands, each after a separator. -/
def separated (separator : List Char) (fs : List Filter) : List Char :=
  fs.flatMap fun f => separator ++ sqlChars f

theorem intercalate_sqlParts (separator : List Char) (f : Filter) (fs : List Filter) :
    separator.intercalate (sqlParts (f :: fs)) = sqlChars f ++ separated separator fs := by
  induction fs generalizing f with
  | nil => simp [sqlParts, separated]
  | cons g fs ih =>
      rw [sqlParts, sqlParts, List.intercalate_cons_cons, ← sqlParts, ih g]
      simp [separated]

section

variable {mark : Char} {rest : List Char}

theorem ends_separated (hm : mark ∈ marks) (fs : List Filter) (t : List Char) :
    Ends (separated (mark :: rest) fs ++ ')' :: t) := by
  cases fs with
  | nil => exact ends_cons (by decide) t
  | cons f fs => exact ends_cons hm _

/-- Operands after separators are known from their text. -/
theorem separated_append_inj (hm : mark ∈ marks) (hc : mark ≠ ')') {fs gs : List Filter}
    (hf : ∀ f ∈ fs, Delimited f) (hg : ∀ g ∈ gs, Readable g) {t u : List Char}
    (h : separated (mark :: rest) fs ++ ')' :: t = separated (mark :: rest) gs ++ ')' :: u) :
    foldedAll fs = foldedAll gs ∧ t = u := by
  induction fs generalizing gs with
  | nil =>
      cases gs with
      | nil => exact ⟨rfl, (List.cons.inj h).2⟩
      | cons g gs => exact absurd (List.cons.inj h).1.symm hc
  | cons f fs ih =>
      cases gs with
      | nil => exact absurd (List.cons.inj h).1 hc
      | cons g gs =>
          simp only [separated, List.flatMap_cons, List.append_assoc] at h
          have htexts := List.append_cancel_left h
          obtain ⟨hfg, htail⟩ := hf f (by simp) g (hg g (by simp)) _ _
            (ends_separated hm fs t) (ends_separated hm gs u) htexts
          obtain ⟨hfs, htu⟩ := ih (fun x hx => hf x (List.mem_cons_of_mem f hx))
            (fun x hx => hg x (List.mem_cons_of_mem g hx)) htail
          exact ⟨by rw [foldedAll, foldedAll, hfg, hfs], htu⟩

/-- Operands between separators are known from their text. -/
theorem intercalate_append_inj (hm : mark ∈ marks) (hc : mark ≠ ')') {fs gs : List Filter}
    (hf : ∀ f ∈ fs, Readable f) (hd : ∀ f ∈ fs, Delimited f) (hg : ∀ g ∈ gs, Readable g)
    {t u : List Char}
    (h : (mark :: rest).intercalate (sqlParts fs) ++ ')' :: t =
      (mark :: rest).intercalate (sqlParts gs) ++ ')' :: u) :
    foldedAll fs = foldedAll gs ∧ t = u := by
  cases fs with
  | nil =>
      cases gs with
      | nil => exact ⟨rfl, (List.cons.inj h).2⟩
      | cons g gs =>
          rw [intercalate_sqlParts, List.append_assoc] at h
          exact absurd h.symm ((hg g (by simp)).written.append_ne _ _)
  | cons f fs =>
      cases gs with
      | nil =>
          rw [intercalate_sqlParts, List.append_assoc] at h
          exact absurd h ((hf f (by simp)).written.append_ne _ _)
      | cons g gs =>
          rw [intercalate_sqlParts, intercalate_sqlParts, List.append_assoc,
            List.append_assoc] at h
          obtain ⟨hfg, htail⟩ := hd f (by simp) g (hg g (by simp)) _ _
            (ends_separated hm fs t) (ends_separated hm gs u) h
          obtain ⟨hfs, htu⟩ := separated_append_inj hm hc
            (fun x hx => hd x (List.mem_cons_of_mem f hx))
            (fun x hx => hg x (List.mem_cons_of_mem g hx)) htail
          exact ⟨by rw [foldedAll, foldedAll, hfg, hfs], htu⟩

end

/-! ### Keywords -/

theorem Form.HasKeyword.keyword_ne_blank {form : Form} {n : Nat} (h : form.HasKeyword n) :
    ∀ c ∈ form.keyword, (c != ' ') = true := by
  have hsymbols : ∀ symbol ∈ chainSymbols.map (·.2), symbol.all (· != ' ') = true := by decide
  cases h with
  | chain hs => exact List.all_eq_true.mp (hsymbols _ hs)
  | membership | range | nullTest => exact List.all_eq_true.mp rfl

theorem Form.HasKeyword.range_count {n : Nat} (h : Form.range.HasKeyword n) : n = 2 := by
  cases h
  rfl

theorem Form.HasKeyword.nullTest_count {negated : Bool} {n : Nat}
    (h : (Form.nullTest negated).HasKeyword n) : n = 0 := by
  cases h
  rfl

theorem nullTest_append_inj {a b : Bool} {ps qs : List (List Char)} {t u : List Char}
    (h : (Form.nullTest a).remainder ps ++ ')' :: t =
      (Form.nullTest b).remainder qs ++ ')' :: u) : a = b ∧ t = u := by
  cases a <;> cases b <;> simp_all [Form.remainder]

theorem range_append_inj {low high low' high' : Filter} (hl : Delimited low)
    (hh : Delimited high) (hl' : Readable low') (hh' : Readable high') {t u : List Char}
    (h : Form.range.remainder (sqlParts [low, high]) ++ ')' :: t =
      Form.range.remainder (sqlParts [low', high']) ++ ')' :: u) :
    low.folded = low'.folded ∧ high.folded = high'.folded ∧ t = u := by
  have hends : ∀ cs, Ends ([' ', 'A', 'N', 'D', ' '] ++ cs) := fun cs =>
    ends_cons (by decide) _
  have hclosed : ∀ cs, Ends (')' :: cs) := ends_cons (by decide)
  simp only [Form.remainder, sqlParts, List.append_assoc] at h
  obtain ⟨hlow, htail⟩ := hl low' hl' _ _ (hends _) (hends _) h
  obtain ⟨hhigh, hrest⟩ := hh high' hh' _ _ (hclosed t) (hclosed u)
    (List.append_cancel_left htail)
  exact ⟨hlow, hhigh, (List.cons.inj hrest).2⟩

/-- A form is known from its keyword, but for the opposite of a test for null. -/
theorem Form.HasKeyword.eq_of_keyword {φ ψ : Form} {m n : Nat} (hφ : φ.HasKeyword m)
    (hψ : ψ.HasKeyword n) (h : φ.keyword = ψ.keyword) :
    φ = ψ ∨ ∃ a b, φ = .nullTest a ∧ ψ = .nullTest b := by
  have hsymbols : ∀ symbol ∈ chainSymbols.map (·.2), symbol ≠ Form.membership.keyword ∧
      symbol ≠ Form.range.keyword ∧ symbol ≠ (Form.nullTest true).keyword := by decide
  cases hφ with
  | chain hs =>
      cases hψ with
      | chain => exact Or.inl (congrArg Form.chain h)
      | membership => exact absurd h (hsymbols _ hs).1
      | range => exact absurd h (hsymbols _ hs).2.1
      | nullTest => exact absurd h (hsymbols _ hs).2.2
  | membership =>
      cases hψ with
      | chain hs => exact absurd h.symm (hsymbols _ hs).1
      | membership => exact Or.inl rfl
      | range | nullTest => simp [Form.keyword] at h
  | range =>
      cases hψ with
      | chain hs => exact absurd h.symm (hsymbols _ hs).2.1
      | range => exact Or.inl rfl
      | membership | nullTest => simp [Form.keyword] at h
  | nullTest a =>
      cases hψ with
      | chain hs => exact absurd h.symm (hsymbols _ hs).2.2
      | nullTest b => exact Or.inr ⟨a, b, rfl, rfl⟩
      | membership | range => simp [Form.keyword] at h

/-- What follows a keyword is known from its text. -/
theorem remainder_append_inj {φ ψ : Form} {fs gs : List Filter} (hφ : φ.HasKeyword fs.length)
    (hψ : ψ.HasKeyword gs.length) (hk : φ.keyword = ψ.keyword) (hf : ∀ f ∈ fs, Readable f)
    (hd : ∀ f ∈ fs, Delimited f) (hg : ∀ g ∈ gs, Readable g) {t u : List Char}
    (h : φ.remainder (sqlParts fs) ++ ')' :: t = ψ.remainder (sqlParts gs) ++ ')' :: u) :
    φ = ψ ∧ foldedAll fs = foldedAll gs ∧ t = u := by
  rcases hφ.eq_of_keyword hψ hk with rfl | ⟨a, b, rfl, rfl⟩
  · refine ⟨rfl, ?_⟩
    cases φ with
    | chain symbol => exact intercalate_append_inj (by decide) (by decide) hf hd hg h
    | membership =>
        simp only [Form.remainder, parenthesized, List.cons_append, List.append_assoc,
          List.cons.injEq, true_and] at h
        obtain ⟨hfg, htail⟩ := intercalate_append_inj (by decide) (by decide) hf hd hg h
        exact ⟨hfg, (List.cons.inj htail).2⟩
    | range =>
        obtain ⟨low, high, rfl⟩ := List.length_eq_two.mp hφ.range_count
        obtain ⟨low', high', rfl⟩ := List.length_eq_two.mp hψ.range_count
        obtain ⟨hlow, hhigh, htu⟩ := range_append_inj (hd low (by simp)) (hd high (by simp))
          (hg low' (by simp)) (hg high' (by simp)) h
        exact ⟨by simp only [foldedAll, hlow, hhigh], htu⟩
    | nullTest negated =>
        obtain rfl := List.length_eq_zero_iff.mp hφ.nullTest_count
        obtain rfl := List.length_eq_zero_iff.mp hψ.nullTest_count
        exact ⟨rfl, (nullTest_append_inj h).2⟩
    | negation | application => cases hφ
  · obtain rfl := List.length_eq_zero_iff.mp hφ.nullTest_count
    obtain rfl := List.length_eq_zero_iff.mp hψ.nullTest_count
    obtain ⟨rfl, htu⟩ := nullTest_append_inj h
    exact ⟨rfl, rfl, htu⟩

/-! ### Filters -/

theorem folded_call_eq {o o' : String} {word : List Char} {fs gs : List Filter}
    (ho : o.toList.map foldChar = word) (ho' : o'.toList.map foldChar = word)
    (h : foldedAll fs = foldedAll gs) : (call o fs).folded = (call o' gs).folded := by
  rw [folded, folded, ho, ho', h]

/-- The text of a negation is none of a call with a keyword. -/
theorem negation_append_ne {a b : Filter} (hb : Readable b) (rest t u : List Char) :
    parenthesized (['N', 'O', 'T', ' '] ++ sqlChars a) ++ t ≠
      parenthesized (sqlChars b ++ ' ' :: rest) ++ u := by
  have hnot : ∀ c ∈ ['N', 'O', 'T'], inIdentifier c = true := List.all_eq_true.mp rfl
  intro h
  simp only [parenthesized, List.append_assoc, List.cons_append, List.cons.injEq, true_and] at h
  have hword : ['N', 'O', 'T'] ++ ' ' :: (sqlChars a ++ ([')'] ++ t)) =
      sqlChars b ++ ' ' :: (rest ++ ([')'] ++ u)) := h
  have hw := hb.written
  generalize sqlChars b = cs at hw hword
  cases hw with
  | column =>
      have hrun := run_append_inj hnot isIdentifier_partitionIdColumn.inIdentifier rfl rfl hword
      exact absurd hrun.1 (by decide)
  | literal | negation | keyword => simp [textLiteral, parenthesized] at hword
  | application ho =>
      simp only [parenthesized, List.append_assoc, List.cons_append] at hword
      have hrun := run_append_inj hnot ho.inIdentifier rfl rfl hword
      exact absurd (List.cons.inj hrun.2).1 (by decide)

/-- The text of a column is none of an application. -/
theorem column_append_ne {operator : String} (ho : IsIdentifier operator) {t : List Char}
    (ht : Ends t) (u : List Char) :
    partitionIdColumn.toList ++ t ≠ operator.toList ++ '(' :: u := by
  obtain ⟨c, hc, rest, rfl⟩ := ht
  have hmarks : ∀ c ∈ marks, inIdentifier c = false ∧ c ≠ '(' :=
    List.all_iff_forall_prop.mp rfl
  intro he
  have hrun := run_append_inj isIdentifier_partitionIdColumn.inIdentifier ho.inIdentifier
    (hmarks c hc).1 rfl he
  exact (hmarks c hc).2 (List.cons.inj hrun.2).1

theorem negation_append_inj {a b : Filter} (ha : Delimited a) (hb : Readable b)
    {t u : List Char}
    (h : parenthesized (['N', 'O', 'T', ' '] ++ sqlChars a) ++ t =
      parenthesized (['N', 'O', 'T', ' '] ++ sqlChars b) ++ u) :
    a.folded = b.folded ∧ t = u := by
  have hclosed : ∀ cs, Ends (')' :: cs) := ends_cons (by decide)
  simp only [parenthesized, List.append_assoc, List.cons_append, List.cons.injEq, true_and,
    List.nil_append] at h
  obtain ⟨hab, htail⟩ := ha b hb _ _ (hclosed t) (hclosed u) h
  exact ⟨hab, (List.cons.inj htail).2⟩

theorem keyword_append_inj {φ ψ : Form} {a b : Filter} {fs gs : List Filter}
    (hφ : φ.HasKeyword fs.length) (hψ : ψ.HasKeyword gs.length)
    (hf : ∀ f ∈ fs, Readable f) (hd : ∀ f ∈ a :: fs, Delimited f)
    (hg : ∀ g ∈ b :: gs, Readable g) {t u : List Char}
    (h : parenthesized
          (sqlChars a ++ ' ' :: (φ.keyword ++ ' ' :: φ.remainder (sqlParts fs))) ++ t =
        parenthesized
          (sqlChars b ++ ' ' :: (ψ.keyword ++ ' ' :: ψ.remainder (sqlParts gs))) ++ u) :
    φ = ψ ∧ foldedAll (a :: fs) = foldedAll (b :: gs) ∧ t = u := by
  have hblank : ∀ cs, Ends (' ' :: cs) := ends_cons (by decide)
  simp only [parenthesized, List.append_assoc, List.cons_append, List.cons.injEq, true_and,
    List.nil_append] at h
  obtain ⟨hab, htail⟩ := hd a (by simp) b (hg b (by simp)) _ _ (hblank _) (hblank _) h
  -- The keywords end with the blank after them.
  obtain ⟨hk, htail⟩ := run_append_inj (p := (· != ' ')) hφ.keyword_ne_blank
    hψ.keyword_ne_blank rfl rfl (List.cons.inj htail).2
  obtain ⟨hform, hfs, htu⟩ := remainder_append_inj hφ hψ hk hf
    (fun f hf => hd f (List.mem_cons_of_mem a hf))
    (fun g hg' => hg g (List.mem_cons_of_mem b hg')) (List.cons.inj htail).2
  exact ⟨hform, by rw [foldedAll, foldedAll, hab, hfs], htu⟩

theorem application_append_inj {o o' : String} {fs gs : List Filter} (ho : IsIdentifier o)
    (ho' : IsIdentifier o') (hf : ∀ f ∈ fs, Readable f) (hd : ∀ f ∈ fs, Delimited f)
    (hg : ∀ g ∈ gs, Readable g) {t u : List Char}
    (h : o.toList ++ parenthesized (commaSeparated (sqlParts fs)) ++ t =
      o'.toList ++ parenthesized (commaSeparated (sqlParts gs)) ++ u) :
    o.toList = o'.toList ∧ foldedAll fs = foldedAll gs ∧ t = u := by
  simp only [parenthesized, List.append_assoc, List.cons_append, List.nil_append] at h
  obtain ⟨hname, htail⟩ := run_append_inj ho.inIdentifier ho'.inIdentifier rfl rfl h
  obtain ⟨hfs, htu⟩ := intercalate_append_inj (by decide) (by decide) hf hd hg
    (List.cons.inj htail).2
  exact ⟨hname, hfs, htu⟩

/-- The operands of a call. -/
def operands : Filter → List Filter
  | call _ fs => fs
  | _ => []

/-- If the operands of a filter are delimited, then so is the filter. -/
theorem delimited_of_operands {f : Filter} (hf : Readable f)
    (hd : ∀ x ∈ f.operands, Delimited x) : Delimited f := by
  intro g hg t u ht hu h
  have hwf := hf.written
  have hwg := hg.written
  generalize sqlChars f = cs at hwf h
  generalize sqlChars g = ds at hwg h
  cases hwf with
  | column =>
      cases hwg with
      | column => exact ⟨rfl, List.append_cancel_left h⟩
      | literal | negation | keyword =>
          exact absurd h (isIdentifier_partitionIdColumn.append_ne rfl _ _)
      | application ho =>
          rw [List.append_assoc] at h
          exact absurd h (column_append_ne ho ht _)
  | literal typeName s =>
      cases hwg with
      | column => exact absurd h.symm (isIdentifier_partitionIdColumn.append_ne rfl _ _)
      | literal typeName' s' =>
          obtain ⟨hs, htu⟩ := literal_append_inj h
          obtain rfl := String.toList_inj.mp hs
          exact ⟨rfl, htu⟩
      | negation | keyword => simp [textLiteral, parenthesized] at h
      | application ho =>
          rw [List.append_assoc] at h
          exact absurd h.symm (ho.append_ne rfl _ _)
  | @negation operator a ho =>
      have ha := hd a (by simp [operands])
      cases hwg with
      | column => exact absurd h.symm (isIdentifier_partitionIdColumn.append_ne rfl _ _)
      | literal => simp [textLiteral, parenthesized] at h
      | negation ho' =>
          obtain ⟨hab, htu⟩ := negation_append_inj ha (hg.operands _ (by simp)) h
          exact ⟨folded_call_eq ho ho' (by simp only [foldedAll, hab]), htu⟩
      | keyword => exact absurd h (negation_append_ne (hg.operands _ (by simp)) _ _ _)
      | application ho' =>
          rw [List.append_assoc] at h
          exact absurd h.symm (ho'.append_ne rfl _ _)
  | keyword ho hform =>
      cases hwg with
      | column => exact absurd h.symm (isIdentifier_partitionIdColumn.append_ne rfl _ _)
      | literal => simp [textLiteral, parenthesized] at h
      | negation => exact absurd h.symm (negation_append_ne (hf.operands _ (by simp)) _ _ _)
      | keyword ho' hform' =>
          obtain ⟨rfl, hfs, htu⟩ := keyword_append_inj hform hform'
            (fun x hx => hf.operands x (List.mem_cons_of_mem _ hx)) hd hg.operands h
          exact ⟨folded_call_eq ho ho' hfs, htu⟩
      | application ho' =>
          rw [List.append_assoc] at h
          exact absurd h.symm (ho'.append_ne rfl _ _)
  | application ho =>
      cases hwg with
      | column =>
          rw [List.append_assoc] at h
          exact absurd h.symm (column_append_ne ho hu _)
      | literal | negation | keyword =>
          rw [List.append_assoc] at h
          exact absurd h (ho.append_ne rfl _ _)
      | application ho' =>
          obtain ⟨hname, hfs, htu⟩ := application_append_inj ho ho' hf.operands hd hg.operands h
          exact ⟨folded_call_eq rfl (by rw [hname]) hfs, htu⟩

/-- **Legible filters over partition ids are delimited.** -/
theorem Legible.delimited {f : Filter} (hl : Legible f) (hi : OverIds f) : Delimited f := by
  induction hl with
  | column | constant => exact delimited_of_operands ⟨by constructor, hi⟩ (by simp [operands])
  | call ho hn h ih =>
      have hf := Readable.mk (.call ho hn h) hi
      exact delimited_of_operands hf fun x hx => ih x hx (hf.operands x hx).overIds

theorem folded_eq_of_sqlChars_eq {f g : Filter} (hf : Readable f) (hg : Readable g)
    (h : f.sqlChars = g.sqlChars) : f.folded = g.folded := by
  have hclosed : Ends [')'] := ends_cons (by decide) []
  have htexts : f.sqlChars ++ [')'] = g.sqlChars ++ [')'] := by rw [h]
  exact (hf.legible.delimited hf.overIds g hg _ _ hclosed hclosed htexts).1

/-! ## Queries -/

theorem condition_eq_of_query_eq {id : TableId} {c d : String} {limit : Int}
    (h : id.query (some c) limit = id.query (some d) limit) : c = d := by
  have hlists := congrArg String.toList h
  simp only [TableId.query, TableId.conditionClause, String.toList_append] at hlists
  exact String.toList_inj.mp
    (List.append_cancel_left (List.append_cancel_left (List.append_cancel_right hlists)))

/-- **Filters are told apart by their text.** Two legible filters that were carried over
have expressions, and if these are the same then the filters are the same, up to the letter
case of operators and the types of constants. So no two others lead to the same query. -/
theorem folded_eq_of_sql_eq {f f' g g' : Filter} (hf : f.toPartitionId = .ok f')
    (hg : g.toPartitionId = .ok g') (hlf : Legible f') (hlg : Legible g') :
    (∃ s t, f'.sql = .ok s ∧ g'.sql = .ok t ∧ (s = t → f'.folded = g'.folded)) ∧
      ∀ (id : TableId) (limit : Int),
        id.filteredQuery (some f') limit = id.filteredQuery (some g') limit →
          f'.folded = g'.folded := by
  have hif := overIds_of_toPartitionId f hf
  have hig := overIds_of_toPartitionId g hg
  have hsame : String.ofList f'.sqlChars = String.ofList g'.sqlChars → f'.folded = g'.folded :=
    fun h => folded_eq_of_sqlChars_eq ⟨hlf, hif⟩ ⟨hlg, hig⟩ (String.ofList_injective h)
  refine ⟨⟨_, _, hif.sql_eq, hig.sql_eq, hsame⟩, fun id limit h => hsame ?_⟩
  simp only [TableId.filteredQuery, hif.sql_eq, hig.sql_eq, Except.ok.injEq] at h
  exact condition_eq_of_query_eq h

/-- Letter case and types cannot be seen in a text, and all else can: not even a constant
that looks like two is taken for two. -/
theorem case_and_types_not_seen :
    let f (column conjunction member type day : String) := call conjunction [
      call member [.column column, constant type (.text "a', 'b"), constant type (.text "\\")],
      call "STARTS_WITH" [.column column, constant type (.text day)]]
    let g (conjunction member type : String) :=
      f partitionIdColumn conjunction member type "202306"
    (f "dt" "AND" "in" "string" "2023-06").toPartitionId = .ok (g "AND" "in" "string") ∧
      (f "dt" "and" "In" "date" "2023-06").toPartitionId = .ok (g "and" "In" "date") ∧
      Legible (g "AND" "in" "string") ∧ Legible (g "and" "In" "date") ∧
      (g "AND" "in" "string").sql = (g "and" "In" "date").sql ∧
      (g "AND" "in" "string").folded = (g "and" "In" "date").folded := by
  intro f g
  have hlegible : ∀ conjunction member type, IsIdentifier conjunction → IsIdentifier member →
      Legible (g conjunction member type) := by
    intro conjunction member type hc hm
    refine .call (.inr hc) (fun _ => le_refl 2) fun x hx => ?_
    simp only [List.mem_cons, List.not_mem_nil, or_false] at hx
    rcases hx with rfl | rfl
    · refine .call (.inr hm) (fun _ => Nat.le_succ 2) fun y hy => ?_
      simp only [List.mem_cons, List.not_mem_nil, or_false] at hy
      rcases hy with rfl | rfl | rfl <;> constructor
    · have hs : IsIdentifier "STARTS_WITH" := ⟨'S', _, rfl, rfl, List.all_eq_true.mp rfl⟩
      refine .call (.inr hs) (fun _ => le_refl 2) fun y hy => ?_
      simp only [List.mem_cons, List.not_mem_nil, or_false] at hy
      rcases hy with rfl | rfl <;> constructor
  have hf := hlegible "AND" "in" "string" ⟨'A', _, rfl, rfl, List.all_eq_true.mp rfl⟩
    ⟨'i', _, rfl, rfl, List.all_eq_true.mp rfl⟩
  have hg := hlegible "and" "In" "date" ⟨'a', _, rfl, rfl, List.all_eq_true.mp rfl⟩
    ⟨'I', _, rfl, rfl, List.all_eq_true.mp rfl⟩
  have hsql : (g "AND" "in" "string").sql = (g "and" "In" "date").sql := rfl
  obtain ⟨⟨s, t, hs, ht, hsame⟩, -⟩ := folded_eq_of_sql_eq
    (f := f "dt" "AND" "in" "string" "2023-06") (g := f "dt" "and" "In" "date" "2023-06")
    rfl rfl hf hg
  refine ⟨rfl, rfl, hf, hg, hsql, hsame ?_⟩
  exact Except.ok.inj (hs.symm.trans (hsql.trans ht))

end LinkedTables.Filter
