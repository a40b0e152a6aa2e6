import LinkedTables.Proofs.Json.Grammar
import LinkedTables.Proofs.Text.Digits

set_option autoImplicit false

/-! # Reading blanks, texts and numbers

The readers of the parts that have no members accept what the grammar allows. Each reader
comes with two statements. A spelling is read from the front of a text if what follows
cannot be taken for more of it, and whatever is read was spelled at the front of the text.
-/

namespace LinkedTables.Json

open Text (NoDigit takeWhile_isDigit_append dropWhile_isDigit_append)

/-! ## Blanks -/

/-- A text does not go on with a blank. -/
def NoBlank (cs : List Char) : Prop := ∀ c, cs.head? = some c → isBlank c = false

theorem skipBlanks_append {ws rest : List Char} (hw : Blanks ws) (hr : NoBlank rest) :
    skipBlanks (ws ++ rest) = rest := by
  rw [skipBlanks, List.dropWhile_append_of_pos hw]
  cases rest with
  | nil => rfl
  | cons c rest => simp [hr c rfl]

theorem exists_blanks (cs : List Char) : ∃ ws, Blanks ws ∧ cs = ws ++ skipBlanks cs :=
  ⟨cs.takeWhile isBlank, fun _ hc => List.mem_takeWhile_imp hc,
    List.takeWhile_append_dropWhile.symm⟩

/-! ## Texts -/

theorem textBody?_unit {a b c d : Char} {n : Nat} (h : hexValue? a b c d = some n)
    (hh : isHighHalf n = false) (hl : isLowHalf n = false) (cs : List Char) :
    textBody? ('\\' :: 'u' :: a :: b :: c :: d :: cs) =
      (textBody? cs).map fun (body, rest) => (Char.ofNat n :: body, rest) := by
  -- Only in front of a second code unit does the reader look for a pair.
  by_cases hp : ∃ a' b' c' d' cs', cs = '\\' :: 'u' :: a' :: b' :: c' :: d' :: cs'
  · obtain ⟨a', b', c', d', cs', rfl⟩ := hp
    rw [textBody?.eq_3, h, Option.map_eq_bind]
    simp [hh, hl]
  · rw [textBody?.eq_4 _ _ _ _ _ (by simpa using hp), h, Option.map_eq_bind]
    simp [hh, hl]

theorem textBody?_piece {cs : List Char} {c : Char} (h : Piece cs c) (rest : List Char) :
    textBody? (cs ++ rest) =
      (textBody? rest).map fun (body, rest) => (c :: body, rest) := by
  cases h with
  | plain hq hb hc =>
      rw [List.singleton_append, textBody?.eq_6 _ _ hq (by simp [hb]) (by simp [hb])
        (by simp [hb]), if_neg (by simp [hb]; omega), Option.map_eq_bind]
      rfl
  | @letter e c h =>
      have he : e ≠ 'u' := by rintro rfl; simp [escapeLetter?] at h
      rw [List.cons_append, List.singleton_append,
        textBody?.eq_5 _ _ (by simp [he]) (by simp [he]), h, Option.map_eq_bind]
      rfl
  | unit h hh hl => exact textBody?_unit h hh hl rest
  | pair h hh h' hl =>
      simp only [List.cons_append, List.nil_append]
      rw [textBody?.eq_3, h, h', Option.map_eq_bind]
      simp [hh, hl]

theorem textBody?_append {cs body : List Char} (h : Body cs body) (rest : List Char) :
    textBody? (cs ++ '"' :: rest) = some (body, rest) := by
  induction h with
  | nil => simp [textBody?]
  | cons hc _ ih => rw [List.append_assoc, textBody?_piece hc, ih]; rfl

theorem text?_append {cs : List Char} {s : String} (h : Quoted ('"' :: cs) s)
    (rest : List Char) : text? (cs ++ rest) = some (s, rest) := by
  cases h with
  | mk h =>
      rw [text?, List.append_assoc, List.singleton_append, textBody?_append h]
      rfl

/-- A text starts with spelled characters and the quote that closes them. -/
def StartsWithBody (cs body rest : List Char) : Prop :=
  ∃ front, Body front body ∧ cs = front ++ '"' :: rest

theorem StartsWithBody.cons {ps cs body rest : List Char} {c : Char} (hp : Piece ps c)
    (h : StartsWithBody cs body rest) : StartsWithBody (ps ++ cs) (c :: body) rest := by
  obtain ⟨front, hb, rfl⟩ := h
  exact ⟨ps ++ front, .cons hp hb, (List.append_assoc _ _ _).symm⟩

theorem startsWithBody_of_textBody? {cs body rest : List Char}
    (h : textBody? cs = some (body, rest)) : StartsWithBody cs body rest := by
  -- The cases are those of the reader: the end, a pair, one unit, a letter, a plain character.
  fun_induction textBody? cs generalizing body with
  | case1 => cases h
  | case2 cs =>
      obtain ⟨rfl, rfl⟩ : [] = body ∧ cs = rest := by simpa using h
      exact ⟨[], .nil, rfl⟩
  | case3 a b c d a' b' c' d' cs ihPair ihUnit =>
      simp only [Option.bind_eq_bind, Option.bind_eq_some_iff] at h
      obtain ⟨n, hn, h⟩ := h
      by_cases hh : isHighHalf n = true
      · simp only [hh, if_true, Option.bind_eq_some_iff] at h
        obtain ⟨m, hm, h⟩ := h
        by_cases hl : isLowHalf m = true
        · simp [hl, Option.bind_eq_some_iff] at h
          obtain ⟨body', hb, rfl⟩ := h
          exact (ihPair hb).cons (.pair hn hh hm hl)
        · simp [hl] at h
      · by_cases hl : isLowHalf n = true
        · simp [hh, hl] at h
        · simp [hh, hl, Option.bind_eq_some_iff] at h
          obtain ⟨body', hb, rfl⟩ := h
          exact (ihUnit hb).cons (.unit hn (by simpa using hh) (by simpa using hl))
  | case4 a b c d cs _ ih =>
      simp only [Option.bind_eq_bind, Option.bind_eq_some_iff] at h
      obtain ⟨n, hn, h⟩ := h
      by_cases hu : (isHighHalf n || isLowHalf n) = true
      · simp [hu] at h
      · simp [hu, Option.bind_eq_some_iff] at h
        obtain ⟨body', hb, rfl⟩ := h
        obtain ⟨hh, hl⟩ : isHighHalf n = false ∧ isLowHalf n = false := by simpa using hu
        exact (ih hb).cons (.unit hn hh hl)
  | case5 e cs _ _ ih =>
      simp [Option.bind_eq_some_iff] at h
      obtain ⟨c, hc, body', hb, rfl⟩ := h
      exact (ih hb).cons (.letter hc)
  | case6 => cases h
  | case7 c cs hq _ _ _ hc ih =>
      simp [Option.bind_eq_some_iff] at h
      obtain ⟨body', hb, rfl⟩ := h
      push Not at hc
      exact (ih hb).cons (.plain hq hc.1 hc.2)

theorem exists_quoted {cs rest : List Char} {s : String} (h : text? cs = some (s, rest)) :
    ∃ front, Quoted ('"' :: front) s ∧ cs = front ++ rest := by
  rw [text?, Option.map_eq_some_iff] at h
  obtain ⟨⟨body, rest'⟩, hb, h⟩ := h
  obtain ⟨rfl, rfl⟩ := Prod.mk.inj h
  obtain ⟨front, hf, rfl⟩ := startsWithBody_of_textBody? hb
  exact ⟨front ++ ['"'], .mk hf, by simp⟩

/-! ## Numbers -/

/-- What follows a number cannot be taken for more of it. -/
def NoNumber (cs : List Char) : Prop :=
  ∀ c, cs.head? = some c → c.isDigit = false ∧ c ≠ '.' ∧ c ≠ 'e' ∧ c ≠ 'E'

theorem NoNumber.noDigit {cs : List Char} (h : NoNumber cs) : NoDigit cs :=
  fun c hc => (h c hc).1

/-- A text starts with digits, of which it has one at least. -/
theorem digits_takeWhile {cs : List Char} (h : cs.takeWhile Char.isDigit ≠ []) :
    Digits (cs.takeWhile Char.isDigit) :=
  ⟨h, fun _ hd => List.mem_takeWhile_imp hd⟩

theorem wholeDigits?_append {ds rest : List Char} (h : Whole ds) (hr : NoDigit rest) :
    wholeDigits? (ds ++ rest) = some (ds, rest) := by
  rcases h with rfl | ⟨⟨hne, hd⟩, h0, hlen⟩
  · rfl
  · rw [wholeDigits?.eq_2 _ (by rintro tail h; cases ds <;> simp_all),
      takeWhile_isDigit_append hd hr, dropWhile_isDigit_append hd hr]
    split
    · contradiction
    · rw [if_pos hlen]

theorem exists_whole {cs ds rest : List Char} (h : wholeDigits? cs = some (ds, rest)) :
    Whole ds ∧ cs = ds ++ rest := by
  rw [wholeDigits?.eq_def] at h
  split at h
  · obtain ⟨rfl, rfl⟩ : ['0'] = ds ∧ _ = rest := by simpa using h
    exact ⟨Or.inl rfl, rfl⟩
  · rename_i h0
    split at h
    · cases h
    · rename_i hne
      rw [Option.ite_none_right_eq_some] at h
      obtain ⟨hlen, h⟩ := h
      obtain ⟨rfl, rfl⟩ :
          cs.takeWhile Char.isDigit = ds ∧ cs.dropWhile Char.isDigit = rest := by simpa using h
      refine ⟨Or.inr ⟨digits_takeWhile hne, ?_, hlen⟩, List.takeWhile_append_dropWhile.symm⟩
      -- A zero in front would have been read alone.
      cases cs with
      | nil => simp
      | cons c cs =>
          by_cases hc : c.isDigit = true
          · simpa [hc] using fun hc => h0 cs (by rw [hc])
          · simp [hc]

theorem partDigits?_append {ps rest : List Char} {part : Option (List Char)} (h : Part ps part)
    (hr : NoDigit rest) (hp : rest.head? ≠ some '.') :
    partDigits? (ps ++ rest) = some (part, rest) := by
  cases h with
  | absent =>
      rw [List.nil_append, partDigits?.eq_2 _ (by rintro tail rfl; exact hp rfl)]
  | present h =>
      obtain ⟨hne, hd⟩ := h
      rw [List.cons_append, partDigits?.eq_1, takeWhile_isDigit_append hd hr,
        dropWhile_isDigit_append hd hr]
      split
      · contradiction
      · rfl

theorem exists_part {cs rest : List Char} {part : Option (List Char)}
    (h : partDigits? cs = some (part, rest)) : ∃ ps, Part ps part ∧ cs = ps ++ rest := by
  rw [partDigits?.eq_def] at h
  split at h
  · split at h
    · cases h
    · rename_i tail _ hne
      obtain ⟨rfl, rfl⟩ : some (tail.takeWhile Char.isDigit) = part ∧
          tail.dropWhile Char.isDigit = rest := by simpa using h
      exact ⟨_, .present (digits_takeWhile hne), by
        rw [List.cons_append, List.takeWhile_append_dropWhile]⟩
  · obtain ⟨rfl, rfl⟩ : none = part ∧ cs = rest := by simpa using h
    exact ⟨[], .absent, rfl⟩

/-- A sign in front of digits is told from them. -/
theorem power?_sign {sign ds : List Char} {negative : Bool} (hs : Sign sign negative)
    (hm : ds.head? ≠ some '-') (hp : ds.head? ≠ some '+') :
    Binary64.power? (sign ++ ds) =
      match ds.takeWhile Char.isDigit with
      | [] => none
      | ts => some (signed negative (Binary64.digitsOf ts), ds.dropWhile Char.isDigit) := by
  cases hs with
  | absent =>
      rw [List.nil_append, Binary64.power?.eq_def]
      split
      rename_i n ds' heq
      split at heq
      · simp at hm
      · simp at hp
      · obtain ⟨rfl, rfl⟩ : false = n ∧ ds = ds' := by simpa using heq
        rfl
  | plus => rfl
  | minus => rfl

theorem power?_append {sign ds rest : List Char} {negative : Bool} (hs : Sign sign negative)
    (h : Digits ds) (hr : NoDigit rest) :
    Binary64.power? (sign ++ (ds ++ rest)) =
      some (signed negative (Binary64.digitsOf ds), rest) := by
  obtain ⟨hne, hd⟩ := h
  obtain ⟨d, ds, rfl⟩ := List.exists_cons_of_ne_nil hne
  have hd0 := hd d (by simp)
  rw [power?_sign hs (by rintro ⟨⟩; simp at hd0) (by rintro ⟨⟩; simp at hd0),
    takeWhile_isDigit_append hd hr, dropWhile_isDigit_append hd hr]

theorem exists_sign {cs rest : List Char} {power : Int}
    (h : Binary64.power? cs = some (power, rest)) :
    ∃ sign negative ds, Sign sign negative ∧ Digits ds ∧
      power = signed negative (Binary64.digitsOf ds) ∧ cs = sign ++ (ds ++ rest) := by
  rw [Binary64.power?.eq_def] at h
  split at h
  rename_i negative ds heq
  -- First the sign is taken off, and then the digits.
  have hs : ∃ sign, Sign sign negative ∧ cs = sign ++ ds := by
    split at heq <;> cases heq
    · exact ⟨_, .minus, rfl⟩
    · exact ⟨_, .plus, rfl⟩
    · exact ⟨_, .absent, rfl⟩
  obtain ⟨sign, hs, rfl⟩ := hs
  split at h
  · cases h
  · rename_i hne
    obtain ⟨rfl, rfl⟩ : signed negative (Binary64.digitsOf (ds.takeWhile Char.isDigit)) = power ∧
        ds.dropWhile Char.isDigit = rest := by simpa [signed] using h
    exact ⟨sign, negative, _, hs, digits_takeWhile hne, rfl, by
      rw [List.takeWhile_append_dropWhile]⟩

theorem powerPart?_append {es rest : List Char} {power : Option Int} (h : Power es power)
    (hr : NoNumber rest) : powerPart? (es ++ rest) = some (power, rest) := by
  cases h with
  | absent =>
      cases rest with
      | nil => rfl
      | cons c rest =>
          obtain ⟨_, _, he, hE⟩ := hr c rfl
          rw [List.nil_append, powerPart?, if_neg (by simp [he, hE])]
  | present he hs hd =>
      rw [List.cons_append, powerPart?, if_pos he, List.append_assoc,
        power?_append hs hd hr.noDigit]
      rfl

theorem exists_power {cs rest : List Char} {power : Option Int}
    (h : powerPart? cs = some (power, rest)) : ∃ es, Power es power ∧ cs = es ++ rest := by
  cases cs with
  | nil =>
      obtain ⟨rfl, rfl⟩ : none = power ∧ [] = rest := by simpa [powerPart?] using h
      exact ⟨[], .absent, rfl⟩
  | cons c cs =>
      rw [powerPart?] at h
      split at h
      · rename_i he
        rw [Option.map_eq_some_iff] at h
        obtain ⟨⟨n, rest'⟩, hp, h⟩ := h
        obtain ⟨rfl, rfl⟩ : some n = power ∧ rest' = rest := by simpa using h
        obtain ⟨sign, negative, ds, hs, hd, rfl, rfl⟩ := exists_sign hp
        exact ⟨_, .present he hs hd, by simp⟩
      · obtain ⟨rfl, rfl⟩ : none = power ∧ c :: cs = rest := by simpa using h
        exact ⟨[], .absent, rfl⟩

/-- What comes after the whole digits and their part is no more of either. -/
theorem Power.ends {es rest : List Char} {power : Option Int} (h : Power es power)
    (hr : NoNumber rest) : NoDigit (es ++ rest) ∧ (es ++ rest).head? ≠ some '.' := by
  cases h with
  | absent => exact ⟨hr.noDigit, fun h => (hr _ h).2.1 rfl⟩
  | present he _ _ => rcases he with rfl | rfl <;> simp [NoDigit]

theorem Part.noDigit {ps rest : List Char} {part : Option (List Char)} (h : Part ps part)
    (hr : NoDigit rest) : NoDigit (ps ++ rest) := by
  cases h with
  | absent => exact hr
  | present _ => simp [NoDigit]

/-- A number is read by reading its three parts. -/
theorem unsigned?_eq {negative : Bool} {cs cs₁ cs₂ cs₃ ds : List Char}
    {part : Option (List Char)} {power : Option Int} (hw : wholeDigits? cs = some (ds, cs₁))
    (hp : partDigits? cs₁ = some (part, cs₂)) (he : powerPart? cs₂ = some (power, cs₃)) :
    unsigned? negative cs = some (
      if part = none ∧ power = none then .int (signed negative (Binary64.digitsOf ds))
      else .float (Binary64.ofParts negative ds (part.getD []) (power.getD 0)), cs₃) := by
  simp only [unsigned?, hw, hp, he, Option.bind_eq_bind, Option.bind_some]
  cases part <;> cases power <;> simp [signed]

theorem unsigned?_append {negative : Bool} {cs rest : List Char} {v : Value}
    (h : Number negative cs v) (hr : NoNumber rest) :
    unsigned? negative (cs ++ rest) = some (v, rest) := by
  cases h with
  | whole h =>
      -- Neither a part nor a power is there, which is how a number is known to be whole.
      have hp := Power.absent.ends hr
      rw [unsigned?_eq (wholeDigits?_append h hr.noDigit)
        (partDigits?_append Part.absent hp.1 hp.2) (powerPart?_append Power.absent hr)]
      rfl
  | double h hp he hd =>
      have hn := he.ends hr
      rw [List.append_assoc, List.append_assoc,
        unsigned?_eq (wholeDigits?_append h (hp.noDigit hn.1)) (partDigits?_append hp hn.1 hn.2)
          (powerPart?_append he hr), if_neg (by tauto)]

theorem exists_number {negative : Bool} {cs rest : List Char} {v : Value}
    (h : unsigned? negative cs = some (v, rest)) :
    ∃ front, Number negative front v ∧ cs = front ++ rest := by
  have hu := h
  simp only [unsigned?, Option.bind_eq_bind, Option.bind_eq_some_iff] at h
  obtain ⟨⟨ds, cs₁⟩, hw, ⟨part, cs₂⟩, hp, ⟨power, cs₃⟩, he, -⟩ := h
  rw [unsigned?_eq hw hp he] at hu
  obtain ⟨rfl, rfl⟩ := Prod.mk.inj (Option.some.inj hu)
  obtain ⟨hds, rfl⟩ := exists_whole hw
  obtain ⟨ps, hps, rfl⟩ := exists_part hp
  obtain ⟨es, hes, rfl⟩ := exists_power he
  split
  · rename_i hn
    obtain ⟨rfl, rfl⟩ := hn
    cases hps; cases hes
    exact ⟨ds, .whole hds, rfl⟩
  · rename_i hn
    exact ⟨_, .double hds hps hes (by tauto), by simp⟩

/-! ## Atoms -/

theorem after?_eq_some_iff {word : String} {cs rest : List Char} :
    after? word cs = some rest ↔ cs = word.toList ++ rest := by
  rw [after?, List.isPrefixOf?_eq_some_iff_append_eq, eq_comm]

/-- A number does not start like a word. -/
theorem after?_digit {word : String} {d : Char} {cs : List Char} (hd : d.isDigit = true)
    (hw : ∃ c, word.toList.head? = some c ∧ c.isDigit = false) : after? word (d :: cs) = none := by
  rw [Option.eq_none_iff_forall_ne_some]
  intro rest h
  rw [after?_eq_some_iff] at h
  obtain ⟨c, hc, hn⟩ := hw
  cases hl : word.toList with
  | nil => simp [hl] at hc
  | cons c' w =>
      obtain ⟨rfl, _⟩ : d = c' ∧ cs = w ++ rest := by simpa [hl] using h
      obtain rfl : d = c := by simpa [hl] using hc
      simp [hd] at hn

theorem Whole.exists_digit {ds : List Char} (h : Whole ds) :
    ∃ d tail, ds = d :: tail ∧ d.isDigit = true := by
  rcases h with rfl | ⟨⟨hne, hd⟩, _⟩
  · exact ⟨'0', [], rfl, rfl⟩
  · obtain ⟨d, tail, rfl⟩ := List.exists_cons_of_ne_nil hne
    exact ⟨d, tail, rfl, hd d (by simp)⟩

theorem Number.exists_digit {negative : Bool} {cs : List Char} {v : Value}
    (h : Number negative cs v) : ∃ d tail, cs = d :: tail ∧ d.isDigit = true := by
  cases h with
  | whole h => exact h.exists_digit
  | double h _ _ _ =>
      obtain ⟨d, tail, rfl, hd⟩ := h.exists_digit
      exact ⟨d, _, rfl, hd⟩

theorem number?_digit {d : Char} (hd : d.isDigit = true) (cs : List Char) :
    number? (d :: cs) = unsigned? false (d :: cs) := by
  rw [number?.eq_2 _ (by rintro rest h; cases h; simp at hd),
    after?_digit hd ⟨'I', rfl, rfl⟩, after?_digit hd ⟨'N', rfl, rfl⟩]

theorem number?_minus_digit {d : Char} (hd : d.isDigit = true) (cs : List Char) :
    number? ('-' :: d :: cs) = unsigned? true (d :: cs) := by
  rw [number?.eq_1, after?_digit hd ⟨'I', rfl, rfl⟩]

theorem atom?_digit {d : Char} (hd : d.isDigit = true) (cs : List Char) :
    atom? (d :: cs) = number? (d :: cs) := by
  rw [atom?, after?_digit hd ⟨'n', rfl, rfl⟩, after?_digit hd ⟨'t', rfl, rfl⟩,
    after?_digit hd ⟨'f', rfl, rfl⟩]

theorem atom?_append {cs rest : List Char} {v : Value} (h : Atom cs v) (hr : NoNumber rest) :
    atom? (cs ++ rest) = some (v, rest) := by
  cases h with
  | null => rfl
  | truth => rfl
  | falsehood => rfl
  | number h =>
      have hu := unsigned?_append h hr
      obtain ⟨d, tail, rfl, hd⟩ := h.exists_digit
      rw [List.cons_append, atom?_digit hd, number?_digit hd]
      exact hu
  | negative h =>
      have hu := unsigned?_append h hr
      obtain ⟨d, tail, rfl, hd⟩ := h.exists_digit
      exact (number?_minus_digit hd _).trans hu
  | infinity => rfl
  | minusInfinity => rfl
  | nan => rfl

/-- A word at the front of a text is a spelling of what it stands for. -/
theorem exists_word {word : String} {cs tail rest : List Char} {u v : Value}
    (ha : after? word cs = some tail) (hw : Atom word.toList u)
    (h : some (u, tail) = some (v, rest)) : ∃ front, Atom front v ∧ cs = front ++ rest := by
  obtain ⟨rfl, rfl⟩ := Prod.mk.inj (Option.some.inj h)
  exact ⟨word.toList, hw, after?_eq_some_iff.mp ha⟩

theorem exists_signed {cs rest : List Char} {v : Value} (h : number? cs = some (v, rest)) :
    ∃ front, Atom front v ∧ cs = front ++ rest := by
  rw [number?.eq_def] at h
  split at h
  · split at h
    · rename_i ha
      obtain ⟨rfl, rfl⟩ := Prod.mk.inj (Option.some.inj h)
      exact ⟨_, .minusInfinity, by rw [after?_eq_some_iff.mp ha]; rfl⟩
    · obtain ⟨front, hn, rfl⟩ := exists_number h
      exact ⟨_, .negative hn, rfl⟩
  · split at h
    · rename_i ha
      exact exists_word ha .infinity h
    · rename_i ha
      exact exists_word ha .nan h
    · obtain ⟨front, hn, rfl⟩ := exists_number h
      exact ⟨_, .number hn, rfl⟩

theorem exists_atom {cs rest : List Char} {v : Value} (h : atom? cs = some (v, rest)) :
    ∃ front, Atom front v ∧ cs = front ++ rest := by
  rw [atom?] at h
  split at h
  · rename_i ha
    exact exists_word ha .null h
  · rename_i ha
    exact exists_word ha .truth h
  · rename_i ha
    exact exists_word ha .falsehood h
  · exact exists_signed h

end LinkedTables.Json
