import LinkedTables.Partition.DayId
import LinkedTables.Proofs.Text.Digits

set_option autoImplicit false

/-! # The ids of days

Eight digits are aligned with a date when the first four are its year, the next two its month
and the last two its day. A month and a day may also be read from one digit each, so that
it has to be shown that the reading in fields of fixed width is the one that is found and
that no other one is ever accepted: `parse_eq_ok_iff`. The digits may be of any script where
the fields are read as such, which is everywhere in the year (`PlainFields`).

Eight ASCII digits that are aligned with a date spell it (`Spells`). From the year 1000 on,
the value of the partition is the id with two dashes put in: `dashed_of_spells`.

A list of ids is converted as a whole or not at all: `toValues_eq_ok_iff` and
`toValues_eq_error`.
-/

namespace LinkedTables.DayId

/-- Eight ASCII digits that are the year, the month and the day of a date. -/
structure Spells (id : String) (d : Date) : Prop where
  /-- There are eight characters. -/
  length_eq : id.toList.length = 8
  /-- All of them are ASCII digits. -/
  isDigit : ∀ c ∈ id.toList, c.isDigit = true
  /-- The first four are the year. -/
  year_eq : Text.digitsValue (id.toList.take 4) = d.year
  /-- The next two are the month. -/
  month_eq : Text.digitsValue ((id.toList.drop 4).take 2) = d.month
  /-- The last two are the day. -/
  day_eq : Text.digitsValue (id.toList.drop 6) = d.day
  /-- The date is one of the calendar. -/
  valid : d.Valid

/-- Eight decimal digits of any script that are a year, a month and a day. -/
structure Fields (id : String) (d : Date) : Prop where
  /-- There are eight characters. -/
  length_eq : id.toList.length = 8
  /-- All of them are decimal digits. -/
  isDecimalDigit : ∀ c ∈ id.toList, Text.isDecimalDigit c = true
  /-- The first four are the year. -/
  year_eq : Text.digitsValue (id.toList.take 4) = d.year
  /-- The next two are the month. -/
  month_eq : Text.digitsValue ((id.toList.drop 4).take 2) = d.month
  /-- The last two are the day. -/
  day_eq : Text.digitsValue (id.toList.drop 6) = d.day

/-- Eight decimal digits of any script that are the year, the month and the day of a date. -/
structure Aligned (id : String) (d : Date) : Prop extends Fields id d where
  /-- The date is one of the calendar. -/
  valid : d.Valid

/-- The digits of a month are ASCII digits. -/
def MonthDigits (a b : Char) : Prop := a.isDigit = true ∧ b.isDigit = true

/-- The digits of a day are ASCII digits, but for the second one of a day from 10 to 29. -/
def DayDigits (a b : Char) : Prop :=
  a.isDigit = true ∧ (b.isDigit = true ∨ a = '1' ∨ a = '2')

/-- The month and the day of an id have digits of the scripts in which they are read. -/
structure PlainFields (id : String) : Prop where
  /-- The two characters behind the year are digits of a month. -/
  month : ∀ a b, (id.toList.drop 4).take 2 = [a, b] → MonthDigits a b
  /-- The last two characters are digits of a day. -/
  day : ∀ a b, id.toList.drop 6 = [a, b] → DayDigits a b

theorem Spells.aligned {id : String} {d : Date} (h : Spells id d) : Aligned id d :=
  ⟨⟨h.length_eq, fun c hc => Text.isDecimalDigit_of_isDigit (h.isDigit c hc), h.year_eq,
    h.month_eq, h.day_eq⟩, h.valid⟩

theorem Aligned.spells {id : String} {d : Date} (h : Aligned id d)
    (hdigit : ∀ c ∈ id.toList, c.isDigit = true) : Spells id d :=
  ⟨h.length_eq, hdigit, h.year_eq, h.month_eq, h.day_eq, h.valid⟩

theorem plainFields_of_isDigit {id : String} (h : ∀ c ∈ id.toList, c.isDigit = true) :
    PlainFields id := by
  constructor
  · intro a b hab
    have hmonth : ∀ c ∈ [a, b], c.isDigit = true := fun c hc =>
      h c (List.mem_of_mem_drop (List.mem_of_mem_take (hab ▸ hc)))
    exact ⟨hmonth a (by simp), hmonth b (by simp)⟩
  · intro a b hab
    have hday : ∀ c ∈ [a, b], c.isDigit = true := fun c hc =>
      h c (List.mem_of_mem_drop (hab ▸ hc))
    exact ⟨hday a (by simp), .inl (hday b (by simp))⟩

/-! ## Reading the fields -/

theorem between_iff (low high c : Char) :
    between low high c = true ↔ low.toNat ≤ c.toNat ∧ c.toNat ≤ high.toNat := by
  rw [between, Bool.and_eq_true, decide_eq_true_eq, decide_eq_true_eq, Char.le_def, Char.le_def,
    UInt32.le_iff_toNat_le, UInt32.le_iff_toNat_le]
  rfl

theorem digitsValue_two {a b : Char} (ha : a.isDigit = true) (hb : b.isDigit = true) :
    Text.digitsValue [a, b] = 10 * (a.toNat - 48) + (b.toNat - 48) := by
  simp [Text.digitsValue, Text.decimalDigit?_of_isDigit ha, Text.decimalDigit?_of_isDigit hb]

/-- Two digits of a month are read as that month before anything else is tried. -/
theorem monthReadings_of_digits {a b : Char} (h : MonthDigits a b) (rest : List Char)
    (hlo : 1 ≤ Text.digitsValue [a, b]) (hhi : Text.digitsValue [a, b] ≤ 12) :
    ∃ others, monthReadings (a :: b :: rest) = (Text.digitsValue [a, b], rest) :: others := by
  obtain ⟨ha, hb⟩ := h
  have hfit : a = '1' ∧ between '0' '2' b ∨ a = '0' ∧ between '1' '9' b := by
    obtain ⟨ha0, _⟩ := Text.toNat_of_isDigit ha
    obtain ⟨hb0, hb9⟩ := Text.toNat_of_isDigit hb
    rw [digitsValue_two ha hb] at hlo hhi
    simp only [between_iff, ← Char.toNat_inj, Char.reduceToNat]
    omega
  rw [monthReadings, if_pos hfit]
  exact ⟨_, rfl⟩

/-- Two digits of a day are read as that day. -/
theorem day?_of_digits {a b : Char} (h : DayDigits a b) (hb' : Text.isDecimalDigit b = true)
    (rest : List Char) (hlo : 1 ≤ Text.digitsValue [a, b])
    (hhi : Text.digitsValue [a, b] ≤ 31) :
    day? (a :: b :: rest) = some (Text.digitsValue [a, b], rest) := by
  obtain ⟨ha, hb⟩ := h
  have hfit : a = '3' ∧ between '0' '1' b ∨ between '1' '2' a ∧ Text.isDecimalDigit b
      ∨ a = '0' ∧ between '1' '9' b := by
    rcases hb with hb | rfl | rfl
    · obtain ⟨ha0, _⟩ := Text.toNat_of_isDigit ha
      obtain ⟨hb0, hb9⟩ := Text.toNat_of_isDigit hb
      rw [digitsValue_two ha hb] at hlo hhi
      simp only [between_iff, ← Char.toNat_inj, Char.reduceToNat, hb', and_true]
      omega
    · exact .inr (.inl ⟨by decide, hb'⟩)
    · exact .inr (.inl ⟨by decide, hb'⟩)
  rw [day?, if_pos hfit]

theorem daysInMonth_le (year month : Nat) : daysInMonth year month ≤ 31 := by
  unfold daysInMonth
  split <;> try omega
  split <;> omega

/-! ## The date of an id -/

/-- Eight characters, one by one. -/
theorem exists_of_length_eq {cs : List Char} (h : cs.length = 8) :
    ∃ y₁ y₂ y₃ y₄ m₁ m₂ d₁ d₂, cs = [y₁, y₂, y₃, y₄, m₁, m₂, d₁, d₂] := by
  match cs, h with
  | [y₁, y₂, y₃, y₄, m₁, m₂, d₁, d₂], _ => exact ⟨y₁, y₂, y₃, y₄, m₁, m₂, d₁, d₂, rfl⟩

/-- **The fields of an id are read in place.** -/
theorem parse_of_aligned {id : String} {d : Date} (h : Aligned id d) (hp : PlainFields id) :
    parse id = .ok d := by
  obtain ⟨y₁, y₂, y₃, y₄, m₁, m₂, d₁, d₂, hid⟩ := exists_of_length_eq h.length_eq
  obtain ⟨⟨-, hdec, hy, hm, hd⟩, hv⟩ := h
  obtain ⟨hmonth, hday⟩ := hp
  rw [hid] at hdec hy hm hd hmonth hday
  simp only [List.take_succ_cons, List.take_zero, List.drop_succ_cons, List.drop_zero]
    at hy hm hd hmonth hday
  have ⟨hy1, hm1, hm12, hd1, hdays⟩ := hv
  have height : isEightDigits id.toList = true := by
    rw [hid, isEightDigits, Bool.and_eq_true, List.all_eq_true]
    exact ⟨rfl, hdec⟩
  obtain ⟨others, hmonths⟩ :=
    monthReadings_of_digits (hmonth m₁ m₂ rfl) [d₁, d₂] (by omega) (by omega)
  have hread := day?_of_digits (hday d₁ d₂ rfl) (hdec d₂ (by simp)) []
    (by omega) (by have := daysInMonth_le d.year d.month; omega)
  -- The first reading of the month leaves just the day, and nothing after it.
  rw [parse, if_pos height, hid, readDigits]
  simp only [List.take_succ_cons, List.take_zero, List.drop_succ_cons, List.drop_zero, hmonths,
    List.filterMap_cons, hread, Option.map_some, hy, hm, hd]
  rw [if_neg (by simp), if_neg (by omega), if_pos hv]

theorem parse_of_spells {id : String} {d : Date} (h : Spells id d) : parse id = .ok d :=
  parse_of_aligned h.aligned (plainFields_of_isDigit h.isDigit)

theorem toValue_of_spells {id : String} {d : Date} (h : Spells id d) :
    toValue id = .ok d.dashed := by
  rw [toValue, parse_of_spells h]

/-- **The value of a partition** whose year has four digits is the id with dashes. -/
theorem dashed_of_spells {id : String} {d : Date} (h : Spells id d) (hy : 1000 ≤ d.year) :
    ∃ y₁ y₂ y₃ y₄ m₁ m₂ d₁ d₂, id.toList = [y₁, y₂, y₃, y₄, m₁, m₂, d₁, d₂] ∧
      d.dashed.toList = [y₁, y₂, y₃, y₄, '-', m₁, m₂, '-', d₁, d₂] := by
  obtain ⟨y₁, y₂, y₃, y₄, m₁, m₂, d₁, d₂, hid⟩ := exists_of_length_eq h.length_eq
  refine ⟨y₁, y₂, y₃, y₄, m₁, m₂, d₁, d₂, hid, ?_⟩
  obtain ⟨-, hdig, hyear, hmonth, hday, -⟩ := h
  rw [hid] at hdig hyear hmonth hday
  simp only [List.take_succ_cons, List.take_zero, List.drop_succ_cons, List.drop_zero]
    at hyear hmonth hday
  -- The year is written without leading zeros, and from 1000 on it was read without them.
  have hy₁ : y₁ ≠ '0' := by
    rintro rfl
    have hle : Text.digitsValue ['0', y₂, y₃, y₄] ≤ 999 := by
      obtain ⟨_, h₂⟩ := Text.toNat_of_isDigit (hdig y₂ (by simp))
      obtain ⟨_, h₃⟩ := Text.toNat_of_isDigit (hdig y₃ (by simp))
      obtain ⟨_, h₄⟩ := Text.toNat_of_isDigit (hdig y₄ (by simp))
      simp only [Text.digitsValue, List.foldl_cons, List.foldl_nil,
        Text.decimalDigit?_of_isDigit (hdig '0' (by simp)),
        Text.decimalDigit?_of_isDigit (hdig y₂ (by simp)),
        Text.decimalDigit?_of_isDigit (hdig y₃ (by simp)),
        Text.decimalDigit?_of_isDigit (hdig y₄ (by simp)), Option.getD_some, Char.reduceToNat]
      omega
    omega
  have hyears : Text.natDigits d.year = [y₁, y₂, y₃, y₄] := by
    rw [← hyear]
    exact Text.natDigits_digitsValue (fun c hc => hdig c (by simp at hc ⊢; tauto)) hy₁
  have hmonths : Text.paddedDigits 2 d.month = [m₁, m₂] := by
    rw [← hmonth]
    exact Text.paddedDigits_digitsValue_two (hdig m₁ (by simp)) (hdig m₂ (by simp))
  have hdays : Text.paddedDigits 2 d.day = [d₁, d₂] := by
    rw [← hday]
    exact Text.paddedDigits_digitsValue_two (hdig d₁ (by simp)) (hdig d₂ (by simp))
  rw [Date.dashed, String.toList_ofList, Date.dashedChars, hyears, hmonths, hdays]
  rfl

/-! ## Ids that have a date

A month or a day that is read from one digit leaves more than the other one can use up, so
only a reading in place comes to an end. -/

/-- A number is read from the first two characters of a text, which fit, or from the first
one. -/
inductive ReadAtFront (Fits : Char → Char → Prop) : List Char → Nat → List Char → Prop
  | two {a b : Char} (h : Fits a b) (rest : List Char) :
      ReadAtFront Fits (a :: b :: rest) (Text.digitsValue [a, b]) rest
  | one (a : Char) (rest : List Char) :
      ReadAtFront Fits (a :: rest) (Text.digitsValue [a]) rest

theorem isDigit_of_between {low high c : Char} (hlow : 48 ≤ low.toNat) (hhigh : high.toNat ≤ 57)
    (h : between low high c = true) : c.isDigit = true := by
  rw [between_iff] at h
  exact Char.isDigit_iff_toNat.mpr ⟨le_trans hlow h.1, le_trans h.2 hhigh⟩

theorem readAtFront_of_mem_monthReadings {cs rest : List Char} {month : Nat}
    (h : (month, rest) ∈ monthReadings cs) : ReadAtFront MonthDigits cs month rest := by
  unfold monthReadings at h
  rcases List.mem_append.mp h with h | h
  · split at h
    · obtain ⟨hfit, h⟩ := List.mem_ite_nil_right.mp h
      cases List.mem_singleton.mp h
      refine .two ?_ _
      rcases hfit with ⟨rfl, hb⟩ | ⟨rfl, hb⟩
      · exact ⟨rfl, isDigit_of_between (by decide) (by decide) hb⟩
      · exact ⟨rfl, isDigit_of_between (by decide) (by decide) hb⟩
    · cases h
  · split at h
    · cases List.mem_singleton.mp (List.mem_ite_nil_right.mp h).2
      exact .one ..
    · cases h

theorem readAtFront_of_day? {cs rest : List Char} {day : Nat}
    (h : day? cs = some (day, rest)) : ReadAtFront DayDigits cs day rest := by
  have hone {a : Char} {tail : List Char}
      (h : (if between '1' '9' a then some (Text.digitsValue [a], tail) else none) =
        some (day, rest)) : ReadAtFront DayDigits (a :: tail) day rest := by
    cases (Option.ite_none_right_eq_some.mp h).2
    exact .one ..
  match cs with
  | [] => cases h
  | [a] => exact hone h
  | a :: b :: tail =>
      unfold day? at h
      simp only at h
      split at h
      next hfit =>
        cases h
        refine .two ?_ _
        rcases hfit with ⟨rfl, hb⟩ | ⟨ha, -⟩ | ⟨rfl, hb⟩
        · exact ⟨rfl, .inl (isDigit_of_between (by decide) (by decide) hb)⟩
        · refine ⟨isDigit_of_between (by decide) (by decide) ha, .inr ?_⟩
          rw [between_iff] at ha
          simp only [← Char.toNat_inj, Char.reduceToNat] at ha ⊢
          omega
        · exact ⟨rfl, .inl (isDigit_of_between (by decide) (by decide) hb)⟩
      next => exact hone h

/-- A date is read up to the end: a month after the year and a day after the month. -/
theorem exists_read_of_readDigits {cs : List Char} {d : Date} (h : readDigits cs = .ok d) :
    Text.digitsValue (cs.take 4) = d.year ∧ d.Valid ∧
      ∃ behind, ReadAtFront MonthDigits (cs.drop 4) d.month behind ∧
        ReadAtFront DayDigits behind d.day [] := by
  rw [readDigits] at h
  split at h
  case h_1 => cases h
  case h_2 d' rest others hreadings =>
    split_ifs at h with hrest hzero hvalid
    cases h
    have hmem := List.mem_cons_self (a := (d, rest)) (l := others)
    rw [← hreadings, List.mem_filterMap] at hmem
    obtain ⟨⟨month, behind⟩, hmonth, hreading⟩ := hmem
    obtain ⟨⟨day, rest'⟩, hday, heq⟩ := Option.map_eq_some_iff.mp hreading
    obtain rfl := not_not.mp hrest
    cases heq
    exact ⟨rfl, hvalid, behind, readAtFront_of_mem_monthReadings hmonth,
      readAtFront_of_day? hday⟩

/-- An id that has a date is read in place. -/
theorem aligned_and_plain_of_parse {id : String} {d : Date} (h : parse id = .ok d) :
    Aligned id d ∧ PlainFields id := by
  rw [parse] at h
  split at h
  case isFalse => cases h
  case isTrue height =>
    rw [isEightDigits, Bool.and_eq_true, beq_iff_eq, List.all_eq_true] at height
    obtain ⟨hlen, hdigits⟩ := height
    obtain ⟨hyear, hvalid, behind, hmonth, hday⟩ := exists_read_of_readDigits h
    obtain ⟨y₁, y₂, y₃, y₄, m₁, m₂, d₁, d₂, hid⟩ := exists_of_length_eq hlen
    obtain ⟨year, month, day⟩ := d
    obtain ⟨⟨rfl, hm⟩, rfl, hd⟩ :
        (month = Text.digitsValue [m₁, m₂] ∧ MonthDigits m₁ m₂) ∧
          day = Text.digitsValue [d₁, d₂] ∧ DayDigits d₁ d₂ := by
      rw [hid] at hmonth
      -- One digit for the month or for the day leaves something over.
      cases hmonth with
      | one => cases hday
      | two hm =>
          cases hday with
          | two hd => exact ⟨⟨rfl, hm⟩, rfl, hd⟩
    refine ⟨⟨⟨hlen, hdigits, hyear, by rw [hid]; rfl, by rw [hid]; rfl⟩, hvalid⟩, ?_, ?_⟩
    · intro a b hab
      rw [hid] at hab
      cases hab
      exact hm
    · intro a b hab
      rw [hid] at hab
      cases hab
      exact hd

theorem aligned_of_parse {id : String} {d : Date} (h : parse id = .ok d) : Aligned id d :=
  (aligned_and_plain_of_parse h).1

/-- **Which ids have a date:** those that are aligned with it, with digits of the scripts in
which months and days are read. -/
theorem parse_eq_ok_iff {id : String} {d : Date} :
    parse id = .ok d ↔ Aligned id d ∧ PlainFields id :=
  ⟨aligned_and_plain_of_parse, fun h => parse_of_aligned h.1 h.2⟩

theorem dashed_ne_empty (d : Date) : d.dashed ≠ "" := by
  intro h
  have hchars := congrArg String.toList h
  simp [Date.dashed, Date.dashedChars] at hchars

/-- The value of a partition is the date of its id. -/
theorem exists_of_toValue {id value : String} (h : toValue id = .ok value) :
    ∃ d, parse id = .ok d ∧ value = d.dashed := by
  unfold toValue at h
  split at h
  · next d hd =>
      cases h
      exact ⟨d, hd, rfl⟩
  · cases h

/-! ## Lists of ids -/

/-- A refusal names the id that is refused. -/
theorem exists_of_toValue_eq_error {id : String} {p : Problem} (h : toValue id = .error p) :
    ∃ message cause, p = .failure (.partitionId id (some message)) cause := by
  unfold toValue at h
  split at h
  · cases h
  · cases h
    exact ⟨_, _, rfl⟩

/-- **All ids are converted, one by one and in order,** if each of them can be. -/
theorem toValues_eq_ok_iff {ids values : List String} :
    toValues ids = .ok values ↔ List.Forall₂ (fun id v => toValue id = .ok v) ids values := by
  induction ids generalizing values with
  | nil =>
      rw [List.forall₂_nil_left_iff, toValues]
      constructor
      · rintro ⟨⟩
        rfl
      · rintro rfl
        rfl
  | cons id ids ih =>
      rw [List.forall₂_cons_left_iff, toValues]
      constructor
      · intro h
        split at h
        · cases h
        · next v hv =>
            split at h
            · cases h
            · next vs hvs =>
                cases h
                exact ⟨v, vs, hv, ih.mp hvs, rfl⟩
      · rintro ⟨v, vs, hv, hvs, rfl⟩
        rw [hv, ih.mpr hvs]

/-- **The first id that cannot be converted** stops the conversion, whatever follows it. -/
theorem toValues_eq_error {before after : List String} {id : String} {p : Problem}
    (hbefore : ∀ earlier ∈ before, ∃ v, toValue earlier = .ok v) (h : toValue id = .error p) :
    toValues (before ++ id :: after) = .error p := by
  induction before with
  | nil => rw [List.nil_append, toValues, h]
  | cons earlier before ih =>
      obtain ⟨⟨v, hv⟩, hbefore⟩ := List.forall_mem_cons.mp hbefore
      rw [List.cons_append, toValues, hv, ih hbefore]

/-- A list of ids is refused because of one of them. -/
theorem exists_of_toValues_eq_error {ids : List String} {p : Problem}
    (h : toValues ids = .error p) : ∃ id ∈ ids, toValue id = .error p := by
  induction ids with
  | nil => cases h
  | cons id ids ih =>
      rw [toValues] at h
      cases hv : toValue id with
      | error p' =>
          rw [hv] at h
          cases h
          exact ⟨id, List.mem_cons_self, hv⟩
      | ok v =>
          cases hvs : toValues ids with
          | error p' =>
              rw [hv, hvs] at h
              cases h
              obtain ⟨id', hmem, hid'⟩ := ih hvs
              exact ⟨id', List.mem_cons_of_mem id hmem, hid'⟩
          | ok vs =>
              rw [hv, hvs] at h
              cases h

/-- What ends a conversion is a failure of the library. -/
theorem isFailure_of_convert {ids : List String} {partitioning : Option TimePartitioning}
    {p : Problem} (h : convert ids partitioning = .error p) : p.isFailure = true := by
  rw [convert] at h
  split at h
  · obtain ⟨id, -, hid⟩ := exists_of_toValues_eq_error h
    obtain ⟨message, cause, rfl⟩ := exists_of_toValue_eq_error hid
    rfl
  · cases h

end LinkedTables.DayId
