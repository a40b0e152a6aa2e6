import LinkedTables.Proofs.Partition.Decoding
import LinkedTables.Proofs.Partition.DayId

set_option autoImplicit false

/-! # Places of partitions

The place of a partition of a table with one key is one component below the place of the
table, whatever the key and the value are (`PartitionPath.within_join_path`). Different days
are written in different ways, although the year takes as many digits as it needs, so
partitions that come from different ids of days have different values
(`DayId.eq_of_toValue_eq`), and then different places (`PartitionPath.place_inj`).
-/

namespace LinkedTables

/-! ## Values of days -/

theorem Date.splitOn_dashedChars (d : Date) :
    d.dashedChars.splitOn '-' =
      [Text.natDigits d.year, Text.paddedDigits 2 d.month, Text.paddedDigits 2 d.day] := by
  have hdigits {cs : List Char} (h : ∀ c ∈ cs, c.isDigit = true) : '-' ∉ cs := fun hmem =>
    absurd (h '-' hmem) (by decide)
  have hyear := hdigits fun c (hc : c ∈ Text.natDigits d.year) => Text.isDigit_of_mem_natDigits hc
  have hpadded (n : Nat) := hdigits fun c (hc : c ∈ Text.paddedDigits 2 n) =>
    Text.isDigit_of_mem_paddedDigits hc
  rw [dashedChars, List.splitOn_append_cons_self_of_not_mem hyear,
    List.splitOn_append_cons_self_of_not_mem (hpadded d.month),
    List.splitOn_eq_singleton (hpadded d.day)]

/-- **A date can be told from its text,** however many digits the year has. -/
theorem Date.dashed_injective : Function.Injective Date.dashed := by
  intro d d' h
  have hparts := congrArg (List.splitOn '-') (String.ofList_injective h)
  rw [splitOn_dashedChars, splitOn_dashedChars] at hparts
  obtain ⟨hyear, hmonth, hday⟩ :
      Text.natDigits d.year = Text.natDigits d'.year ∧
        Text.paddedDigits 2 d.month = Text.paddedDigits 2 d'.month ∧
        Text.paddedDigits 2 d.day = Text.paddedDigits 2 d'.day := by
    simpa using hparts
  have hyear := congrArg Text.digitsValue hyear
  have hmonth := congrArg Text.digitsValue hmonth
  have hday := congrArg Text.digitsValue hday
  rw [Text.digitsValue_natDigits, Text.digitsValue_natDigits] at hyear
  rw [Text.digitsValue_paddedDigits, Text.digitsValue_paddedDigits] at hmonth hday
  obtain ⟨year, month, day⟩ := d
  obtain ⟨year', month', day'⟩ := d'
  cases hyear
  cases hmonth
  cases hday
  rfl

namespace DayId

theorem Spells.digitsValue_eq {id : String} {d : Date} (h : Spells id d) :
    Text.digitsValue id.toList = 10000 * d.year + 100 * d.month + d.day := by
  obtain ⟨y₁, y₂, y₃, y₄, m₁, m₂, d₁, d₂, hid⟩ := exists_of_length_eq h.length_eq
  rw [← h.year_eq, ← h.month_eq, ← h.day_eq, hid]
  simp only [Text.digitsValue, List.take_succ_cons, List.take_zero, List.drop_succ_cons,
    List.drop_zero, List.foldl_cons, List.foldl_nil]
  omega

/-- A date is spelled by one id. -/
theorem Spells.id_unique {id id' : String} {d : Date} (h : Spells id d) (h' : Spells id' d) :
    id = id' := by
  have hvalue : Text.digitsValue id.toList = Text.digitsValue id'.toList :=
    h.digitsValue_eq.trans h'.digitsValue_eq.symm
  have hlen : id.toList.length = id'.toList.length := h.length_eq.trans h'.length_eq.symm
  exact String.toList_inj.mp (Text.eq_of_digitsValue_eq h.isDigit h'.isDigit hlen hvalue)

/-- **Different ids of days have different values.** -/
theorem eq_of_toValue_eq {id id' value : String} (h : ∃ d, Spells id d) (h' : ∃ d, Spells id' d)
    (hv : toValue id = .ok value) (hv' : toValue id' = .ok value) : id = id' := by
  obtain ⟨d, hd⟩ := h
  obtain ⟨d', hd'⟩ := h'
  rw [toValue_of_spells hd] at hv
  rw [toValue_of_spells hd'] at hv'
  have hsame : d = d' := Date.dashed_injective (Except.ok.inj (hv.trans hv'.symm))
  exact hd.id_unique (hsame ▸ hd')

end DayId

/-! ## Places -/

namespace PartitionPath

/-- One component of a path, which stays where it is: neither the name of the directory itself
nor that of the one above. -/
structure IsComponent (part : String) : Prop where
  slash_not_mem : '/' ∉ part.toList
  ne_here : part ≠ "."
  ne_up : part ≠ ".."

/-- A place is one component below the place of a table, of which the slashes at the end do not
count, or just a component if the table has no place. -/
inductive Within : Option String → String → Prop
  | alone {base : Option String} {part : String} (hb : base.getD "" = "")
      (hp : IsComponent part) : Within base part
  | below {base front part : String} {slashes : Nat} (hne : base ≠ "")
      (hb : base.toList = front.toList ++ List.replicate slashes '/')
      (hf : front.toList.getLast? ≠ some '/') (hp : IsComponent part) :
      Within (some base) (front ++ "/" ++ part)

theorem exists_slashes (cs : List Char) :
    ∃ slashes, cs = withoutTrailingSlashes cs ++ List.replicate slashes '/' := by
  have hslashes : (cs.reverse.takeWhile (· == '/')).reverse =
      List.replicate (cs.reverse.takeWhile (· == '/')).length '/' := by
    refine List.eq_replicate_iff.mpr ⟨List.length_reverse, fun c hc => ?_⟩
    have hslash := List.mem_takeWhile_imp (List.mem_reverse.mp hc)
    exact beq_iff_eq.mp hslash
  refine ⟨(cs.reverse.takeWhile (· == '/')).length, ?_⟩
  rw [withoutTrailingSlashes, ← hslashes, ← List.reverse_append, List.takeWhile_append_dropWhile,
    List.reverse_reverse]

theorem getLast?_withoutTrailingSlashes (cs : List Char) :
    (withoutTrailingSlashes cs).getLast? ≠ some '/' := by
  intro h
  rw [withoutTrailingSlashes, List.getLast?_reverse] at h
  have hhead := List.head?_dropWhile_not (· == '/') cs.reverse
  rw [h] at hhead
  exact absurd hhead (by decide)

theorem path_singleton (key value : String) :
    path [(key, value)] = String.ofList (component key value) := by
  simp [path]

/-- The equals sign tells a component from the two names that lead elsewhere. -/
theorem isComponent_path (key value : String) : IsComponent (path [(key, value)]) := by
  have hequals : '=' ∈ (path [(key, value)]).toList := by
    rw [path_singleton, String.toList_ofList, component]
    exact List.mem_append_right _ List.mem_cons_self
  refine ⟨?_, ?_, ?_⟩
  · rw [path_singleton, String.toList_ofList]
    exact slash_not_mem_component key value
  · intro h
    rw [h] at hequals
    exact absurd hequals (by decide)
  · intro h
    rw [h] at hequals
    exact absurd hequals (by decide)

/-- **Partitions are in their table.** -/
theorem within_join_path (base : Option String) (key value : String) :
    Within base (join base (path [(key, value)])) := by
  have hpart := isComponent_path key value
  by_cases hb : base.getD "" = ""
  · rw [join, if_pos (by simp [hb])]
    exact .alone hb hpart
  · obtain ⟨place, rfl⟩ : ∃ place, base = some place := by
      cases base with
      | none => exact absurd rfl hb
      | some place => exact ⟨place, rfl⟩
    let front := String.ofList (withoutTrailingSlashes place.toList)
    have hfront : front.toList = withoutTrailingSlashes place.toList := String.toList_ofList
    obtain ⟨slashes, hslashes⟩ := exists_slashes place.toList
    have hjoin : join (some place) (path [(key, value)]) =
        front ++ "/" ++ path [(key, value)] := by
      rw [join, if_neg (by simpa using hb)]
      apply String.toList_inj.mp
      simp [hfront]
    have hlast := getLast?_withoutTrailingSlashes place.toList
    rw [← hfront] at hslashes hlast
    rw [hjoin]
    exact .below hb hslashes hlast hpart

theorem join_injective (base : Option String) : Function.Injective (join base) := by
  intro relative relative' h
  by_cases hb : (base.getD "").isEmpty
  · rwa [join, join, if_pos hb, if_pos hb] at h
  · rw [join, join, if_neg hb, if_neg hb] at h
    have hlists := List.append_cancel_left (String.ofList_injective h)
    exact String.toList_inj.mp (List.cons.inj hlists).2

/-- **A value can be told from the place** of its partition. -/
theorem place_inj {base : Option String} {key value value' : String} (hv : value ≠ "")
    (hv' : value' ≠ "")
    (h : join base (path [(key, value)]) = join base (path [(key, value')])) :
    value = value' := by
  have hpath := join_injective base h
  rw [path_singleton, path_singleton] at hpath
  obtain ⟨left, right, hsplit, -, hright⟩ := (readsBack_component key value).sides
  obtain ⟨left', right', hsplit', -, hright'⟩ := (readsBack_component key value').sides
  rw [String.ofList_injective hpath, hsplit'] at hsplit
  cases hsplit
  rw [hright, named, named, if_neg hv, if_neg hv'] at hright'
  exact String.toList_inj.mp (Option.some.inj hright')

end PartitionPath

end LinkedTables
