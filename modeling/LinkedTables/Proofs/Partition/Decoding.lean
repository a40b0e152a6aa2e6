import LinkedTables.Proofs.Partition.Path
import Mathlib.Data.List.Forall2

set_option autoImplicit false

/-! # Paths read back

A path is read back by splitting it at its slashes, every component at its equals sign, and
decoding both sides. Since slashes, equals signs and percent signs in keys and values are
escaped, this gives every key with its value in order, where the name of the default partition
stands for an empty text (`path_reads_back`).
-/

namespace LinkedTables.PartitionPath

/-! ## Decoding -/

/-- A text in which escapes stand for characters, if each percent sign has two hexadecimal
digits after it. -/
def decoded : List Char → Option (List Char)
  | [] => some []
  | '%' :: high :: low :: cs => do
    let high ← Text.hexDigit? high
    let low ← Text.hexDigit? low
    let cs ← decoded cs
    return Char.ofNat (16 * high + low) :: cs
  | '%' :: _ => none
  | c :: cs => (decoded cs).map (c :: ·)

example : decoded ['a', '%', '2', 'F', '%', '0', 'a'] = some ['a', '/', '\n'] := by decide

/-- What stands for a key or value in a path, before it is escaped. -/
def named (s : String) : String := if s = "" then defaultName else s

/-- The marks that have no place in a path, beside the control characters. -/
def reserved : List Char :=
  ['"', '#', '\'', '*', ':', '?', '\\', '\x7f', '\x7b', '[', ']', '^']

/-- A percent sign is followed by two digits everywhere in a text. -/
def PercentsFollowed (cs : List Char) : Prop :=
  ∀ before after, cs = before ++ '%' :: after →
    ∃ high ∈ capitalDigits, ∃ low ∈ capitalDigits, ∃ rest, after = high :: low :: rest

/-- A component of a path is read back as a key and a value. -/
structure ReadsBack (part : List Char) (key value : String) : Prop where
  count_eq : part.count '=' = 1
  sides : ∃ left right, part.splitOn '=' = [left, right] ∧
    decoded left = some (named key).toList ∧ decoded right = some (named value).toList

theorem hexDigit?_capitalHexDigit : ∀ n < 16, Text.hexDigit? (capitalHexDigit n) = some n := by
  decide

theorem decoded_cons {c : Char} (h : c ≠ '%') (cs : List Char) :
    decoded (c :: cs) = (decoded cs).map (c :: ·) := by
  rw [decoded]
  · exact fun _ _ _ hc => absurd hc h
  · exact h

theorem escapedChars_toList (s : String) :
    escapedChars s.toList = (named s).toList.flatMap escapedChar := by
  unfold named
  split
  next h =>
    rw [h]
    decide
  next h =>
    obtain ⟨c, cs, hs⟩ := List.exists_cons_of_ne_nil (mt String.toList_eq_nil_iff.mp h)
    rw [hs, escapedChars]

theorem decoded_escapedChar_append (c : Char) (cs : List Char) :
    decoded (escapedChar c ++ cs) = (decoded cs).map (c :: ·) := by
  rw [escapedChar]
  split
  next h =>
    have hc := toNat_lt_of_isEscaped h
    have hhigh := hexDigit?_capitalHexDigit (c.toNat / 16) (by omega)
    have hlow := hexDigit?_capitalHexDigit (c.toNat % 16) (by omega)
    have hnumber : 16 * (c.toNat / 16) + c.toNat % 16 = c.toNat := by omega
    simp only [List.cons_append, List.nil_append, decoded, hhigh, hlow, Option.bind_eq_bind,
      Option.bind_some, hnumber, Char.ofNat_toNat]
    rw [Option.map_eq_bind]
    rfl
  next h => exact decoded_cons (fun hc => h (by rw [hc]; decide)) cs

theorem decoded_flatMap (cs : List Char) : decoded (cs.flatMap escapedChar) = some cs := by
  induction cs with
  | nil => rfl
  | cons c cs ih => rw [List.flatMap_cons, decoded_escapedChar_append, ih, Option.map_some]

/-! ## Percent signs -/

namespace PercentsFollowed

theorem of_not_mem {cs : List Char} (h : '%' ∉ cs) : PercentsFollowed cs := by
  rintro before after rfl
  exact absurd (List.mem_append_right before List.mem_cons_self) h

theorem append {cs ds : List Char} (hc : PercentsFollowed cs) (hd : PercentsFollowed ds) :
    PercentsFollowed (cs ++ ds) := by
  intro before after h
  -- The percent sign is in the second text, or it is in the first one with its two digits.
  rcases List.append_eq_append_iff.mp h with ⟨before', -, hds⟩ | ⟨_ | ⟨c, after'⟩, hcs, hds⟩
  · exact hd before' after hds
  · exact hd [] after hds.symm
  · cases hds
    obtain ⟨high, hhigh, low, hlow, rest, rfl⟩ := hc before after' hcs
    exact ⟨high, hhigh, low, hlow, rest ++ ds, rfl⟩

end PercentsFollowed

theorem percentsFollowed_escapedChar (c : Char) : PercentsFollowed (escapedChar c) := by
  have hdigits : '%' ∉ capitalDigits := by decide
  rw [escapedChar]
  split
  next h =>
    have hc := toNat_lt_of_isEscaped h
    have hhigh := capitalHexDigit_mem (c.toNat / 16) (by omega)
    have hlow := capitalHexDigit_mem (c.toNat % 16) (by omega)
    rintro (_ | ⟨c', before⟩) after heq
    · cases heq
      exact ⟨_, hhigh, _, hlow, [], rfl⟩
    · -- Neither of the digits is a percent sign.
      have hmem : '%' ∈ [capitalHexDigit (c.toNat / 16), capitalHexDigit (c.toNat % 16)] := by
        rw [(List.cons.inj heq).2]
        exact List.mem_append_right before List.mem_cons_self
      rcases List.mem_pair.mp hmem with hpercent | hpercent
      · exact absurd (hpercent ▸ hhigh) hdigits
      · exact absurd (hpercent ▸ hlow) hdigits
  next h =>
    refine .of_not_mem fun hmem => h ?_
    cases List.mem_singleton.mp hmem
    decide

theorem percentsFollowed_escapedChars (s : String) :
    PercentsFollowed (escapedChars s.toList) := by
  rw [escapedChars_toList]
  generalize (named s).toList = cs
  induction cs with
  | nil => exact .of_not_mem List.not_mem_nil
  | cons c cs ih => exact (percentsFollowed_escapedChar c).append ih

/-! ## Components and paths -/

theorem readsBack_component (key value : String) :
    ReadsBack (component key value) key value := by
  have hequals : ∀ cs, '=' ∉ escapedChars cs := not_mem_escapedChars (by decide) (by decide)
  have hleft := hequals key.toList
  have hright := hequals value.toList
  constructor
  · rw [component, List.count_append, List.count_cons_self, List.count_eq_zero.mpr hleft,
      List.count_eq_zero.mpr hright]
  · refine ⟨escapedChars key.toList, escapedChars value.toList, ?_, ?_, ?_⟩
    · rw [component, List.splitOn_append_cons_self_of_not_mem hleft,
        List.splitOn_eq_singleton hright]
    · rw [escapedChars_toList, decoded_flatMap]
    · rw [escapedChars_toList, decoded_flatMap]

/-- What holds of texts also when they are joined holds of a path if it holds of the
separators and of all keys and values. -/
theorem path_induction {P : List Char → Prop} (append : ∀ cs ds, P cs → P ds → P (cs ++ ds))
    (nil : P []) (slash : P ['/']) (equals : P ['='])
    (escaped : ∀ s : String, P (escapedChars s.toList)) (values : Entries String) :
    P (path values).toList := by
  have component (e : String × String) : P (component e.1 e.2) :=
    append _ _ (escaped e.1) (append _ _ equals (escaped e.2))
  rw [path, String.toList_ofList]
  induction values with
  | nil => exact nil
  | cons e values ih =>
      cases values with
      | nil => simpa using component e
      -- There is a slash before the next key only if there is a next key.
      | cons e' values =>
          rw [List.map_cons, List.map_cons, List.intercalate_cons_cons]
          exact append _ _ (append _ _ (component e) slash) ih

/-- A path holds percent signs, its own separators, and characters that are not escaped. -/
theorem mem_or_of_mem_path {values : Entries String} :
    ∀ c ∈ (path values).toList, c ∈ ['%', '=', '/'] ∨ isEscaped c = false := by
  refine path_induction (P := fun cs => ∀ c ∈ cs, c ∈ ['%', '=', '/'] ∨ isEscaped c = false)
    (fun _ _ hcs hds => List.forall_mem_append.mpr ⟨hcs, hds⟩) (by simp) (by simp) (by simp)
    (fun s c hc => ?_) values
  rcases eq_or_of_mem_escapedChars hc with rfl | hplain
  · exact .inl List.mem_cons_self
  · exact .inr hplain

/-- **Paths are read back.** The slashes of a path part it into one component for each key, in
order. A component has one equals sign, and to its left and right the key and the value are
escaped, or the name of the default partition in place of an empty one. All percent signs in a
path are followed by two digits of base sixteen with capital letters, and there are no control
characters but the null character and no other marks that are escaped. -/
theorem path_reads_back {values : Entries String} (h : values ≠ []) :
    List.Forall₂ (fun part e => ReadsBack part e.1 e.2) (components (path values)) values ∧
      PercentsFollowed (path values).toList ∧
      ∀ c ∈ (path values).toList, ¬ (0 < c.toNat ∧ c.toNat < 0x20) ∧ c ∉ reserved := by
  have hseparators : ∀ mark ∈ ['%', '=', '/'],
      ¬ (0 < mark.toNat ∧ mark.toNat < 0x20) ∧ mark ∉ reserved := by simp [reserved]
  have hmarks : ∀ mark ∈ reserved, isEscaped mark = true := by
    simp [reserved, isEscaped, escapedMarks]
  refine ⟨?_, ?_, ?_⟩
  · rw [components_path h, List.forall₂_map_left_iff, List.forall₂_same]
    exact fun e _ => readsBack_component e.1 e.2
  · exact path_induction (fun _ _ => .append) (.of_not_mem List.not_mem_nil)
      (.of_not_mem (by decide)) (.of_not_mem (by decide)) percentsFollowed_escapedChars values
  · intro c hc
    rcases mem_or_of_mem_path c hc with hseparator | hplain
    · exact hseparators c hseparator
    · refine ⟨fun hcontrol => ?_, fun hmark => ?_⟩
      · rw [isEscaped, decide_eq_true hcontrol.1, decide_eq_true hcontrol.2] at hplain
        cases hplain
      · cases (hmarks c hmark).symm.trans hplain

/-- Separators and an escape within keys and values, and empty ones, are read back. -/
theorem escape_reads_back :
    let values : Entries String := [("a=b", ""), ("", "5%2F/\n")]
    path values = "a%3Db=__HIVE_DEFAULT_PARTITION__/" ++
        "__HIVE_DEFAULT_PARTITION__=5%252F%2F%0A" ∧
      ∃ first second, components (path values) = [first, second] ∧ ReadsBack first "a=b" "" ∧
        ReadsBack second "" "5%2F/\n" ∧ PercentsFollowed (path values).toList ∧
        '\n' ∉ (path values).toList := by
  intro values
  obtain ⟨hparts, hpercents, hmarks⟩ := path_reads_back (show values ≠ [] by simp [values])
  have hpath : path values = "a%3Db=__HIVE_DEFAULT_PARTITION__/" ++
      "__HIVE_DEFAULT_PARTITION__=5%252F%2F%0A" := by decide
  refine ⟨hpath, ?_⟩
  generalize components (path values) = parts at hparts
  dsimp only [values] at hparts
  obtain _ | ⟨hfirst, _ | ⟨hsecond, ⟨⟩⟩⟩ := hparts
  exact ⟨_, _, rfl, hfirst, hsecond, hpercents, fun hmem => (hmarks _ hmem).1 (by decide)⟩

end LinkedTables.PartitionPath
