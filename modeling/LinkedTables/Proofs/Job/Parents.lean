import LinkedTables.Proofs.Files.Missing
import LinkedTables.Proofs.Job.Apart

set_option autoImplicit false

/-! # Parent directories that are not there

The parent directory of work directories need not be there: the first put of any job makes
it. What is done below a parent that is still to be made comes to the same as if it had been
made before, as long as nothing comes to light with it (`Makeable.serves`). And below a parent
that cannot be made nothing is ever done (`serves_unmakeable`).
-/

namespace LinkedTables.WorkDir

open Files

/-! ## A parent directory that is still to be made -/

/-- The parent directory can be made, all its paths make the same directories, and then
nothing is at the work directories and they can be made. -/
structure Makeable (parents : Path → Prop) (top : List String) (names : String → Prop)
    (files made : Files) : Prop where
  makes : ∀ parent, parents parent → files.makeDirectories .sound parent = (made, none)
  settled : Settled parents top names made
  short : ∀ n, names n → n.utf8ByteSize ≤ longestName
  free : ∀ n, names n → made.stands? (top ++ [n]) = none

/-- The same files, up to a parent directory that is still to be made. -/
structure UpToParent (parents : Path → Prop) (top : List String) (names : String → Prop)
    (files made before after : Files) : Prop where
  settled : Settled parents top names after
  same : before = after ∨ before = files ∧ after = made

section

variable {parents : Path → Prop} {parent below : Path} {top : List String}
  {names : String → Prop} {files made : Files} {key n : String} {rest : List String}
  {followsLast : Bool}

theorem Makeable.resolve_eq (h : Makeable parents top names files made) (hne : made ≠ files)
    (hp : parents parent) (hrest : rest ≠ []) (hbelow : below.names = parent.names ++ rest) :
    files.resolve followsLast below = .error (below.fault?.getD .notFound) := by
  cases hf : below.fault? with
  | some fault => exact resolve_of_fault hf
  | none =>
      have hnow := (eq_or_nowhere_of_makeDirectories (h.makes parent hp)).resolve_left hne
      exact resolve_beyond hnow hrest hbelow hf

theorem barred?_of_short (hs : n.utf8ByteSize ≤ longestName) :
    barred? below n = below.fault? := by
  rw [barred?]
  split
  · next hf => rw [hf]
  · next hf => rw [if_neg (Nat.not_lt.mpr hs), hf]

theorem Makeable.load_eq (h : Makeable parents top names files made) (hne : made ≠ files)
    (hp : parents parent) (hn : names (name key)) :
    files.load (detailsPath parent key) = made.load (detailsPath parent key) := by
  have hr : files.resolve true (detailsPath parent key) = _ :=
    h.resolve_eq hne hp (List.cons_ne_nil _ _) (names_detailsPath parent key)
  rw [h.settled.load_eq hp hn, h.free _ hn, load, hr]
  unfold loadedAs
  rw [barred?_of_short (h.short _ hn)]
  cases (detailsPath parent key).fault? <;> rfl

theorem Makeable.removeDirectory_eq (h : Makeable parents top names files made)
    (hne : made ≠ files) (hp : parents parent) (hn : names (name key)) :
    ∃ e, files.removeDirectory .sound (path parent key) = (files, some e) ∧
      made.removeDirectory .sound (path parent key) = (made, some e) := by
  have hr : files.resolve false (path parent key) = _ :=
    h.resolve_eq hne hp (List.cons_ne_nil _ _) (names_path parent key)
  rw [h.settled.removeDirectory_eq hp hn, h.free _ hn, removeDirectory, hr]
  unfold removedAs
  rw [barred?_of_short (h.short _ hn)]
  cases (path parent key).fault? <;> exact ⟨_, rfl, rfl⟩

/-- Details are put into directories that are made for them as into those that are there. -/
theorem Makeable.writeDetails_eq (h : Makeable parents top names files made)
    (hne : made ≠ files) (hp : parents parent) (hn : names (name key)) (d : JobDetails) :
    DetailsStore.writeDetails parent files key d = DetailsStore.writeDetails parent made key d ∨
    ∃ p, DetailsStore.writeDetails parent files key d = (.error p, files) ∧
      DetailsStore.writeDetails parent made key d = (.error p, made) := by
  simp only [DetailsStore.writeDetails, DetailsStore.writeDetailsOn]
  -- A path that no file could have is refused before the parent is made.
  cases hf : (path parent key).fault? with
  | some fault =>
      have hfault : fault ≠ .notFound := by
        rcases fault?_eq_some hf with rfl | rfl <;> decide
      have hrefused (files : Files) : files.makeDirectories .sound (path parent key) =
          (files, some ⟨fault, path parent key⟩) :=
        ensureDirectories_of_error _ hfault (ensureDirectory_of_fault hf)
      rw [hrefused files, hrefused made]
      exact .inr ⟨_, rfl, rfl⟩
  | none =>
      have hnow := (eq_or_nowhere_of_makeDirectories (h.makes parent hp)).resolve_left hne
      have hmade : files.makeDirectories .sound (path parent key) =
          made.makeDirectories .sound (path parent key) :=
        (makeDirectories_child hnow (h.makes parent hp) hf).trans
          (ensureDirectories_eq_zero _ (h.settled.ensureDirectory_ne hp hn)).symm
      rw [hmade]
      exact .inl rfl

/-- **A parent directory that is still to be made** does not show in what is done below it. -/
theorem Makeable.serves (h : Makeable parents top names files made) (hne : made ≠ files)
    (hp : parents parent) (hn : names n) :
    Serves (UpToParent parents top names files made) parent n where
  written := by
    rintro d rfl before after ⟨hs, rfl | ⟨rfl, rfl⟩⟩
    · exact ⟨rfl, hs.writeDetails hp hn, .inl rfl⟩
    · obtain heq | ⟨p, heq, heq'⟩ := h.writeDetails_eq hne hp hn d
      · rw [heq]
        exact ⟨rfl, hs.writeDetails hp hn, .inl rfl⟩
      · rw [heq, heq']
        exact ⟨rfl, hs, .inr ⟨rfl, rfl⟩⟩
  loaded := by
    rintro key rfl before after ⟨-, rfl | ⟨rfl, rfl⟩⟩
    · rfl
    · exact h.load_eq hne hp hn
  own := by
    rintro key rfl before after ⟨hs, hsame⟩ d hd
    have hload : before.load (detailsPath parent key) = after.load (detailsPath parent key) := by
      rcases hsame with rfl | ⟨rfl, rfl⟩
      · rfl
      · exact h.load_eq hne hp hn
    obtain ⟨content, hcontent, hread⟩ := exists_load hd
    rw [hload] at hcontent
    exact hs.own _ content d hn (hs.toTidy.record?_of_load hp hn hcontent) hread
  removed := by
    rintro key rfl before after ⟨hs, rfl | ⟨rfl, rfl⟩⟩
    · have hclean := hs.clean hp hn .shared
      rw [clean_state] at hclean
      cases hr : before.removeDirectory .sound (path parent key) with
      | mk left e? =>
      cases e? with
      | some e =>
          obtain rfl := eq_of_removeDirectory_sound hr
          exact .inl ⟨e, rfl, rfl⟩
      | none =>
          rw [hr] at hclean
          exact .inr ⟨left, left, rfl, rfl, hclean, .inl rfl⟩
    · exact .inl (h.removeDirectory_eq hne hp hn)

/-! ## A parent directory that cannot be made -/

/-- **Below a parent directory that cannot be made** nothing can be done. -/
theorem serves_unmakeable {e : FileError}
    (h : files.makeDirectories .sound parent = (files, some e)) (n : String) :
    Serves (fun before after => before = files ∧ after = files) parent n where
  written d _ before after hfiles := by
    obtain ⟨e', hmade⟩ := makeDirectories_unmakeable (n := name d.outputTable.text) h
    have hwritten : DetailsStore.writeDetails parent files d.outputTable.text d =
        (.error e'.problem, files) := by
      rw [DetailsStore.writeDetails, DetailsStore.writeDetailsOn, path, hmade]
    rw [hfiles.1, hfiles.2, hwritten]
    exact ⟨rfl, rfl, rfl⟩
  loaded key _ before after hfiles := by rw [hfiles.1, hfiles.2]
  own key _ before after hfiles d hd := by
    rw [hfiles.1] at hd
    obtain ⟨content, hload, -⟩ := exists_load hd
    obtain ⟨found, hr⟩ := exists_resolved_of_load hload
    refine absurd hr (resolve_unmakeable h (List.cons_ne_nil _ _)
      (names_detailsPath parent key) fun hf => ?_)
    exact Path.no_fault_of_child (Path.no_fault_of_child hf)
  removed key _ before after hfiles := by
    rw [hfiles.1, hfiles.2]
    cases hr : files.resolve false (path parent key) with
    | error fault =>
        have hrefused : files.removeDirectory .sound (path parent key) =
            (files, some ⟨fault, path parent key⟩) := by
          rw [removeDirectory, hr]
        exact .inl ⟨_, hrefused, hrefused⟩
    | ok found =>
        exact absurd hr (resolve_unmakeable h (List.cons_ne_nil _ _) (names_path parent key)
          Path.no_fault_of_child)

end

end LinkedTables.WorkDir
