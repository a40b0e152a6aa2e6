import LinkedTables.Proofs.Files.Looking

set_option autoImplicit false

/-! # Removing directories

A directory is removed entry by entry. On a disk that refuses nothing this removes all of it
(`removeDirectory_sound`). Where an entry cannot be removed, the removal ends, and what has not
been reached stays as it is: the directory is thinned (`thinned_removeEntries`), and so is the
tree around it (`thinned_putAt`).
-/

namespace LinkedTables

namespace Files

variable {files : Files} {disk : Disk} {place : List String} {path : Path} {e : FileError}

/-! ## A disk that refuses nothing -/

mutual

theorem removeEntries_sound (place : List String) (path : Path) :
    ∀ entries, removeEntries .sound place path entries = ([], none)
  | [] => rfl
  | (name, node) :: entries => by
      rw [removeEntries, removeNode_sound, removeEntries_sound place path entries]

theorem removeNode_sound (place : List String) (path name : Path) :
    ∀ node, removeNode .sound place path name node = none
  | .directory entries => by
      rw [removeNode, removeEntries_sound place path entries]
      rfl
  | .file _ => rfl
  | .link _ => rfl

end

/-- **A directory is removed** as a whole, if the disk refuses nothing. -/
theorem removeDirectory_sound (files : Files) (path : Path) :
    files.removeDirectory .sound path =
      match files.resolve false path with
      | .error fault => (files, some ⟨fault, path⟩)
      | .ok (.present place (.directory _)) => (files.removeAt place, none)
      | .ok (.present _ (.file _)) => (files, some ⟨.notADirectory, path⟩)
      | .ok (.absent _) => (files, some ⟨.notFound, path⟩)
      | .ok .top => ([], none)
      | .ok (.present _ (.link _)) =>
        match files.resolve true path with
        | .error fault => (files, some ⟨fault, path⟩)
        | .ok (.absent _) => (files, some ⟨.notFound, path⟩)
        | .ok _ => (files, some ⟨.linkInTheWay, path⟩) := by
  rw [removeDirectory]
  cases files.resolve false path with
  | error fault => rfl
  | ok found =>
      cases found with
      | top => exact removeEntries_sound [] path files
      | absent place => rfl
      | present place node =>
          cases node with
          | file content => rfl
          | link target => rfl
          | directory entries => simp only [removeNode_sound]

/-- On a disk that refuses nothing, a removal that cannot be done changes nothing. -/
theorem eq_of_removeDirectory_sound {files' : Files}
    (h : files.removeDirectory .sound path = (files', some e)) : files' = files := by
  rw [removeDirectory_sound] at h
  split at h
  · cases h
    rfl
  · cases h
  · cases h
    rfl
  · cases h
    rfl
  · cases h
  · split at h <;> cases h <;> rfl

/-! ## A removal that ends half way -/

theorem stands?_of_get?_none {first : String} (h : Entries.get? files first = none)
    (names : List String) : files.stands? (first :: names) = none := by
  have hempty : Entries.get? files first = Entries.get? [] first := h
  rw [stands?_congr hempty names, stands?_empty]

theorem get?_single (name : String) (node : Node) :
    Entries.get? [(name, node)] name = some node := by
  rw [Entries.get?_cons, if_pos rfl]
  rfl

/-- Where a directory is thinned, so are the entries it is one of. -/
theorem thinned_set_directory {name : String} {es left : Files}
    (hes : files.within? name = some es) (h : Thinned place es left) :
    Thinned (name :: place) files (Entries.set files name (.directory left)) := by
  rintro (_ | ⟨first, names⟩)
  · exact .inl rfl
  by_cases hname : first = name
  case neg => exact .inl (stands?_set_of_ne hname _ names)
  subst hname
  rw [stands?_set_directory hes]
  cases names with
  | nil => exact .inl (if_pos rfl)
  | cons next names =>
      rw [if_neg (List.cons_ne_nil next names), stands?_cons_cons, hes, Option.bind_some]
      refine (h (next :: names)).imp_right fun hless => ⟨?_, hless.2⟩
      exact List.cons_prefix_cons.mpr ⟨rfl, hless.1⟩

theorem thinned_single {name : String} {es left : Files} (h : Thinned [] es left) :
    Thinned [] [(name, .directory es)] [(name, .directory left)] := by
  have hes : within? [(name, .directory es)] name = some es := by
    rw [within?, get?_single]
    rfl
  have hset : Entries.set [(name, Node.directory es)] name (.directory left) =
      [(name, .directory left)] := if_pos rfl
  have hthin := thinned_set_directory hes h
  rw [hset] at hthin
  exact fun q => (hthin q).imp_right fun hless => ⟨List.nil_prefix, hless.2⟩

theorem thinned_cons {name : String} {node left : Node} {entries : Files}
    (h : Thinned [] [(name, node)] [(name, left)]) :
    Thinned [] ((name, node) :: entries) ((name, left) :: entries) := by
  rintro (_ | ⟨first, names⟩)
  · exact .inl rfl
  rw [stands?_cons_entry entries, stands?_cons_entry entries]
  split
  · exact h (first :: names)
  · exact .inl rfl

/-- An entry in front that is removed leaves nothing under its name, or what the later entries
have there. -/
theorem thinned_tail {entries left : Files} (h : Thinned [] entries left) (name : String)
    (node : Node) : Thinned [] ((name, node) :: entries) left := by
  rintro (_ | ⟨first, names⟩)
  · exact .inl rfl
  rw [stands?_cons_entry]
  split
  · next hnone =>
      refine .inr ⟨List.nil_prefix, ?_⟩
      rcases h (first :: names) with hsame | ⟨-, hgone⟩
      · rw [hsame, stands?_of_get?_none hnone]
      · exact hgone
  · exact h (first :: names)

mutual

/-- What is left of the entries of a directory. -/
theorem thinned_removeEntries (disk : Disk) (place : List String) (path : Path) :
    ∀ entries, Thinned [] entries (removeEntries disk place path entries).1
  | [] => Thinned.refl [] []
  | (name, node) :: entries => by
      rw [removeEntries]
      cases h : removeNode disk (place ++ [name]) (path.child name) ⟨0, [name]⟩ node with
      | none => exact thinned_tail (thinned_removeEntries disk place path entries) name node
      | some left => exact thinned_cons (thinned_removeNode disk _ _ _ node h name)

/-- What is left of a node is the same node, or a directory with less in it. -/
theorem thinned_removeNode (disk : Disk) (place : List String) (path called : Path) :
    ∀ (node : Node) {left : Node × FileError},
      removeNode disk place path called node = some left →
        ∀ name, Thinned [] [(name, node)] [(name, left.1)]
  | .directory entries, left, h, name => by
      have hentries := thinned_removeEntries disk place path entries
      rw [removeNode] at h
      split at h
      · cases h
        exact Thinned.refl [] _
      · cases h
        exact Thinned.refl [] _
      · split at h
        · next heq =>
            cases h
            exact thinned_single (by rwa [heq] at hentries)
        · next heq _ =>
            cases h
            exact thinned_single (by rwa [heq] at hentries)
        · cases h
  | .file content, left, h, name => by
      obtain ⟨e, -, rfl⟩ := Option.map_eq_some_iff.mp h
      exact Thinned.refl [] _
  | .link target, left, h, name => by
      obtain ⟨e, -, rfl⟩ := Option.map_eq_some_iff.mp h
      exact Thinned.refl [] _

end

mutual

theorem refused_of_removeEntries (disk : Disk) (place : List String) (path : Path) :
    ∀ (entries : List (String × Node)) {left : List (String × Node)} {e : FileError},
      removeEntries disk place path entries = (left, some e) → ∃ reason, e.fault = .refused reason
  | [], _, _, h => by cases congrArg Prod.snd h
  | (name, node) :: entries, _, _, h => by
      rw [removeEntries] at h
      cases hnode : removeNode disk (place ++ [name]) (path.child name) ⟨0, [name]⟩ node with
      | none =>
          rw [hnode] at h
          exact refused_of_removeEntries disk place path entries h
      | some left =>
          rw [hnode] at h
          cases h
          exact refused_of_removeNode disk _ _ _ node hnode

/-- A removal only ends half way because the disk refuses something. -/
theorem refused_of_removeNode (disk : Disk) (place : List String) (path called : Path) :
    ∀ (node : Node) {left : Node × FileError}, removeNode disk place path called node = some left →
      ∃ reason, left.2.fault = .refused reason
  | .directory entries, _, h => by
      rw [removeNode] at h
      split at h
      · cases h
        exact ⟨_, rfl⟩
      · cases h
        exact ⟨_, rfl⟩
      · split at h
        · next heq =>
            cases h
            exact refused_of_removeEntries disk place path entries heq
        · cases h
          exact ⟨_, rfl⟩
        · cases h
  | .file _, _, h => by
      obtain ⟨e, -, rfl⟩ := Option.map_eq_some_iff.mp h
      exact ⟨e, rfl⟩
  | .link _, _, h => by
      obtain ⟨e, -, rfl⟩ := Option.map_eq_some_iff.mp h
      exact ⟨e, rfl⟩

end

end Files

end LinkedTables
