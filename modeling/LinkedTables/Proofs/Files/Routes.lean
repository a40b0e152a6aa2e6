import LinkedTables.Proofs.Files.Places

set_option autoImplicit false

/-! # Routes

A path is walked name by name, so where it leads depends on what stands at the places it
comes by and on nothing else. A `Route` is such a walk as a relation. What it may come by is
a parameter:

* along `Leads` every name is that of a directory which is there, or of a link. What is left
  of a path after such a route is walked from the place that it leads to (`Leads.walk_append`).
* along `Aims` a name may be that of anything but a link, or of nothing. This says where a
  path can lead at all: if something is found along it then it leads there
  (`Aims.leads_of_walk`).

Both depend on the links and directories along the route only (`Route.mono`).
-/

namespace LinkedTables

theorem Path.append_relative (path : Path) (names rest : List String) :
    (path.append ⟨0, names⟩).append ⟨0, rest⟩ = path.append ⟨0, names ++ rest⟩ := by
  simp [Path.append]

namespace Files

variable {files : Files} {followsLast : Bool} {here names rest place : List String}
  {name : String}

/-! ## One step of a walk -/

/-- A name that a file can have. -/
def Passable (name : String) : Prop := name ≠ ".." ∧ name.utf8ByteSize ≤ longestName

section

variable {onLink : List String → Path → Except FileFault Target}

theorem walk_up :
    files.walk followsLast onLink here (".." :: names) =
      files.walk followsLast onLink here.dropLast names := by
  rw [walk, if_pos rfl]

theorem walk_nameTooLong (hn : name ≠ "..") (hl : longestName < name.utf8ByteSize) :
    files.walk followsLast onLink here (name :: names) = .error .nameTooLong := by
  rw [walk, if_neg hn, if_pos hl]

/-- At a name that a file can have, what stands there says how a walk goes on. -/
theorem walk_cons (hn : Passable name) :
    files.walk followsLast onLink here (name :: names) =
      match files.at? (here ++ [name]), names with
      | some (.directory _), _ => files.walk followsLast onLink (here ++ [name]) names
      | some (.link target), [] =>
        if followsLast then onLink here (Path.parse target)
        else .ok (.present (here ++ [name]) (.link target))
      | some (.link target), names => onLink here ((Path.parse target).append ⟨0, names⟩)
      | some node, [] => .ok (.present (here ++ [name]) node)
      | some _, _ => .error .notADirectory
      | none, [] => .ok (.absent (here ++ [name]))
      | none, _ => .error .notFound := by
  rw [walk, if_neg hn.1]
  exact if_neg (Nat.not_lt.mpr hn.2)

theorem walk_directory (hn : Passable name)
    (h : files.stands? (here ++ [name]) = some (.directory [])) :
    files.walk followsLast onLink here (name :: names) =
      files.walk followsLast onLink (here ++ [name]) names := by
  obtain ⟨es, hat⟩ := stands?_eq_directory_iff.mp h
  rw [walk_cons hn]
  simp only [hat]

theorem walk_link {target : String} (hn : Passable name)
    (h : files.stands? (here ++ [name]) = some (.link target))
    (hf : names ≠ [] ∨ followsLast = true) :
    files.walk followsLast onLink here (name :: names) =
      onLink here ((Path.parse target).append ⟨0, names⟩) := by
  rw [walk_cons hn]
  simp only [stands?_eq_link_iff.mp h]
  cases names with
  | nil => simp [hf.resolve_left (fun hne => hne rfl), Path.append]
  | cons => rfl

theorem walk_link_end {target : String} (hn : Passable name)
    (h : files.stands? (here ++ [name]) = some (.link target)) :
    files.walk false onLink here [name] = .ok (.present (here ++ [name]) (.link target)) := by
  rw [walk_cons hn]
  simp only [stands?_eq_link_iff.mp h]
  rfl

theorem walk_file_end {content : ByteArray} (hn : Passable name)
    (h : files.stands? (here ++ [name]) = some (.file content)) :
    files.walk followsLast onLink here [name] =
      .ok (.present (here ++ [name]) (.file content)) := by
  rw [walk_cons hn]
  simp only [stands?_eq_file_iff.mp h]

theorem walk_absent_end (hn : Passable name) (h : files.stands? (here ++ [name]) = none) :
    files.walk followsLast onLink here [name] = .ok (.absent (here ++ [name])) := by
  rw [walk_cons hn]
  simp only [stands?_eq_none_iff.mp h]

theorem walk_file_beyond {content : ByteArray} (hn : Passable name)
    (h : files.stands? (here ++ [name]) = some (.file content)) (hne : names ≠ []) :
    files.walk followsLast onLink here (name :: names) = .error .notADirectory := by
  rw [walk_cons hn]
  simp only [stands?_eq_file_iff.mp h]

theorem walk_absent_beyond (hn : Passable name) (h : files.stands? (here ++ [name]) = none)
    (hne : names ≠ []) :
    files.walk followsLast onLink here (name :: names) = .error .notFound := by
  rw [walk_cons hn]
  simp only [stands?_eq_none_iff.mp h]

theorem walk_directory_end (hn : Passable name)
    (h : files.stands? (here ++ [name]) = some (.directory [])) :
    ∃ es, ∀ followsLast onLink, files.walk followsLast onLink here [name] =
      .ok (.present (here ++ [name]) (.directory es)) := by
  obtain ⟨es, hat⟩ := stands?_eq_directory_iff.mp h
  refine ⟨es, fun followsLast onLink => ?_⟩
  rw [walk_directory hn h, walk.eq_2 _ _ _ _ (by simp), hat]

theorem passable_of_walk {found : Target} (hn : name ≠ "..")
    (h : files.walk followsLast onLink here (name :: names) = .ok found) : Passable name := by
  refine ⟨hn, Nat.not_lt.mp fun hl => ?_⟩
  rw [walk_nameTooLong hn hl] at h
  cases h

/-- The last name of a walk leads to its place, unless a link is there. -/
theorem found_of_walk_single {found : Target} (hn : name ≠ "..")
    (hl : ∀ target, files.stands? (here ++ [name]) ≠ some (.link target))
    (h : files.walk followsLast onLink here [name] = .ok found) :
    (∃ node, found = .present (here ++ [name]) node) ∨ found = .absent (here ++ [name]) := by
  have hp := passable_of_walk hn h
  rcases files.stands?_cases (here ++ [name]) with hs | ⟨content, hs⟩ | ⟨target, hs⟩ | hs
  · rw [walk_absent_end hp hs] at h
    exact .inr (Except.ok.inj h).symm
  · rw [walk_file_end hp hs] at h
    exact .inl ⟨_, (Except.ok.inj h).symm⟩
  · exact absurd hs (hl target)
  · obtain ⟨es, hend⟩ := walk_directory_end hp hs
    rw [hend] at h
    exact .inl ⟨_, (Except.ok.inj h).symm⟩

/-- A walk goes on from a place only if a directory or a link is there. -/
theorem directory_or_link_of_walk {found : Target} (hn : name ≠ "..") (hne : names ≠ [])
    (h : files.walk followsLast onLink here (name :: names) = .ok found) :
    files.stands? (here ++ [name]) = some (.directory []) ∨
      ∃ target, files.stands? (here ++ [name]) = some (.link target) := by
  have hp := passable_of_walk hn h
  rcases files.stands?_cases (here ++ [name]) with hs | ⟨content, hs⟩ | ⟨target, hs⟩ | hs
  · rw [walk_absent_beyond hp hs hne] at h
    cases h
  · rw [walk_file_beyond hp hs hne] at h
    cases h
  · exact .inr ⟨target, hs⟩
  · exact .inl hs

end

/-! ## Routes -/

/-- Where a path starts that is used in a directory. -/
def start (here : List String) (path : Path) : List String := if path.root = 0 then here else []

/-- A walk along names, which follows the links that are there. `step` says by which names
it may go on, from which place, and `through` by which links. The numbers are those of the
links that may still be followed. -/
inductive Route (files : Files) (step through : List String → String → Prop) :
    Nat → List String → List String → Nat → List String → Prop
  | done (links : Nat) (here : List String) : Route files step through links here [] links here
  | up {links links' : Nat} {here names place : List String}
      (h : Route files step through links here.dropLast names links' place) :
      Route files step through links here (".." :: names) links' place
  | into {links links' : Nat} {here names place : List String} {name : String}
      (hn : name ≠ "..") (hs : step here name)
      (h : Route files step through links (here ++ [name]) names links' place) :
      Route files step through links here (name :: names) links' place
  | link {links links' : Nat} {here names place : List String} {name target : String}
      (hn : name ≠ "..") (hl : files.stands? (here ++ [name]) = some (.link target))
      (ht : through here name)
      (h : Route files step through links (start here (Path.parse target))
        ((Path.parse target).names ++ names) links' place) :
      Route files step through (links + 1) here (name :: names) links' place

/-- A route along directories and links that are there. It comes by free places only. -/
def Leads (files : Files) (free : List String → Prop) :
    Nat → List String → List String → Nat → List String → Prop :=
  Route files
    (fun here name => Passable name ∧ files.stands? (here ++ [name]) = some (.directory []) ∧
      free (here ++ [name]))
    (fun here name => Passable name ∧ free (here ++ [name]))

/-- Where a walk can only lead: a link is followed, and anything else on the route may be or
become a directory. -/
def Aims (files : Files) : Nat → List String → List String → Nat → List String → Prop :=
  Route files (fun here name => ∀ target, files.stands? (here ++ [name]) ≠ some (.link target))
    (fun _ _ => True)

theorem isDirectory_start (hd : files.IsDirectory here) (path : Path) :
    files.IsDirectory (start here path) := by
  rw [start]
  split
  · exact hd
  · exact isDirectory_nil files

variable {step through : List String → String → Prop} {free : List String → Prop}
  {links links' : Nat}

/-- A route depends on the links and on the steps along it. -/
theorem Route.mono {files' : Files} {step' through' : List String → String → Prop}
    (hstep : ∀ here name, step here name → step' here name)
    (hlink : ∀ here name target, through here name →
      files.stands? (here ++ [name]) = some (.link target) →
        files'.stands? (here ++ [name]) = some (.link target) ∧ through' here name)
    (h : Route files step through links here names links' place) :
    Route files' step' through' links here names links' place := by
  induction h with
  | done links here => exact .done links here
  | up _ ih => exact .up ih
  | into hn hs _ ih => exact .into hn (hstep _ _ hs) ih
  | link hn hl ht _ ih =>
      obtain ⟨hl', ht'⟩ := hlink _ _ _ ht hl
      exact .link hn hl' ht' ih

theorem Leads.aims (h : Leads files free links here names links' place) :
    Aims files links here names links' place := by
  refine Route.mono (fun here name hs target hl => ?_) (fun _ _ _ _ hl => ⟨hl, trivial⟩) h
  rw [hs.2.1] at hl
  cases hl

theorem Leads.isDirectory (h : Leads files free links here names links' place)
    (hd : files.IsDirectory here) : files.IsDirectory place := by
  induction h with
  | done => exact hd
  | up _ ih => exact ih hd.dropLast
  | into _ hs _ ih => exact ih (isDirectory_concat_iff.mpr hs.2.1)
  | link _ _ _ _ ih => exact ih (isDirectory_start hd _)

/-- The directories and links of one tree are in another one too. -/
def KeepsWays (files files' : Files) : Prop :=
  ∀ q node, (∀ content, node ≠ .file content) → files.stands? q = some node →
    files'.stands? q = some node

theorem KeepsWays.trans {files' files'' : Files} (h : KeepsWays files files')
    (h' : KeepsWays files' files'') : KeepsWays files files'' :=
  fun q node hnode hq => h' q node hnode (h q node hnode hq)

theorem Leads.of_keepsWays {files' : Files} (hk : KeepsWays files files')
    (h : Leads files free links here names links' place) :
    Leads files' free links here names links' place :=
  Route.mono (fun _ _ hs => ⟨hs.1, hk _ _ (by simp) hs.2.1, hs.2.2⟩)
    (fun _ _ _ ht hl => ⟨hk _ _ (by simp) hl, ht⟩) h

/-- A route is free of all places where neither a directory nor a link is. -/
theorem Leads.of_stands {free' : List String → Prop}
    (hf : ∀ q node, (∀ content, node ≠ .file content) → files.stands? q = some node → free' q)
    (h : Leads files free links here names links' place) :
    Leads files free' links here names links' place :=
  Route.mono (fun _ _ hs => ⟨hs.1, hs.2.1, hf _ _ (by simp) hs.2.1⟩)
    (fun _ _ _ ht hl => ⟨hl, ht.1, hf _ _ (by simp) hl⟩) h

theorem resolveFrom_succ (path : Path) :
    files.resolveFrom followsLast (links + 1) here path =
      files.walk followsLast (files.resolveFrom followsLast links) (start here path)
        path.names := rfl

theorem resolveFrom_append (path : Path) (names : List String) :
    files.resolveFrom followsLast (links + 1) here (path.append ⟨0, names⟩) =
      files.walk followsLast (files.resolveFrom followsLast links) (start here path)
        (path.names ++ names) := rfl

/-- **What is left of a path** after a route is walked from the place that the route leads
to. If nothing is left, links must be followed at the end too. -/
theorem Leads.walk_append (h : Leads files free links here names links' place)
    (hne : rest ≠ [] ∨ followsLast = true) :
    files.walk followsLast (files.resolveFrom followsLast links) here (names ++ rest) =
      files.walk followsLast (files.resolveFrom followsLast links') place rest := by
  induction h with
  | done => rfl
  | up _ ih => rw [List.cons_append, walk_up, ih]
  | into _ hs _ ih => rw [List.cons_append, walk_directory hs.1 hs.2.1, ih]
  | link _ hl ht _ ih =>
      rw [List.cons_append, walk_link ht.1 hl (hne.imp_left (List.append_ne_nil_of_right_ne_nil _)),
        resolveFrom_append, ← List.append_assoc, ih]

/-- **A walk that comes to its end** has been led to where it aimed, all along directories
and links that are there. -/
theorem Aims.leads_of_walk {found : Target}
    (h : Aims files links here names links' place) (hne : rest ≠ [])
    (hw : files.walk followsLast (files.resolveFrom followsLast links) here (names ++ rest) =
      .ok found) :
    Leads files (fun _ => True) links here names links' place := by
  induction h with
  | done links here => exact .done links here
  | up _ ih =>
      rw [List.cons_append, walk_up] at hw
      exact .up (ih hw)
  | into hn hs _ ih =>
      rw [List.cons_append] at hw
      have hp := passable_of_walk hn hw
      rcases directory_or_link_of_walk hn (List.append_ne_nil_of_right_ne_nil _ hne) hw with
        hd | ⟨target, hl⟩
      · rw [walk_directory hp hd] at hw
        exact .into hn ⟨hp, hd, trivial⟩ (ih hw)
      · exact absurd hl (hs target)
  | link hn hl _ _ ih =>
      rw [List.cons_append] at hw
      have hp := passable_of_walk hn hw
      rw [walk_link hp hl (.inl (List.append_ne_nil_of_right_ne_nil _ hne)),
        resolveFrom_append, ← List.append_assoc] at hw
      exact .link hn hl ⟨hp, trivial⟩ (ih hw)

theorem exists_leads_of_link {found : Target} (hne : rest ≠ [])
    (hlink : ∀ here name target names, Passable name →
      files.stands? (here ++ [name]) = some (.link target) →
      files.resolveFrom followsLast links here ((Path.parse target).append ⟨0, names ++ rest⟩) =
        .ok found →
      ∃ links' place, Leads files (fun _ => True) links here (name :: names) links' place)
    (hw : files.walk followsLast (files.resolveFrom followsLast links) here (names ++ rest) =
      .ok found) :
    ∃ links' place, Leads files (fun _ => True) links here names links' place := by
  induction names generalizing here with
  | nil => exact ⟨_, _, .done links here⟩
  | cons name names ih =>
      have hrest : names ++ rest ≠ [] := List.append_ne_nil_of_right_ne_nil _ hne
      rw [List.cons_append] at hw
      by_cases hn : name = ".."
      · subst hn
        rw [walk_up] at hw
        obtain ⟨links', place, hleads⟩ := ih hw
        exact ⟨links', place, .up hleads⟩
      have hp := passable_of_walk hn hw
      rcases directory_or_link_of_walk hn hrest hw with hd | ⟨target, hl⟩
      · rw [walk_directory hp hd] at hw
        obtain ⟨links', place, hleads⟩ := ih hw
        exact ⟨links', place, .into hn ⟨hp, hd, trivial⟩ hleads⟩
      · rw [walk_link hp hl (.inl hrest)] at hw
        exact hlink here name target names hp hl hw

/-- **A walk that comes to its end has come by a route** along directories and links. -/
theorem exists_leads_of_walk {found : Target} (hne : rest ≠ [])
    (hw : files.walk followsLast (files.resolveFrom followsLast links) here (names ++ rest) =
      .ok found) :
    ∃ links' place, Leads files (fun _ => True) links here names links' place := by
  induction links generalizing here names with
  | zero =>
      refine exists_leads_of_link hne (fun here name target names _ _ hr => ?_) hw
      cases hr
  | succ links ih =>
      refine exists_leads_of_link hne (fun here name target names hp hl hr => ?_) hw
      rw [resolveFrom_append, ← List.append_assoc] at hr
      obtain ⟨links', place, hleads⟩ := ih hr
      exact ⟨links', place, .link hp.1 hl ⟨hp, trivial⟩ hleads⟩

/-! ## Beyond what is there -/

/-- A walk that ends where nothing is, or on the way to where nothing is. -/
def Nowhere (result : Except FileFault Target) : Prop :=
  (∃ q, result = .ok (.absent q)) ∨ result = .error .notFound

theorem not_nowhere_present {q : List String} {node : Node} :
    ¬ Nowhere (.ok (.present q node)) := by
  rintro (⟨_, h⟩ | h) <;> cases h

theorem not_nowhere_error {fault : FileFault} (hf : fault ≠ .notFound) :
    ¬ Nowhere (.error fault) := by
  rintro (⟨_, h⟩ | h)
  · cases h
  · exact hf (Except.error.inj h)

theorem not_nowhere_walk_nil {onLink : List String → Path → Except FileFault Target}
    (hd : files.IsDirectory here) : ¬ Nowhere (files.walk followsLast onLink here []) := by
  obtain rfl | ⟨front, last, rfl⟩ := List.eq_nil_or_concat' here
  · rw [walk]
    rintro (⟨_, h⟩ | h) <;> cases h
  · obtain ⟨es, hat⟩ := stands?_eq_directory_iff.mp (isDirectory_concat_iff.mp hd)
    rw [walk.eq_2 _ _ _ _ (by simp), hat]
    exact not_nowhere_present

/-- Nothing is found beyond a place where nothing is, if that holds of what links lead to. -/
theorem walk_beyond_of_onLink {onLink onLink' : List String → Path → Except FileFault Target}
    (hlink : ∀ here path, files.IsDirectory here → Nowhere (onLink here path) →
      onLink' here (path.append ⟨0, rest⟩) = .error .notFound)
    (hne : rest ≠ []) (hd : files.IsDirectory here)
    (h : Nowhere (files.walk false onLink here names)) :
    files.walk followsLast onLink' here (names ++ rest) = .error .notFound := by
  induction names generalizing here with
  | nil => exact absurd h (not_nowhere_walk_nil hd)
  | cons name names ih =>
      have hrest : names ++ rest ≠ [] := List.append_ne_nil_of_right_ne_nil _ hne
      rw [List.cons_append]
      by_cases hn : name = ".."
      · subst hn
        rw [walk_up] at h
        rw [walk_up, ih hd.dropLast h]
      by_cases hl : longestName < name.utf8ByteSize
      · rw [walk_nameTooLong hn hl] at h
        exact absurd h (not_nowhere_error (by decide))
      have hp : Passable name := ⟨hn, Nat.not_lt.mp hl⟩
      rcases files.stands?_cases (here ++ [name]) with
        hs | ⟨content, hs⟩ | ⟨target, hs⟩ | hs
      · exact walk_absent_beyond hp hs hrest
      · by_cases hend : names = []
        · rw [hend, walk_file_end hp hs] at h
          exact absurd h not_nowhere_present
        · rw [walk_file_beyond hp hs hend] at h
          exact absurd h (not_nowhere_error (by decide))
      · by_cases hend : names = []
        · rw [hend, walk_link_end hp hs] at h
          exact absurd h not_nowhere_present
        · rw [walk_link hp hs (.inl hend)] at h
          rw [walk_link hp hs (.inl hrest), ← hlink here _ hd h, Path.append_relative]
      · rw [walk_directory hp hs] at h
        rw [walk_directory hp hs, ih (isDirectory_concat_iff.mpr hs) h]

/-- **Nothing is found beyond a place where nothing is.** -/
theorem walk_beyond (hne : rest ≠ []) (hd : files.IsDirectory here)
    (h : Nowhere (files.walk false (files.resolveFrom false links) here names)) :
    files.walk followsLast (files.resolveFrom followsLast links) here (names ++ rest) =
      .error .notFound := by
  induction links generalizing here names with
  | zero =>
      refine walk_beyond_of_onLink (fun here path _ hnow => ?_) hne hd h
      exact absurd hnow (not_nowhere_error (by decide))
  | succ links ih =>
      refine walk_beyond_of_onLink (fun here path hd hnow => ?_) hne hd h
      rw [resolveFrom_append]
      rw [resolveFrom_succ] at hnow
      exact ih (isDirectory_start hd path) hnow

end Files

end LinkedTables
