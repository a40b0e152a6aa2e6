import LinkedTables.Proofs.Files.Routes

set_option autoImplicit false

/-! # Making directories

A path whose text no file could have is refused before any file is looked at
(`Path.fault?`); all others are walked from the top. Whatever a walk finds is there
(`Holds`), so a directory is only made where nothing stood: making directories adds empty
directories and changes nothing else (`grown_makeDirectories`).
-/

namespace LinkedTables

namespace Path

/-- Why no file could have a path, whatever files there are. -/
def fault? (path : Path) : Option FileFault :=
  if path.names.any fun name => name.toList.contains '\x00' then some .nullCharacter
  else if Files.longestPath < path.text.utf8ByteSize then some .nameTooLong
  else none

/-- The text of a path grows with each name. -/
theorem utf8ByteSize_text_child_le {p : Path} (hp : ¬ (p.root = 0 ∧ p.names = []))
    (n : String) : p.text.utf8ByteSize ≤ (p.child n).text.utf8ByteSize := by
  rw [text, text, if_neg hp, if_neg (by simp), names_child]
  have hroot : (p.child n).root = p.root := rfl
  have hnames : (String.intercalate "/" p.names).utf8ByteSize ≤
      (String.intercalate "/" (p.names ++ [n])).utf8ByteSize := by
    by_cases hne : p.names = []
    · simp [hne]
    · rw [String.intercalate_append_of_ne_nil hne (by simp)]
      simp only [String.utf8ByteSize_append]
      omega
  rw [hroot, String.utf8ByteSize_append, String.utf8ByteSize_append]
  exact Nat.add_le_add_left hnames _

/-- Where a file could have a path, a directory could have the path above it. -/
theorem no_fault_of_child {p : Path} {n : String} (h : (p.child n).fault? = none) :
    p.fault? = none := by
  by_cases hempty : p.root = 0 ∧ p.names = []
  · rw [fault?, text, if_pos hempty, hempty.2]
    rfl
  · rw [fault?] at h ⊢
    split_ifs at h with hnull hlong
    have hsize := utf8ByteSize_text_child_le hempty n
    rw [if_neg (fun hp => hnull ?_), if_neg (fun hp => hlong (lt_of_lt_of_le hp hsize))]
    rw [names_child, List.any_append, hp, Bool.true_or]

end Path

namespace Files

variable {files files' : Files} {disk : Disk} {followsLast : Bool}
  {here names place : List String} {path : Path}

/-! ## What is found -/

theorem resolve_of_fault {fault : FileFault} (h : path.fault? = some fault) :
    files.resolve followsLast path = .error fault := by
  rw [resolve]
  rw [Path.fault?] at h
  split_ifs at h ⊢ <;> cases h <;> rfl

theorem fault?_eq_some {fault : FileFault} (h : path.fault? = some fault) :
    fault = .nullCharacter ∨ fault = .nameTooLong := by
  rw [Path.fault?] at h
  split_ifs at h <;> cases h <;> simp

theorem resolve_of_no_fault (h : path.fault? = none) :
    files.resolve followsLast path =
      files.walk followsLast (files.resolveFrom followsLast mostLinks) [] path.names := by
  rw [Path.fault?] at h
  split_ifs at h with hnull hlong
  rw [resolve, if_neg hnull, if_neg hlong, resolveFrom_succ, start]
  split <;> rfl

theorem no_fault_of_resolve {found : Target} (h : files.resolve followsLast path = .ok found) :
    path.fault? = none := by
  cases hf : path.fault? with
  | none => rfl
  | some fault => rw [resolve_of_fault hf] at h; cases h

/-- What a path leads to is there; or it is not, in a directory that is. -/
def Holds (files : Files) : Target → Prop
  | .top => True
  | .present place node => files.at? place = some node
  | .absent place => ∃ front name, place = front ++ [name] ∧ files.IsDirectory front ∧
      files.stands? place = none

theorem holds_of_walk_nil {onLink : List String → Path → Except FileFault Target}
    {found : Target} (h : files.walk followsLast onLink here [] = .ok found) :
    files.Holds found := by
  cases here with
  | nil =>
      rw [walk] at h
      cases h
      trivial
  | cons name names =>
      rw [walk.eq_2 _ _ _ _ (List.cons_ne_nil name names)] at h
      cases hat : files.at? (name :: names) with
      | none => rw [hat] at h; cases h
      | some node => rw [hat] at h; cases h; exact hat

theorem holds_of_onLink {onLink : List String → Path → Except FileFault Target}
    (hlink : ∀ here path found, files.IsDirectory here → onLink here path = .ok found →
      files.Holds found)
    {found : Target} (hd : files.IsDirectory here)
    (h : files.walk followsLast onLink here names = .ok found) : files.Holds found := by
  induction names generalizing here with
  | nil => exact holds_of_walk_nil h
  | cons name names ih =>
      by_cases hn : name = ".."
      · subst hn
        rw [walk_up] at h
        exact ih hd.dropLast h
      have hp := passable_of_walk hn h
      rcases files.stands?_cases (here ++ [name]) with
        hs | ⟨content, hs⟩ | ⟨target, hs⟩ | hs
      · by_cases hend : names = []
        · rw [hend, walk_absent_end hp hs] at h
          cases h
          exact ⟨here, name, rfl, hd, hs⟩
        · rw [walk_absent_beyond hp hs hend] at h
          cases h
      · by_cases hend : names = []
        · rw [hend, walk_file_end hp hs] at h
          cases h
          exact stands?_eq_file_iff.mp hs
        · rw [walk_file_beyond hp hs hend] at h
          cases h
      · by_cases hend : names ≠ [] ∨ followsLast = true
        · rw [walk_link hp hs hend] at h
          exact hlink here _ found hd h
        · obtain ⟨rfl, rfl⟩ : names = [] ∧ followsLast = false := by simpa using hend
          rw [walk_link_end hp hs] at h
          cases h
          exact stands?_eq_link_iff.mp hs
      · rw [walk_directory hp hs] at h
        exact ih (isDirectory_concat_iff.mpr hs) h

theorem holds_of_resolveFrom {links : Nat} {found : Target} (hd : files.IsDirectory here)
    (h : files.resolveFrom followsLast links here path = .ok found) : files.Holds found := by
  induction links generalizing here path found with
  | zero => cases h
  | succ links ih =>
      rw [resolveFrom_succ] at h
      exact holds_of_onLink (fun here path found hd h => ih hd h) (isDirectory_start hd path) h

theorem holds_of_resolve {found : Target} (h : files.resolve followsLast path = .ok found) :
    files.Holds found := by
  rw [resolve] at h
  split_ifs at h
  exact holds_of_resolveFrom (isDirectory_nil files) h

/-! ## What is made -/

/-- Empty directories may have come to places where nothing stood; all else is as it was. -/
def Grown (files files' : Files) : Prop :=
  ∀ q, files'.stands? q = files.stands? q ∨
    files.stands? q = none ∧ files'.stands? q = some (.directory [])

theorem Grown.refl (files : Files) : Grown files files := fun _ => .inl rfl

theorem Grown.trans {files'' : Files} (h : Grown files files') (h' : Grown files' files'') :
    Grown files files'' := by
  intro q
  rcases h q with hq | ⟨hnone, hq⟩ <;> rcases h' q with hq' | ⟨hnone', hq'⟩
  · exact .inl (hq'.trans hq)
  · exact .inr ⟨hq ▸ hnone', hq'⟩
  · exact .inr ⟨hnone, hq'.trans hq⟩
  · exact .inr ⟨hnone, hq'⟩

/-- Only directories are where something has come to stand. -/
theorem Grown.stands?_eq (h : Grown files files') {q : List String}
    (hq : files'.stands? q ≠ some (.directory [])) : files'.stands? q = files.stands? q :=
  (h q).resolve_right fun hd => hq hd.2

/-- What stood somewhere still stands there. -/
theorem Grown.stands?_of_some (h : Grown files files') {q : List String} {node : Node}
    (hq : files.stands? q = some node) : files'.stands? q = some node := by
  rcases h q with hsame | ⟨hnone, -⟩
  · exact hsame.trans hq
  · rw [hq] at hnone
    cases hnone

theorem Grown.keepsWays (h : Grown files files') : KeepsWays files files' :=
  fun _ _ _ hq => h.stands?_of_some hq

theorem grown_putAt {front : List String} {name : String} (hd : files.IsDirectory front)
    (hs : files.stands? (front ++ [name]) = none) :
    Grown files (files.putAt (.directory []) (front ++ [name])) := by
  intro q
  rw [stands?_putAt rfl hd]
  split_ifs with heq hbelow
  · exact .inr ⟨heq ▸ hs, rfl⟩
  · -- Nothing stands below a place where nothing is.
    obtain ⟨_ | ⟨next, below⟩, rfl⟩ := hbelow
    · exact absurd (List.append_nil _) heq
    · left
      rw [List.append_assoc, List.singleton_append,
        stands?_below (by simp [hs])]
  · exact .inl rfl

/-- A directory is made where nothing is. -/
theorem exists_absent_of_makeDirectory (h : files.makeDirectory disk path = .ok files') :
    ∃ place, files.resolve false path = .ok (.absent place) ∧
      files' = files.putAt (.directory []) place := by
  rw [makeDirectory] at h
  split at h
  · cases h
  · next place hr =>
      split at h
      · cases h
        exact ⟨place, hr, rfl⟩
      · cases h
  · cases h

theorem grown_makeDirectory (h : files.makeDirectory disk path = .ok files') :
    Grown files files' := by
  obtain ⟨place, hr, rfl⟩ := exists_absent_of_makeDirectory h
  obtain ⟨front, name, rfl, hd, hs⟩ := holds_of_resolve hr
  exact grown_putAt hd hs

/-- What comes of making a directory unless it is there. -/
theorem ensureDirectory_cases (files : Files) (disk : Disk) (path : Path) :
    (∃ made, files.makeDirectory disk path = .ok made ∧
      files.ensureDirectory disk path = .ok made) ∨
    (files.makeDirectory disk path = .error .notFound ∧
      files.ensureDirectory disk path = .error .notFound) ∨
    ∃ fault, fault ≠ .notFound ∧ files.makeDirectory disk path = .error fault ∧
      (files.isDirectory? path = some true ∧ files.ensureDirectory disk path = .ok files ∨
        files.isDirectory? path ≠ some true ∧
          ∃ fault, fault ≠ .notFound ∧ files.ensureDirectory disk path = .error fault) := by
  rw [ensureDirectory]
  cases hmade : files.makeDirectory disk path with
  | ok made => exact .inl ⟨made, rfl, rfl⟩
  | error fault =>
      by_cases hf : fault = .notFound
      · subst hf
        exact .inr (.inl ⟨rfl, rfl⟩)
      · refine .inr (.inr ⟨fault, hf, rfl, ?_⟩)
        rcases hdir : files.isDirectory? path with _ | _ | _
        · exact .inr ⟨by simp, .nameTooLong, by decide, by cases fault <;> simp_all⟩
        · exact .inr ⟨by simp, fault, hf, by cases fault <;> simp_all⟩
        · exact .inl ⟨rfl, by cases fault <;> simp_all⟩

theorem grown_ensureDirectory (h : files.ensureDirectory disk path = .ok files') :
    Grown files files' := by
  obtain ⟨made, hmade, heq⟩ | ⟨-, heq⟩ | ⟨_, -, -, ⟨-, heq⟩ | ⟨-, _, -, heq⟩⟩ :=
    ensureDirectory_cases files disk path
  · obtain rfl := Except.ok.inj (heq.symm.trans h)
    exact grown_makeDirectory hmade
  · cases heq.symm.trans h
  · obtain rfl := Except.ok.inj (heq.symm.trans h)
    exact Grown.refl files
  · cases heq.symm.trans h

theorem ensureDirectory_of_fault {fault : FileFault} (h : path.fault? = some fault) :
    files.ensureDirectory disk path = .error fault := by
  rcases fault?_eq_some h with rfl | rfl <;>
    simp only [ensureDirectory, makeDirectory, isDirectory?, resolve_of_fault h]

theorem ensureDirectories_of_ok (missing : Nat) (h : files.ensureDirectory disk path = .ok files') :
    ensureDirectories disk missing files path = (files', none) := by
  cases missing <;> simp [ensureDirectories, h]

theorem ensureDirectories_of_error {fault : FileFault} (missing : Nat) (hf : fault ≠ .notFound)
    (h : files.ensureDirectory disk path = .error fault) :
    ensureDirectories disk missing files path = (files, some ⟨fault, path⟩) := by
  cases missing <;> cases fault <;> simp_all [ensureDirectories]

theorem ensureDirectories_zero (h : files.ensureDirectory disk path = .error .notFound) :
    ensureDirectories disk 0 files path = (files, some ⟨.notFound, path⟩) := by
  simp [ensureDirectories, h]

/-- Where the directory around is not missing, nothing but the directory itself is made. -/
theorem ensureDirectories_eq_zero (missing : Nat)
    (h : files.ensureDirectory disk path ≠ .error .notFound) :
    ensureDirectories disk missing files path = ensureDirectories disk 0 files path := by
  cases hok : files.ensureDirectory disk path with
  | ok made => rw [ensureDirectories_of_ok _ hok, ensureDirectories_of_ok _ hok]
  | error fault =>
      have hf : fault ≠ .notFound := fun hf => h (hf ▸ hok)
      rw [ensureDirectories_of_error _ hf hok, ensureDirectories_of_error _ hf hok]

/-- Where the directory around is missing, that one is made first. -/
theorem ensureDirectories_succ {missing : Nat}
    (h : files.ensureDirectory disk path = .error .notFound) :
    ensureDirectories disk (missing + 1) files path =
      match ensureDirectories disk missing files path.parent with
      | (files, some e) => (files, some e)
      | (files, none) => ensureDirectories disk 0 files path := by
  simp only [ensureDirectories, h]
  cases ensureDirectories disk missing files path.parent with
  | mk made e? =>
  cases e? with
  | some e => rfl
  | none =>
      simp only
      cases hmade : made.ensureDirectory disk path with
      | ok files => simp only [ensureDirectories_of_ok 0 hmade]
      | error fault =>
          by_cases hf : fault = .notFound
          · subst hf
            simp only [ensureDirectories_zero hmade]
          · simp only [ensureDirectories_of_error 0 hf hmade]

theorem grown_ensureDirectories_zero (files : Files) (disk : Disk) (path : Path) :
    Grown files (ensureDirectories disk 0 files path).1 := by
  cases h : files.ensureDirectory disk path with
  | ok made =>
      rw [ensureDirectories_of_ok 0 h]
      exact grown_ensureDirectory h
  | error fault =>
      by_cases hf : fault = .notFound
      · rw [ensureDirectories_zero (hf ▸ h)]
        exact Grown.refl files
      · rw [ensureDirectories_of_error 0 hf h]
        exact Grown.refl files

theorem grown_ensureDirectories (missing : Nat) (files : Files) (disk : Disk) (path : Path) :
    Grown files (ensureDirectories disk missing files path).1 := by
  induction missing generalizing path with
  | zero => exact grown_ensureDirectories_zero files disk path
  | succ missing ih =>
      by_cases h : files.ensureDirectory disk path = .error .notFound
      · have hparent := ih path.parent
        rw [ensureDirectories_succ h]
        split
        · next made e heq => rwa [heq] at hparent
        · next made heq =>
            rw [heq] at hparent
            exact hparent.trans (grown_ensureDirectories_zero made disk path)
      · rw [ensureDirectories_eq_zero _ h]
        exact grown_ensureDirectories_zero files disk path

/-- **Making directories** adds empty directories where nothing stood, also if not all of
them could be made. -/
theorem grown_makeDirectories (files : Files) (disk : Disk) (path : Path) :
    Grown files (files.makeDirectories disk path).1 :=
  grown_ensureDirectories path.names.length files disk path

end Files

end LinkedTables
