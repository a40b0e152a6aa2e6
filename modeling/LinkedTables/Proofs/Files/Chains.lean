import LinkedTables.Proofs.Files.Looking
import LinkedTables.Proofs.Files.Missing

set_option autoImplicit false

/-! # Chains of directories

Where a path goes straight down from a directory that is there, the directories that are made
by it lie one in the other, from the first place on where nothing stood (`Chained`,
`makesChain_ensureDirectories`). So all that is new by another path is that some of its
directories are there, while what it leads to is still missing (`nowhere_of_fresh`).
-/

namespace LinkedTables.Files

variable {files files' made : Files} {disk : Disk} {path : Path} {links : Nat} {n last : String}
  {here base tail front chain place names : List String} {free : List String → Prop}

/-! ## Straight down -/

theorem Leads.append {rest place' : List String} {links' links'' : Nat}
    (h : Leads files free links here names links' place)
    (h' : Leads files free links' place rest links'' place') :
    Leads files free links here (names ++ rest) links'' place' := by
  induction h with
  | done => exact h'
  | up _ ih => exact .up (ih h')
  | into hn hs _ ih => exact .into hn hs (ih h')
  | link hn hl ht _ ih =>
      rw [List.cons_append]
      refine .link hn hl ht ?_
      rw [← List.append_assoc]
      exact ih h'

/-- A path goes straight down along directories. -/
theorem leads_straight (hpass : ∀ m ∈ names, Passable m)
    (hstands : ∀ ms, ms <+: names → ms ≠ [] →
      files.stands? (here ++ ms) = some (.directory [])) :
    Leads files (fun _ => True) links here names links (here ++ names) := by
  induction names generalizing here with
  | nil =>
      rw [List.append_nil]
      exact .done links here
  | cons name names ih =>
      obtain ⟨hp, hpass⟩ := List.forall_mem_cons.mp hpass
      refine .into hp.1 ⟨hp, hstands [name] (List.prefix_append [name] names)
        (List.cons_ne_nil _ _), trivial⟩ ?_
      have hrest := @ih (here ++ [name]) hpass fun ms hms _ => by
        rw [List.append_assoc]
        exact hstands (name :: ms) (List.cons_prefix_cons.mpr ⟨rfl, hms⟩) (List.cons_ne_nil _ _)
      rwa [List.append_assoc] at hrest

/-- Nothing is found by a path along places where nothing stands or directories do, and at the
last nothing. -/
theorem nowhere_of_fresh {onLink : List String → Path → Except FileFault Target}
    (hne : names ≠ []) (hpass : ∀ m ∈ names, Passable m)
    (hstands : ∀ ms, ms <+: names → ms ≠ [] → files.stands? (here ++ ms) = none ∨
      files.stands? (here ++ ms) = some (.directory []))
    (hlast : files.stands? (here ++ names) = none) :
    Nowhere (files.walk true onLink here names) := by
  induction names generalizing here with
  | nil => exact absurd rfl hne
  | cons name names ih =>
      obtain ⟨hp, hpass⟩ := List.forall_mem_cons.mp hpass
      by_cases hend : names = []
      · subst hend
        rw [walk_absent_end hp hlast]
        exact .inl ⟨_, rfl⟩
      rcases hstands [name] (List.prefix_append [name] names) (List.cons_ne_nil _ _) with hs | hs
      · rw [walk_absent_beyond hp hs hend]
        exact .inr rfl
      · rw [walk_directory hp hs]
        refine ih hend hpass (fun ms hms hms' => ?_) (by rwa [List.append_assoc])
        rw [List.append_assoc]
        exact hstands (name :: ms) (List.cons_prefix_cons.mpr ⟨rfl, hms⟩) (List.cons_ne_nil _ _)

/-! ## Chains -/

/-- Where nothing stood there is a directory now, in it the next one of a chain, and so on. All
else is as it was. -/
structure Chained (front : List String) (n : String) (chain : List String)
    (files files' : Files) : Prop where
  nothing : files.stands? (front ++ [n]) = none
  made : ∀ ms, ms <+: chain → files'.stands? (front ++ n :: ms) = some (.directory [])
  kept : ∀ q, (∀ ms, ms <+: chain → q ≠ front ++ n :: ms) → files'.stands? q = files.stands? q

theorem stands?_of_nothing (hs : files.stands? (front ++ [n]) = none) (rest : List String) :
    files.stands? (front ++ n :: rest) = none := by
  cases rest with
  | nil => exact hs
  | cons next rest => exact stands?_below (by simp [hs]) next rest

/-- Beyond its end nothing stands in a chain. -/
theorem Chained.stands?_beyond (h : Chained front n chain files files') {rest : List String}
    (hrest : ¬ rest <+: chain) : files'.stands? (front ++ n :: rest) = none := by
  rw [h.kept _ fun ms hms heq => hrest ?_, stands?_of_nothing h.nothing]
  obtain rfl : rest = ms := by simpa using heq
  exact hms

theorem Chained.stands?_cases (h : Chained front n chain files files') (rest : List String) :
    files'.stands? (front ++ n :: rest) = none ∨
      files'.stands? (front ++ n :: rest) = some (.directory []) := by
  by_cases hrest : rest <+: chain
  · exact .inr (h.made rest hrest)
  · exact .inl (h.stands?_beyond hrest)

theorem not_prefix_of_concat (chain : List String) (last : String) :
    ¬ chain ++ [last] <+: chain := by
  intro hp
  have hlength := hp.length_le
  rw [List.length_append, List.length_singleton] at hlength
  omega

theorem chained_putAt (hd : files.IsDirectory front) (hs : files.stands? (front ++ [n]) = none) :
    Chained front n [] files (files.putAt (.directory []) (front ++ [n])) where
  nothing := hs
  made := by
    intro ms hms
    obtain rfl := List.prefix_nil.mp hms
    rw [stands?_putAt rfl hd, if_pos rfl]
  kept := by
    intro q hq
    have hne : q ≠ front ++ [n] := hq [] List.nil_prefix
    rw [stands?_putAt rfl hd, if_neg hne]
    split_ifs with hbelow
    · obtain ⟨below, rfl⟩ := hbelow
      rw [List.append_assoc, List.singleton_append, stands?_of_nothing hs]
    · rfl

theorem Chained.grown (h : Chained front n chain files files') : Grown files files' := by
  intro q
  by_cases hq : ∃ ms, ms <+: chain ∧ q = front ++ n :: ms
  · obtain ⟨ms, hms, rfl⟩ := hq
    exact .inr ⟨stands?_of_nothing h.nothing ms, h.made ms hms⟩
  · exact .inl (h.kept q fun ms hms heq => hq ⟨ms, hms, heq⟩)

theorem isDirectory_of_directory (h : files.stands? place = some (.directory [])) :
    files.IsDirectory place := by
  obtain rfl | ⟨front, last, rfl⟩ := List.eq_nil_or_concat' place
  · exact isDirectory_nil files
  · exact isDirectory_concat_iff.mpr h

/-- A chain goes on with a directory that is put at its end. -/
theorem Chained.putAt (h : Chained front n chain files made) :
    Chained front n (chain ++ [last]) files
      (made.putAt (.directory []) ((front ++ n :: chain) ++ [last])) := by
  have hd : made.IsDirectory (front ++ n :: chain) :=
    isDirectory_of_directory (h.made chain List.prefix_rfl)
  have hs : made.stands? ((front ++ n :: chain) ++ [last]) = none := by
    rw [List.append_assoc, List.cons_append]
    exact h.stands?_beyond (not_prefix_of_concat chain last)
  have hput := chained_putAt hd hs
  have hend : front ++ n :: (chain ++ [last]) = (front ++ n :: chain) ++ [last] := by simp
  refine ⟨h.nothing, fun ms hms => ?_, fun q hq => ?_⟩
  · rcases List.prefix_concat_iff.mp hms with rfl | hms
    · rw [hend]
      exact hput.made [] List.prefix_rfl
    · rw [hput.kept, h.made ms hms]
      rintro ms' hms' heq
      obtain rfl := List.prefix_nil.mp hms'
      obtain rfl : ms = chain ++ [last] := by simpa using heq
      exact not_prefix_of_concat chain last hms
  · rw [hput.kept, h.kept]
    · exact fun ms hms => hq ms (hms.trans (List.prefix_append _ _))
    · rintro ms hms rfl
      obtain rfl := List.prefix_nil.mp hms
      exact hq _ List.prefix_rfl hend.symm

/-- A path leads down a chain. -/
theorem Chained.leads (h : Chained front n chain files files')
    (hpass : ∀ m ∈ n :: chain, Passable m) :
    Leads files' (fun _ => True) links front (n :: chain) links (front ++ n :: chain) := by
  refine leads_straight hpass fun ms hms hne => ?_
  obtain ⟨m, ms, rfl⟩ := List.exists_cons_of_ne_nil hne
  obtain ⟨rfl, hchain⟩ := List.cons_prefix_cons.mp hms
  exact h.made ms hchain

/-! ## Making directories -/

/-- Along a path the first directories are there, then a chain of directories is made, and what
comes after could not be made. There is an error if anything comes after. -/
structure MakesChain (files : Files) (base names : List String) (made : Files × Option FileError)
    (before : List String) (n : String) (chain after front : List String) : Prop where
  names_eq : names = before ++ n :: (chain ++ after)
  base_prefix : base <+: before
  leads : ∃ links, Leads files (fun _ => True) mostLinks [] before links front
  passable : ∀ m ∈ n :: chain, Passable m
  chained : Chained front n chain files made.1
  complete : made.2 = none ↔ after = []

/-- Nothing is made of a directory that is there. -/
theorem ensureDirectories_of_leads (missing : Nat)
    (h : Leads files free mostLinks [] path.names links place) :
    (ensureDirectories disk missing files path).1 = files := by
  cases hf : path.fault? with
  | none => rw [ensureDirectories_of_ok _ (ensureDirectory_of_leads hf h)]
  | some fault =>
      have hfault : fault ≠ .notFound := by
        rcases fault?_eq_some hf with rfl | rfl <;> decide
      rw [ensureDirectories_of_error _ hfault (ensureDirectory_of_fault hf)]

/-- One directory is made where nothing stands, or there is an error. -/
theorem ensureDirectories_zero_of_nothing (hn : n ≠ "..") (hpath : path.names = base ++ [n])
    (h : Leads files free mostLinks [] base links front)
    (hs : files.stands? (front ++ [n]) = none) :
    (Passable n ∧ ensureDirectories disk 0 files path =
      (files.putAt (.directory []) (front ++ [n]), none)) ∨
      ∃ e, ensureDirectories disk 0 files path = (files, some e) := by
  have herror {fault : FileFault} (hf : fault ≠ .notFound)
      (hensure : files.ensureDirectory disk path = .error fault) :
      ∃ e, ensureDirectories disk 0 files path = (files, some e) :=
    ⟨_, ensureDirectories_of_error 0 hf hensure⟩
  cases hf : path.fault? with
  | some fault =>
      refine .inr (herror ?_ (ensureDirectory_of_fault hf))
      rcases fault?_eq_some hf with rfl | rfl <;> decide
  | none =>
      have hr (followsLast : Bool) : files.resolve followsLast path =
          files.walk followsLast (files.resolveFrom followsLast links) front [n] := by
        rw [resolve_of_no_fault hf, hpath, h.walk_append (.inl (List.cons_ne_nil n []))]
      by_cases hlong : longestName < n.utf8ByteSize
      · have hensure : files.ensureDirectory disk path = .error .nameTooLong := by
          simp only [ensureDirectory, makeDirectory, isDirectory?, hr, walk_nameTooLong hn hlong]
        exact .inr (herror (by decide) hensure)
      · have hp : Passable n := ⟨hn, Nat.not_lt.mp hlong⟩
        cases hmaking : disk.making (front ++ [n]) with
        | none =>
            refine .inl ⟨hp, ensureDirectories_of_ok 0 ?_⟩
            simp only [ensureDirectory, makeDirectory, hr, walk_absent_end hp hs, hmaking]
        | some e =>
            have hensure : files.ensureDirectory disk path = .error (.refused e) := by
              simp only [ensureDirectory, makeDirectory, isDirectory?, hr, walk_absent_end hp hs,
                hmaking]
            exact .inr (herror (by simp) hensure)

/-- What is made last is one directory, if anything is. -/
theorem makesChain_ensureDirectories_zero (hn : n ≠ "..")
    (hpath : path.names = (base ++ tail) ++ [n]) :
    (ensureDirectories disk 0 files path).1 = files ∨
      ∃ front, MakesChain files base path.names (ensureDirectories disk 0 files path)
        (base ++ tail) n [] [] front := by
  obtain ⟨made, hmade, heq⟩ | ⟨-, heq⟩ | ⟨_, -, -, ⟨-, heq⟩ | ⟨-, fault, hf, heq⟩⟩ :=
    ensureDirectory_cases files disk path
  · rw [ensureDirectories_of_ok 0 heq]
    obtain ⟨place, hr, rfl⟩ := exists_absent_of_makeDirectory hmade
    rw [resolve_of_no_fault (no_fault_of_resolve hr), hpath] at hr
    obtain ⟨links, front, hleads⟩ := exists_leads_of_walk (List.cons_ne_nil n []) hr
    rw [hleads.walk_append (.inl (List.cons_ne_nil n []))] at hr
    have hp := passable_of_walk hn hr
    rcases files.stands?_cases (front ++ [n]) with
      hs | ⟨content, hs⟩ | ⟨target, hs⟩ | hs
    · rw [walk_absent_end hp hs] at hr
      cases hr
      exact .inr ⟨front, hpath, List.prefix_append _ _, ⟨links, hleads⟩, by simpa using hp,
        chained_putAt (hleads.isDirectory (isDirectory_nil files)) hs, iff_of_true rfl rfl⟩
    · rw [walk_file_end hp hs] at hr
      cases hr
    · rw [walk_link_end hp hs] at hr
      cases hr
    · obtain ⟨es, hend⟩ := walk_directory_end hp hs
      rw [hend] at hr
      cases hr
  · rw [ensureDirectories_zero heq]
    exact .inl rfl
  · rw [ensureDirectories_of_ok 0 heq]
    exact .inl rfl
  · rw [ensureDirectories_of_error 0 hf heq]
    exact .inl rfl

/-- The way to the end of a chain that was made. -/
theorem MakesChain.leads_end {before : List String} {made : Files × Option FileError}
    {after : List String} (h : MakesChain files base names made before n chain after front) :
    ∃ links, Leads made.1 (fun _ => True) mostLinks [] (before ++ n :: chain) links
      (front ++ n :: chain) := by
  obtain ⟨links, hleads⟩ := h.leads
  exact ⟨links, (hleads.of_keepsWays h.chained.grown.keepsWays).append
    (h.chained.leads h.passable)⟩

/-- With one more name the chain goes on, or there is an error. -/
theorem MakesChain.ensureDirectories_zero {before after : List String}
    (h : MakesChain files base names (made, none) before n chain after front)
    (hlast : last ≠ "..") (hpath : path.names = names ++ [last]) :
    ∃ chain' after', MakesChain files base path.names (ensureDirectories disk 0 made path) before n
      chain' after' front := by
  obtain rfl := h.complete.mp rfl
  have hnames := h.names_eq
  rw [List.append_nil] at hnames
  rw [hnames] at hpath
  obtain ⟨links, hleads⟩ := h.leads_end
  have hs : made.stands? ((front ++ n :: chain) ++ [last]) = none := by
    rw [List.append_assoc, List.cons_append]
    exact h.chained.stands?_beyond (not_prefix_of_concat chain last)
  rcases ensureDirectories_zero_of_nothing hlast hpath hleads hs with ⟨hp, heq⟩ | ⟨e, heq⟩
  · rw [heq]
    refine ⟨chain ++ [last], [], by simp [hpath], h.base_prefix, h.leads, ?_, h.chained.putAt,
      iff_of_true rfl rfl⟩
    rw [← List.cons_append]
    exact List.forall_mem_append.mpr ⟨h.passable, by simpa using hp⟩
  · rw [heq]
    exact ⟨chain, [last], by simp [hpath], h.base_prefix, h.leads, h.passable, h.chained,
      iff_of_false (by simp) (by simp)⟩

theorem makesChain_ensureDirectories_once (hb : Leads files free mostLinks [] base links place)
    (hpath : path.names = base ++ tail) (hup : ".." ∉ tail) :
    (ensureDirectories disk 0 files path).1 = files ∨
      ∃ before n chain after front, MakesChain files base path.names
        (ensureDirectories disk 0 files path) before n chain after front := by
  obtain rfl | ⟨tail, last, rfl⟩ := List.eq_nil_or_concat' tail
  · rw [List.append_nil] at hpath
    exact .inl (ensureDirectories_of_leads 0 (hpath ▸ hb))
  · have hlast : last ≠ ".." := by
      rintro rfl
      exact hup (List.mem_append_right _ List.mem_cons_self)
    rw [← List.append_assoc] at hpath
    refine (makesChain_ensureDirectories_zero hlast hpath).imp_right ?_
    exact fun ⟨front, h⟩ => ⟨_, _, _, _, front, h⟩

/-- **Where a path goes straight down** from a directory that is there, a chain of directories
is made by it, or nothing is. -/
theorem makesChain_ensureDirectories (missing : Nat)
    (hb : Leads files free mostLinks [] base links place) (hpath : path.names = base ++ tail)
    (hup : ".." ∉ tail) :
    (ensureDirectories disk missing files path).1 = files ∨
      ∃ before n chain after front, MakesChain files base path.names
        (ensureDirectories disk missing files path) before n chain after front := by
  induction missing generalizing path tail with
  | zero => exact makesChain_ensureDirectories_once hb hpath hup
  | succ missing ih =>
      by_cases h : files.ensureDirectory disk path = .error .notFound
      case neg =>
        rw [ensureDirectories_eq_zero _ h]
        exact makesChain_ensureDirectories_once hb hpath hup
      obtain rfl | ⟨tail, last, rfl⟩ := List.eq_nil_or_concat' tail
      · rw [List.append_nil] at hpath
        exact .inl (ensureDirectories_of_leads _ (hpath ▸ hb))
      have hlast : last ≠ ".." := by
        rintro rfl
        exact hup (List.mem_append_right _ List.mem_cons_self)
      have hparent : path.parent.names = base ++ tail := by
        rw [Path.parent, hpath, ← List.append_assoc, List.dropLast_concat]
      have hnames : path.names = path.parent.names ++ [last] := by
        rw [hparent, hpath, List.append_assoc]
      have hmade := ih hparent fun hmem => hup (List.mem_append_left _ hmem)
      rw [ensureDirectories_succ h]
      split
      · next made e heq =>
          rw [heq] at hmade
          refine hmade.imp_right ?_
          rintro ⟨before, n, chain, after, front, hm⟩
          exact ⟨before, n, chain, after ++ [last], front, by simp [hnames, hm.names_eq],
            hm.base_prefix, hm.leads, hm.passable, hm.chained, iff_of_false (by simp) (by simp)⟩
      · next made heq =>
          rw [heq] at hmade
          rcases hmade with rfl | ⟨before, n, chain, after, front, hm⟩
          · exact makesChain_ensureDirectories_once hb hpath hup
          · obtain ⟨chain', after', hm'⟩ := hm.ensureDirectories_zero hlast hnames
            exact .inr ⟨before, n, chain', after', front, hm'⟩

end LinkedTables.Files
