import LinkedTables.Proofs.Files.Making

set_option autoImplicit false

/-! # What a path looks at

A file is looked up by a walk along its path, and on the way the walk looks at places, one for
each name that it comes to in a directory (`LooksAt`). What is loaded depends on what stands at
these places and on nothing else (`load_eq_of_looksAt`). A walk ends at the first of them where
nothing is (`load_of_looksAt`). So making directories only matters to a path by which nothing
was found (`Grown.load_eq`), and what is removed only matters to a path that looks at it, by
which nothing is found then (`load_of_removed`). A removal that ends half way leaves a tree from
which something is gone (`Thinned`); by a path into it the same is found as before, or nothing
(`Thinned.load_cases`).
-/

namespace LinkedTables.Files

variable {files files' : Files} {followsLast : Bool} {links : Nat}
  {here names place q : List String} {name : String} {path : Path}

/-! ## Looking at places -/

/-- A walk along names looks at a place, from a directory and with a number of links that may
be followed, also at the end. -/
inductive Visits (files : Files) (q : List String) : Nat → List String → List String → Prop
  | here {links : Nat} {here names : List String} {name : String} (hn : Passable name)
      (hq : here ++ [name] = q) : Visits files q links here (name :: names)
  | up {links : Nat} {here names : List String} (h : Visits files q links here.dropLast names) :
      Visits files q links here (".." :: names)
  | into {links : Nat} {here names : List String} {name : String} (hn : Passable name)
      (hd : files.stands? (here ++ [name]) = some (.directory []))
      (h : Visits files q links (here ++ [name]) names) : Visits files q links here (name :: names)
  | link {links : Nat} {here names : List String} {name target : String} (hn : Passable name)
      (hl : files.stands? (here ++ [name]) = some (.link target))
      (h : Visits files q links (start here (Path.parse target))
        ((Path.parse target).names ++ names)) :
      Visits files q (links + 1) here (name :: names)

/-- A path looks at a place when a file is looked up by it. -/
def LooksAt (files : Files) (path : Path) (q : List String) : Prop :=
  Visits files q mostLinks [] path.names

/-- A walk looks at the place that its first name leads to, and from a directory or a link that
is there it goes on. -/
theorem Visits.cons_cases (hn : name ≠ "..") (h : Visits files q links here (name :: names)) :
    here ++ [name] = q ∨
      files.stands? (here ++ [name]) = some (.directory []) ∧
        Visits files q links (here ++ [name]) names ∨
      ∃ target links', files.stands? (here ++ [name]) = some (.link target) ∧
        links = links' + 1 ∧ Visits files q links' (start here (Path.parse target))
          ((Path.parse target).names ++ names) := by
  cases h with
  | here _ hq => exact .inl hq
  | up _ => exact absurd rfl hn
  | into _ hd hv => exact .inr (.inl ⟨hd, hv⟩)
  | link _ hl hv => exact .inr (.inr ⟨_, _, hl, rfl, hv⟩)

/-- What is left of a path after a route looks at the places that it looks at from where the
route leads. -/
theorem Leads.visits_append {free : List String → Prop} {links' : Nat} {rest : List String}
    (h : Leads files free links here names links' place) (hv : Visits files q links' place rest) :
    Visits files q links here (names ++ rest) := by
  induction h with
  | done => exact hv
  | up _ ih => exact .up (ih hv)
  | into _ hs _ ih => exact .into hs.1 hs.2.1 (ih hv)
  | link _ hl ht _ ih =>
      rw [List.cons_append]
      refine .link ht.1 hl ?_
      rw [← List.append_assoc]
      exact ih hv

/-- A path that looks at a place after a route which does not come by it looks at it after
where the route leads. -/
theorem Leads.visits_of_append {links' : Nat} {rest : List String}
    (h : Leads files (· ≠ q) links here names links' place)
    (hv : Visits files q links here (names ++ rest)) : Visits files q links' place rest := by
  induction h with
  | done => exact hv
  | up _ ih =>
      rcases hv with ⟨hn, -⟩ | hv | ⟨hn, -, -⟩ | ⟨hn, -, -⟩
      · exact absurd rfl hn.1
      · exact ih hv
      · exact absurd rfl hn.1
      · exact absurd rfl hn.1
  | into hn hs _ ih =>
      rcases hv.cons_cases hn with hq | ⟨-, hv⟩ | ⟨_, _, hl, -⟩
      · exact absurd hq hs.2.2
      · exact ih hv
      · cases hs.2.1.symm.trans hl
  | link hn hl ht _ ih =>
      rw [List.cons_append] at hv
      rcases hv.cons_cases hn with hq | ⟨hd, -⟩ | ⟨_, _, hl', hlinks, hv⟩
      · exact absurd hq ht.2
      · cases hl.symm.trans hd
      · cases hl.symm.trans hl'
        cases hlinks
        rw [← List.append_assoc] at hv
        exact ih hv

/-! ## What is found depends on the places looked at -/

/-- Where a path leads, without what a directory there holds. -/
def Target.shell : Target → Target
  | top => top
  | present place node => present place node.shell
  | absent place => absent place

theorem load_eq_of_shell
    (h : (files'.resolve true path).map Target.shell = (files.resolve true path).map Target.shell) :
    files'.load path = files.load path := by
  rw [load, load]
  generalize files'.resolve true path = result' at h ⊢
  generalize files.resolve true path = result at h ⊢
  rcases result' with _ | _ | ⟨_, _ | _ | _⟩ | _ <;>
    rcases result with _ | _ | ⟨_, _ | _ | _⟩ | _ <;>
      simp_all [Except.map, Target.shell, Node.shell]

theorem shell_walk_nil {onLink : List String → Path → Except FileFault Target}
    (hd : files.IsDirectory here) :
    (files.walk followsLast onLink here []).map Target.shell =
      .ok (if here = [] then .top else .present here (.directory [])) := by
  obtain rfl | ⟨front, last, rfl⟩ := List.eq_nil_or_concat' here
  · rw [walk]
    rfl
  · obtain ⟨es, hat⟩ := stands?_eq_directory_iff.mp (isDirectory_concat_iff.mp hd)
    rw [walk.eq_2 _ _ _ _ (by simp), hat, if_neg (by simp)]
    rfl

/-- Two walks find alike if the same stands wherever one of them looks. -/
theorem shell_walk_eq (links : Nat) (here names : List String) (hd : files.IsDirectory here)
    (hd' : files'.IsDirectory here)
    (h : ∀ q, Visits files q links here names → files'.stands? q = files.stands? q) :
    (files'.walk true (files'.resolveFrom true links) here names).map Target.shell =
      (files.walk true (files.resolveFrom true links) here names).map Target.shell := by
  match names with
  | [] => rw [shell_walk_nil hd, shell_walk_nil hd']
  | name :: names =>
      by_cases hn : name = ".."
      · subst hn
        rw [walk_up, walk_up]
        exact shell_walk_eq links _ names hd.dropLast hd'.dropLast fun q hq => h q (.up hq)
      by_cases hlong : longestName < name.utf8ByteSize
      · rw [walk_nameTooLong hn hlong, walk_nameTooLong hn hlong]
      have hp : Passable name := ⟨hn, Nat.not_lt.mp hlong⟩
      have hsame := h (here ++ [name]) (.here hp rfl)
      rcases files.stands?_cases (here ++ [name]) with
        hs | ⟨content, hs⟩ | ⟨target, hs⟩ | hs
      · rw [hs] at hsame
        by_cases hend : names = []
        · rw [hend, walk_absent_end hp hs, walk_absent_end hp hsame]
        · rw [walk_absent_beyond hp hs hend, walk_absent_beyond hp hsame hend]
      · rw [hs] at hsame
        by_cases hend : names = []
        · rw [hend, walk_file_end hp hs, walk_file_end hp hsame]
        · rw [walk_file_beyond hp hs hend, walk_file_beyond hp hsame hend]
      · rw [hs] at hsame
        rw [walk_link hp hs (.inr rfl), walk_link hp hsame (.inr rfl)]
        match links with
        | 0 => rfl
        | links + 1 =>
            rw [resolveFrom_append, resolveFrom_append]
            exact shell_walk_eq links _ _ (isDirectory_start hd _) (isDirectory_start hd' _)
              fun q hq => h q (.link hp hs hq)
      · rw [hs] at hsame
        rw [walk_directory hp hs, walk_directory hp hsame]
        exact shell_walk_eq links _ names (isDirectory_concat_iff.mpr hs)
          (isDirectory_concat_iff.mpr hsame) fun q hq => h q (.into hp hs hq)
termination_by (links, names.length)

/-- By a path that no file could have the same is found among all files. -/
theorem load_eq_of_fault (h : path.fault? ≠ none) : files'.load path = files.load path := by
  obtain ⟨fault, hf⟩ := Option.ne_none_iff_exists'.mp h
  rw [load, load, resolve_of_fault hf, resolve_of_fault hf]

/-- **What is loaded depends on the places that its path looks at.** -/
theorem load_eq_of_looksAt
    (h : ∀ q, LooksAt files path q → files'.stands? q = files.stands? q) :
    files'.load path = files.load path := by
  by_cases hf : path.fault? = none
  · refine load_eq_of_shell ?_
    rw [resolve_of_no_fault hf, resolve_of_no_fault hf]
    exact shell_walk_eq mostLinks [] path.names (isDirectory_nil _) (isDirectory_nil _) h
  · exact load_eq_of_fault hf

/-! ## Where nothing is -/

theorem load_of_nowhere (h : Nowhere (files.resolve true path)) :
    files.load path = .error ⟨.notFound, path⟩ := by
  rw [load]
  rcases h with ⟨q, h⟩ | h <;> rw [h]

theorem nowhere_of_nothing {onLink : List String → Path → Except FileFault Target}
    (hn : Passable name) (hs : files.stands? (here ++ [name]) = none) :
    Nowhere (files.walk true onLink here (name :: names)) := by
  by_cases hend : names = []
  · rw [hend, walk_absent_end hn hs]
    exact .inl ⟨_, rfl⟩
  · rw [walk_absent_beyond hn hs hend]
    exact .inr rfl

/-- The second tree is the first one, but at a place and below it something may be gone. -/
def Thinned (place : List String) (files files' : Files) : Prop :=
  ∀ q, files'.stands? q = files.stands? q ∨ place <+: q ∧ files'.stands? q = none

theorem Thinned.refl (place : List String) (files : Files) : Thinned place files files :=
  fun _ => .inl rfl

/-- Where one tree was walked to a place, the walk ends in a thinned tree if nothing is left at
that place: there, or at an earlier place that is gone. -/
theorem Visits.nowhere (h : Visits files q links here names) (ht : Thinned place files files')
    (hs : files'.stands? q = none) :
    Nowhere (files'.walk true (files'.resolveFrom true links) here names) := by
  induction h with
  | here hn hq => exact nowhere_of_nothing hn (hq ▸ hs)
  | up _ ih => rwa [walk_up]
  | into hn hd _ ih =>
      rcases ht _ with hsame | ⟨-, hgone⟩
      · rwa [walk_directory hn (hsame.trans hd)]
      · exact nowhere_of_nothing hn hgone
  | link hn hl _ ih =>
      rcases ht _ with hsame | ⟨-, hgone⟩
      · rwa [walk_link hn (hsame.trans hl) (.inr rfl), resolveFrom_append]
      · exact nowhere_of_nothing hn hgone

theorem Thinned.load_of_looksAt (ht : Thinned place files files') (hf : path.fault? = none)
    (h : LooksAt files path q) (hs : files'.stands? q = none) :
    files'.load path = .error ⟨.notFound, path⟩ := by
  refine load_of_nowhere ?_
  rw [resolve_of_no_fault hf]
  exact h.nowhere ht hs

theorem load_of_looksAt (hf : path.fault? = none) (h : LooksAt files path q)
    (hs : files.stands? q = none) : files.load path = .error ⟨.notFound, path⟩ :=
  (Thinned.refl [] files).load_of_looksAt hf h hs

/-- **Directories that are made** do not change what is found, but only what is not. -/
theorem Grown.load_eq (hg : Grown files files')
    (h : files.load path ≠ .error ⟨.notFound, path⟩) : files'.load path = files.load path := by
  by_cases hf : path.fault? = none
  · refine load_eq_of_looksAt fun q hq => ?_
    rcases hg q with hsame | ⟨hnone, -⟩
    · exact hsame
    · exact absurd (load_of_looksAt hf hq hnone) h
  · exact load_eq_of_fault hf

/-! ## What was removed -/

theorem not_prefix_start (hh : ¬ place <+: here) (path : Path) : ¬ place <+: start here path := by
  rw [start]
  split
  · exact hh
  · intro hp
    obtain rfl := List.prefix_nil.mp hp
    exact hh (List.nil_prefix)

theorem not_prefix_dropLast (hh : ¬ place <+: here) : ¬ place <+: here.dropLast := fun hp =>
  hh (hp.trans (List.dropLast_prefix here))

theorem eq_of_prefix_concat (hh : ¬ place <+: here) (hp : place <+: here ++ [name]) :
    here ++ [name] = place :=
  ((List.prefix_concat_iff.mp hp).resolve_right hh).symm

/-- A walk that looks at something below a place has come by that place. -/
theorem Visits.of_below (h : Visits files q links here names) (hq : place <+: q)
    (hh : ¬ place <+: here) : Visits files place links here names := by
  induction h with
  | here hn hq' => exact .here hn (eq_of_prefix_concat hh (hq' ▸ hq))
  | up _ ih => exact .up (ih (not_prefix_dropLast hh))
  | @into _ here _ name hn hd _ ih =>
      by_cases hp : place <+: here ++ [name]
      · exact .here hn (eq_of_prefix_concat hh hp)
      · exact .into hn hd (ih hp)
  | link hn hl _ ih => exact .link hn hl (ih (not_prefix_start hh _))

/-- A path that does not look at a place does not look below it. -/
theorem LooksAt.of_below (h : LooksAt files path q) (hq : place <+: q) (hne : place ≠ []) :
    LooksAt files path place :=
  Visits.of_below h hq fun hp => hne (List.prefix_nil.mp hp)

/-- What is gone below a place does not matter to the paths that do not look at it. -/
theorem Thinned.load_eq (ht : Thinned place files files') (hne : place ≠ [])
    (hnot : ¬ LooksAt files path place) : files'.load path = files.load path := by
  refine load_eq_of_looksAt fun q hq => (ht q).resolve_right fun ⟨hp, _⟩ => hnot ?_
  exact hq.of_below hp hne

/-- **What is gone** was found before, or it makes no difference. -/
theorem Thinned.load_cases (ht : Thinned place files files') (path : Path) :
    files'.load path = files.load path ∨ files'.load path = .error ⟨.notFound, path⟩ := by
  by_cases hf : path.fault? = none
  case neg => exact .inl (load_eq_of_fault hf)
  by_cases hsame : ∀ q, LooksAt files path q → files'.stands? q = files.stands? q
  · exact .inl (load_eq_of_looksAt hsame)
  · push Not at hsame
    obtain ⟨q, hlooks, hne⟩ := hsame
    obtain ⟨-, hgone⟩ := (ht q).resolve_left hne
    exact .inr (ht.load_of_looksAt hf hlooks hgone)

end LinkedTables.Files
