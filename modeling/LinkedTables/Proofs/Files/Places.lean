import LinkedTables.Files.Tree
import Mathlib.Data.List.Infix

set_option autoImplicit false

/-! # What stands at a place

A tree of files is known by what stands at each place: a file with its content, a link with
its target, or a directory, which tells what it holds at the places below it. In this view
`Files.stands?` an operation on the tree is one equation: a node that is put at a place
stands there and nothing stands below it (`stands?_putAt`), what is removed is gone with all
below it (`stands?_removeAt`), and every other place is as it was.
-/

namespace LinkedTables

namespace Node

/-- What a node is, without what a directory holds. -/
def shell : Node → Node
  | directory _ => directory []
  | file content => file content
  | link target => link target

/-- What a directory holds. -/
def entries? : Node → Option Files
  | directory es => some es
  | _ => none

theorem shell_eq_directory_iff {node : Node} {es : List (String × Node)} :
    node.shell = directory es ↔ es = [] ∧ node.entries?.isSome := by
  cases node <;> simp [shell, entries?, eq_comm]

end Node

namespace Files

variable {files : Files} {place : List String} {name : String}

/-- What stands at a place below the top. -/
def stands? (files : Files) (place : List String) : Option Node :=
  (files.at? place).map Node.shell

/-- What the directory under a name holds. -/
def within? (files : Files) (name : String) : Option Files :=
  (Entries.get? files name).bind Node.entries?

/-- What the directory at a place holds; the top is a directory. -/
def inside? (files : Files) : List String → Option Files
  | [] => some files
  | name :: names => (files.within? name).bind fun es => inside? es names

/-- A directory is at a place. -/
def IsDirectory (files : Files) (place : List String) : Prop := (files.inside? place).isSome

@[simp] theorem isDirectory_nil (files : Files) : files.IsDirectory [] := rfl

/-! ## Looking at places -/

@[simp] theorem stands?_nil (files : Files) : files.stands? [] = none := rfl

theorem stands?_single (files : Files) (name : String) :
    files.stands? [name] = (Entries.get? files name).map Node.shell := rfl

theorem at?_cons_cons (files : Files) (name next : String) (names : List String) :
    files.at? (name :: next :: names) =
      (files.within? name).bind fun es => at? es (next :: names) := by
  rw [at?.eq_3 _ _ _ (List.cons_ne_nil next names), within?]
  cases Entries.get? files name with
  | none => rfl
  | some node => cases node <;> rfl

theorem stands?_cons_cons (files : Files) (name next : String) (names : List String) :
    files.stands? (name :: next :: names) =
      (files.within? name).bind fun es => stands? es (next :: names) := by
  rw [stands?, at?_cons_cons]
  cases files.within? name <;> rfl

/-- Below a place one looks into the directory that is there. -/
theorem at?_append_cons (files : Files) (place : List String) (name : String)
    (names : List String) :
    files.at? (place ++ name :: names) =
      (files.inside? place).bind fun es => at? es (name :: names) := by
  induction place generalizing files with
  | nil => rfl
  | cons first place ih =>
      obtain ⟨next, rest, hrest⟩ := List.exists_cons_of_ne_nil
        (List.append_ne_nil_of_right_ne_nil place (List.cons_ne_nil name names))
      rw [List.cons_append, hrest, at?_cons_cons, ← hrest, inside?, Option.bind_assoc]
      exact Option.bind_congr fun es _ => ih es

theorem stands?_append_cons (files : Files) (place : List String) (name : String)
    (names : List String) :
    files.stands? (place ++ name :: names) =
      (files.inside? place).bind fun es => stands? es (name :: names) := by
  rw [stands?, at?_append_cons]
  cases files.inside? place <;> rfl

theorem inside?_append (files : Files) (place names : List String) :
    files.inside? (place ++ names) = (files.inside? place).bind fun es => inside? es names := by
  induction place generalizing files with
  | nil => rfl
  | cons first place ih =>
      rw [List.cons_append, inside?, inside?, Option.bind_assoc]
      exact Option.bind_congr fun es _ => ih es

theorem stands?_eq_none_iff : files.stands? place = none ↔ files.at? place = none := by
  rw [stands?, Option.map_eq_none_iff]

theorem stands?_eq_file_iff {content : ByteArray} :
    files.stands? place = some (.file content) ↔ files.at? place = some (.file content) := by
  rw [stands?, Option.map_eq_some_iff]
  refine ⟨fun ⟨node, hat, hnode⟩ => ?_, fun h => ⟨_, h, rfl⟩⟩
  cases node <;> simp_all [Node.shell]

theorem stands?_eq_link_iff {target : String} :
    files.stands? place = some (.link target) ↔ files.at? place = some (.link target) := by
  rw [stands?, Option.map_eq_some_iff]
  refine ⟨fun ⟨node, hat, hnode⟩ => ?_, fun h => ⟨_, h, rfl⟩⟩
  cases node <;> simp_all [Node.shell]

theorem stands?_eq_directory_iff :
    files.stands? place = some (.directory []) ↔ ∃ es, files.at? place = some (.directory es) := by
  rw [stands?, Option.map_eq_some_iff]
  refine ⟨fun ⟨node, hat, hnode⟩ => ?_, fun ⟨es, h⟩ => ⟨_, h, rfl⟩⟩
  cases node <;> simp_all [Node.shell]

/-- What can stand at a place: nothing, a file, a link or a directory. -/
theorem stands?_cases (files : Files) (place : List String) :
    files.stands? place = none ∨ (∃ content, files.stands? place = some (.file content)) ∨
      (∃ target, files.stands? place = some (.link target)) ∨
      files.stands? place = some (.directory []) := by
  rw [stands?]
  cases files.at? place with
  | none => exact .inl rfl
  | some node =>
      cases node with
      | file content => exact .inr (.inl ⟨content, rfl⟩)
      | link target => exact .inr (.inr (.inl ⟨target, rfl⟩))
      | directory es => exact .inr (.inr (.inr rfl))

theorem stands?_concat_eq_directory_iff {es : List (String × Node)} :
    files.stands? (place ++ [name]) = some (.directory es) ↔
      es = [] ∧ files.IsDirectory (place ++ [name]) := by
  rw [stands?_append_cons, IsDirectory, inside?_append]
  cases files.inside? place with
  | none => simp
  | some inner =>
      rw [Option.bind_some, Option.bind_some, stands?_single, inside?, within?]
      cases Entries.get? inner name with
      | none => simp
      | some node => simp [Node.shell_eq_directory_iff, inside?]

theorem isDirectory_concat_iff :
    files.IsDirectory (place ++ [name]) ↔
      files.stands? (place ++ [name]) = some (.directory []) := by
  rw [stands?_concat_eq_directory_iff]
  simp

/-- Whatever stands at a place stands in a directory. -/
theorem isDirectory_of_stands? {names : List String}
    (h : files.stands? (place ++ name :: names) ≠ none) : files.IsDirectory place := by
  rw [stands?_append_cons] at h
  rw [IsDirectory, Option.isSome_iff_ne_none]
  intro hi
  rw [hi] at h
  exact h rfl

theorem IsDirectory.of_append {names : List String} (h : files.IsDirectory (place ++ names)) :
    files.IsDirectory place := by
  rw [IsDirectory, inside?_append] at h
  rw [IsDirectory, Option.isSome_iff_ne_none]
  intro hi
  rw [hi] at h
  exact Bool.false_ne_true h

theorem IsDirectory.dropLast (h : files.IsDirectory place) : files.IsDirectory place.dropLast := by
  obtain rfl | ⟨front, last, rfl⟩ := List.eq_nil_or_concat' place
  · exact h
  · rw [List.dropLast_concat]
    exact h.of_append

/-- Nothing stands below a place where no directory is. -/
theorem stands?_below (h : files.stands? (place ++ [name]) ≠ some (.directory []))
    (next : String) (names : List String) :
    files.stands? (place ++ name :: next :: names) = none := by
  by_contra hne
  have hbelow : files.stands? ((place ++ [name]) ++ next :: names) ≠ none := by
    rwa [List.append_assoc]
  have hd : files.IsDirectory (place ++ [name]) := isDirectory_of_stands? hbelow
  exact h (stands?_concat_eq_directory_iff.mpr ⟨rfl, hd⟩)

/-! ## Putting and removing -/

theorem putAt_cons_cons (files : Files) (node : Node) (name next : String)
    (names : List String) :
    files.putAt node (name :: next :: names) =
      match files.within? name with
      | some es => Entries.set files name (.directory (putAt es node (next :: names)))
      | none => files := by
  rw [putAt.eq_3 _ _ _ _ (List.cons_ne_nil next names), within?]
  cases Entries.get? files name with
  | none => rfl
  | some node => cases node <;> rfl

theorem removeAt_cons_cons (files : Files) (name next : String) (names : List String) :
    files.removeAt (name :: next :: names) =
      match files.within? name with
      | some es => Entries.set files name (.directory (removeAt es (next :: names)))
      | none => files := by
  rw [removeAt.eq_3 _ _ _ (List.cons_ne_nil next names), within?]
  cases Entries.get? files name with
  | none => rfl
  | some node => cases node <;> rfl

section

variable {first : String} {node : Node}

/-- What stands under a name depends on the entry for the name alone. -/
theorem stands?_congr {files' : Files} (h : Entries.get? files' first = Entries.get? files first)
    (names : List String) : files'.stands? (first :: names) = files.stands? (first :: names) := by
  cases names with
  | nil => rw [stands?_single, stands?_single, h]
  | cons next names => rw [stands?_cons_cons, stands?_cons_cons, within?, within?, h]

theorem stands?_set_of_ne (h : first ≠ name) (node : Node) (names : List String) :
    stands? (Entries.set files name node) (first :: names) = files.stands? (first :: names) :=
  stands?_congr (by rw [Entries.get?_set, if_neg h]) names

theorem stands?_set_self (files : Files) (name : String) (node : Node) :
    stands? (Entries.set files name node) [name] = some node.shell := by
  rw [stands?_single, Entries.get?_set, if_pos rfl, Option.map_some]

theorem stands?_set_below (files : Files) (name next : String) (node : Node)
    (names : List String) :
    stands? (Entries.set files name node) (name :: next :: names) =
      node.entries?.bind fun es => stands? es (next :: names) := by
  rw [stands?_cons_cons, within?, Entries.get?_set, if_pos rfl, Option.bind_some]

/-- An entry in front counts where no later one has its name. -/
theorem stands?_cons_entry (entries : Files) (name first : String) (node : Node)
    (names : List String) :
    stands? ((name, node) :: entries) (first :: names) =
      if Entries.get? entries first = none then stands? [(name, node)] (first :: names)
      else stands? entries (first :: names) := by
  split
  · next h => exact stands?_congr (by rw [Entries.get?_cons, Entries.get?_cons, h]; rfl) names
  · next h =>
      obtain ⟨later, hlater⟩ := Option.ne_none_iff_exists'.mp h
      exact stands?_congr (by rw [Entries.get?_cons, hlater]; rfl) names

theorem stands?_empty (names : List String) : stands? [] names = none := by
  cases names with
  | nil => rfl
  | cons name names => cases names <;> rfl

/-- A node that is no more than its shell holds nothing. -/
theorem stands?_entries_of_shell (h : node.shell = node) (names : List String) :
    (node.entries?.bind fun es => stands? es names) = none := by
  cases node with
  | directory es =>
      cases h
      exact stands?_empty names
  | _ => rfl

theorem stands?_of_within {es : Files} (h : files.within? name = some es) :
    files.stands? [name] = some (.directory []) := by
  obtain ⟨node, hnode, hes⟩ := Option.bind_eq_some_iff.mp h
  rw [stands?_single, hnode, Option.map_some,
    Node.shell_eq_directory_iff.mpr ⟨rfl, by rw [hes]; rfl⟩]

/-- A change inside a directory changes what stands below it. -/
theorem stands?_set_directory {es inner : Files} (hes : files.within? name = some es)
    (names : List String) :
    stands? (Entries.set files name (.directory inner)) (name :: names) =
      if names = [] then files.stands? [name] else inner.stands? names := by
  cases names with
  | nil => rw [stands?_set_self, if_pos rfl, stands?_of_within hes]; rfl
  | cons next names => rw [stands?_set_below, if_neg (List.cons_ne_nil next names)]; rfl

/-- **A node that is put at a place** stands there, nothing stands below it, and every other
place is as it was. -/
theorem stands?_putAt (hnode : node.shell = node) (hd : files.IsDirectory place)
    (q : List String) :
    stands? (files.putAt node (place ++ [name])) q =
      if q = place ++ [name] then some node
      else if place ++ [name] <+: q then none else files.stands? q := by
  induction place generalizing files q with
  | nil =>
      rw [List.nil_append, putAt]
      match q with
      | [] => simp
      | [first] =>
          by_cases h : first = name
          · subst h
            rw [stands?_set_self, hnode, if_pos rfl]
          · simp [stands?_set_of_ne h, h, Ne.symm h]
      | first :: next :: names =>
          by_cases h : first = name
          · subst h
            simp [stands?_set_below, stands?_entries_of_shell hnode]
          · simp [stands?_set_of_ne h, h, Ne.symm h]
  | cons first place ih =>
      obtain ⟨es, hes, hinner⟩ :
          ∃ es, files.within? first = some es ∧ IsDirectory es place := by
        rw [IsDirectory, inside?, Option.isSome_bind, Option.any_eq_true] at hd
        exact hd
      obtain ⟨next, rest, hrest⟩ := List.exists_cons_of_ne_nil
        (List.append_ne_nil_of_right_ne_nil place (List.cons_ne_nil name []))
      rw [List.cons_append, hrest, putAt_cons_cons, hes, ← hrest]
      match q with
      | [] => simp
      | x :: names =>
          by_cases h : x = first
          · subst h
            rw [stands?_set_directory hes, ih hinner]
            cases names with
            | nil => simp [hrest]
            | cons y names => simp [stands?_cons_cons, hes]
          · simp [stands?_set_of_ne h, h, Ne.symm h]

theorem stands?_erase (files : Files) (name first : String) (names : List String) :
    stands? (Entries.erase files name) (first :: names) =
      if first = name then none else files.stands? (first :: names) := by
  cases names with
  | nil =>
      rw [stands?_single, stands?_single, Entries.get?_erase]
      split <;> rfl
  | cons next names =>
      rw [stands?_cons_cons, stands?_cons_cons, within?, within?, Entries.get?_erase]
      split <;> rfl

/-- **What is removed is gone** with all that stands below it, and every other place is as
it was. -/
theorem stands?_removeAt (files : Files) (place : List String) (name : String)
    (q : List String) :
    stands? (files.removeAt (place ++ [name])) q =
      if place ++ [name] <+: q then none else files.stands? q := by
  induction place generalizing files q with
  | nil =>
      rw [List.nil_append, removeAt]
      cases q with
      | nil => simp
      | cons first names => simp [stands?_erase, eq_comm]
  | cons first place ih =>
      obtain ⟨next, rest, hrest⟩ := List.exists_cons_of_ne_nil
        (List.append_ne_nil_of_right_ne_nil place (List.cons_ne_nil name []))
      rw [List.cons_append, hrest, removeAt_cons_cons, ← hrest]
      cases hes : files.within? first with
      | none =>
          -- Nothing is below a place that is no directory.
          by_cases h : first :: (place ++ [name]) <+: q
          · obtain ⟨below, rfl⟩ := h
            rw [if_pos (List.prefix_append _ _), hrest, List.cons_append, List.cons_append,
              stands?_cons_cons, hes]
            rfl
          · rw [if_neg h]
      | some es =>
          match q with
          | [] => simp
          | x :: names =>
              by_cases h : x = first
              · subst h
                rw [stands?_set_directory hes, ih es]
                cases names with
                | nil => simp [hrest]
                | cons y names => simp [stands?_cons_cons, hes]
              · simp [stands?_set_of_ne h, Ne.symm h]

end

end Files

end LinkedTables
