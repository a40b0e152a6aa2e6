import LinkedTables.Proofs.Json.NumberText

set_option autoImplicit false

/-! # Written values

What is written for a value on one line spells that value, except that a double without a
finite value has become `null`: `spells_compactChars`. Whole numbers have to keep to the
limit on digits and objects have no place in JSON; everything else can be written: every
character of a text has an escape if it needs one, and every finite double has a text of its
own.
-/

namespace LinkedTables

/-! ## Values that can be stored -/

/-- Values that can be read back after they were written: the whole numbers in them are not
too long, no dictionary names a key twice, and there are no objects. -/
inductive Value.Storable : Value → Prop
  | null : Storable .null
  | bool (b : Bool) : Storable (.bool b)
  | int {n : Int} (h : (Text.natDigits n.natAbs).length ≤ Json.mostDigits) : Storable (.int n)
  | float (x : Binary64) : Storable (.float x)
  | text (s : String) : Storable (.text s)
  | list {vs : List Value} (h : ∀ v ∈ vs, Storable v) : Storable (.list vs)
  | dict {es : List (String × Value)} (hk : (es.map (·.1)).Nodup)
      (h : ∀ e ∈ es, Storable e.2) : Storable (.dict es)

/-- Values without objects whose whole numbers are not too long to be read back. A dictionary
may name a key twice. -/
inductive Value.Writable : Value → Prop
  | null : Writable .null
  | bool (b : Bool) : Writable (.bool b)
  | int {n : Int} (h : (Text.natDigits n.natAbs).length ≤ Json.mostDigits) : Writable (.int n)
  | float (x : Binary64) : Writable (.float x)
  | text (s : String) : Writable (.text s)
  | list {vs : List Value} (h : ∀ v ∈ vs, Writable v) : Writable (.list vs)
  | dict {es : List (String × Value)} (h : ∀ e ∈ es, Writable e.2) : Writable (.dict es)

theorem Value.Storable.writable : ∀ {v : Value}, v.Storable → v.Writable := by
  intro v h
  induction h with
  | null => exact .null
  | bool b => exact .bool b
  | int h => exact .int h
  | float x => exact .float x
  | text s => exact .text s
  | list _ ih => exact .list ih
  | dict _ _ ih => exact .dict ih

namespace Value

mutual

/-- A value with null in the place of every double that is not finite. -/
def finitePart : Value → Value
  | float (.finite negative rank) => float (.finite negative rank)
  | float _ => null
  | list vs => list (finiteItems vs)
  | dict es => dict (finiteMembers es)
  | v => v

/-- `finitePart` for each item of a list. -/
def finiteItems : List Value → List Value
  | [] => []
  | v :: vs => finitePart v :: finiteItems vs

/-- `finitePart` for each value of a dictionary. -/
def finiteMembers : List (String × Value) → List (String × Value)
  | [] => []
  | (k, v) :: es => (k, finitePart v) :: finiteMembers es

end

mutual

@[simp] theorem depth_finitePart : ∀ v : Value, v.finitePart.depth = v.depth
  | null | bool _ | int _ | text _ | object _ => rfl
  | float (.finite _ _) | float (.infinite _) | float .nan => rfl
  | list vs => by rw [finitePart, depth, depth, depthOfItems_finite vs]
  | dict es => by rw [finitePart, depth, depth, depthOfEntries_finite es]

theorem depthOfItems_finite : ∀ vs : List Value, depthOfItems (finiteItems vs) = depthOfItems vs
  | [] => rfl
  | v :: vs => by
      rw [finiteItems, depthOfItems, depthOfItems, depth_finitePart v, depthOfItems_finite vs]

theorem depthOfEntries_finite :
    ∀ es : List (String × Value), depthOfEntries (finiteMembers es) = depthOfEntries es
  | [] => rfl
  | (k, v) :: es => by
      rw [finiteMembers, depthOfEntries, depthOfEntries, depth_finitePart v,
        depthOfEntries_finite es]

end

theorem map_fst_finiteMembers (es : List (String × Value)) :
    (finiteMembers es).map (·.1) = es.map (·.1) := by
  induction es with
  | nil => rfl
  | cons e es ih =>
      obtain ⟨k, v⟩ := e
      rw [finiteMembers, List.map_cons, List.map_cons, ih]

end Value

namespace Json

/-! ## Texts -/

/-- A control character is written with two zeros and its two digits in base sixteen. -/
theorem hexDigits_control : ∀ n < 32,
    Text.hexDigits 4 n = ['0', '0', Nat.digitChar (n / 16), Nat.digitChar (n % 16)] ∧
      hexValue? '0' '0' (Nat.digitChar (n / 16)) (Nat.digitChar (n % 16)) = some n := by
  decide

/-- Whatever is written for a character spells it. -/
theorem piece_escapedChar (c : Char) : Piece (escapedChar c) c := by
  rw [escapedChar]
  split_ifs with hquote hslash hback hfeed hline hreturn htab hcontrol
  · subst hquote; exact .letter rfl
  · subst hslash; exact .letter rfl
  · subst hback; exact .letter rfl
  · subst hfeed; exact .letter rfl
  · subst hline; exact .letter rfl
  · subst hreturn; exact .letter rfl
  · subst htab; exact .letter rfl
  · obtain ⟨htext, hvalue⟩ := hexDigits_control c.toNat hcontrol
    have hunit := Piece.unit hvalue (by simp [isHighHalf]; omega) (by simp [isLowHalf]; omega)
    rw [Char.ofNat_toNat] at hunit
    rw [htext]
    exact hunit
  · exact .plain hquote hslash (by omega)

theorem body_flatMap (cs : List Char) : Body (cs.flatMap escapedChar) cs := by
  induction cs with
  | nil => exact .nil
  | cons c cs ih => exact .cons (piece_escapedChar c) ih

theorem quoted_textChars (s : String) : Quoted (textChars s) s := by
  have h := Quoted.mk (body_flatMap s.toList)
  rw [String.ofList_toList] at h
  exact h

/-! ## Numbers -/

theorem atom_intDigits {n : Int} (h : (Text.natDigits n.natAbs).length ≤ mostDigits) :
    Atom (Text.intDigits n) (.int n) := by
  cases n with
  | ofNat n =>
      have hn : Number false _ _ := .whole (whole_natDigits h)
      rw [Int.ofNat_eq_natCast, Int.natAbs_natCast, Text.digitsOf_natDigits] at hn
      exact .number hn
  | negSucc n =>
      have hn : Number true _ _ := .whole (whole_natDigits h)
      rw [Int.natAbs_negSucc, Text.digitsOf_natDigits] at hn
      exact .negative hn

/-! ## Values -/

theorem blanks_nil : Blanks [] := fun _ h => by cases h

theorem atom_floatChars (x : Binary64) :
    Atom (floatChars x) (Value.float x).finitePart := by
  cases x with
  | finite negative rank => exact atom_finite negative rank
  | infinite _ => exact .null
  | nan => exact .null

mutual

/-- **What is written spells the value**, up to doubles without a finite value. -/
theorem spells_compactChars :
    ∀ v : Value, v.Writable → Spells (compactChars v) v.finitePart
  | .null, _ => .atom .null
  | .bool true, _ => .atom .truth
  | .bool false, _ => .atom .falsehood
  | .int _, .int h => .atom (atom_intDigits h)
  | .float x, _ => .atom (atom_floatChars x)
  | .text s, _ => .text (quoted_textChars s)
  | .list [], _ => .emptyList blanks_nil
  | .list (v :: vs), .list h => by
      have hs := Spells.list blanks_nil (spells_compactItems (v :: vs) (by simp) h)
      exact hs
  | .dict [], _ => .emptyDict blanks_nil
  | .dict (e :: es), .dict h => by
      have hs := Spells.dict blanks_nil (spells_compactMembers (e :: es) (by simp) h)
      exact hs

theorem spells_compactItems : ∀ vs : List Value, vs ≠ [] → (∀ v ∈ vs, v.Writable) →
    SpellsItems (compactItems vs ++ [']']) (Value.finiteItems vs)
  | [], hne, _ => absurd rfl hne
  | [v], _, h => by
      have hv := spells_compactChars v (h v (by simp))
      exact .last hv blanks_nil
  | v :: u :: vs, _, h => by
      have hv := spells_compactChars v (h v (by simp))
      have hs := spells_compactItems (u :: vs) (by simp)
        fun w hw => h w (List.mem_cons_of_mem v hw)
      have hm := SpellsItems.more hv blanks_nil blanks_nil hs
      rw [compactItems.eq_3 _ _ (by simp), List.append_assoc]
      exact hm

theorem spells_compactMembers : ∀ es : List (String × Value), es ≠ [] →
    (∀ e ∈ es, e.2.Writable) →
    SpellsMembers (compactMembers es ++ ['}']) (Value.finiteMembers es)
  | [], hne, _ => absurd rfl hne
  | [(k, v)], _, h => by
      have hv := spells_compactChars v (h (k, v) (by simp))
      rw [compactMembers, List.append_assoc]
      exact .last (quoted_textChars k) blanks_nil blanks_nil hv blanks_nil
  | (k, v) :: e :: es, _, h => by
      have hv := spells_compactChars v (h (k, v) (by simp))
      have hs := spells_compactMembers (e :: es) (by simp)
        fun w hw => h w (List.mem_cons_of_mem (k, v) hw)
      have hm := SpellsMembers.more (quoted_textChars k) blanks_nil blanks_nil hv blanks_nil
        blanks_nil hs
      rw [compactMembers.eq_3 _ _ _ (by simp), List.append_assoc, List.cons_append,
        List.append_assoc]
      exact hm

end

end Json

end LinkedTables
