import LinkedTables.Json.Parser

set_option autoImplicit false

/-! # The grammar of JSON

Which texts are JSON documents, and which value each of them spells. The relations take a
text as a whole: nothing is left over, and nothing is said about how a reader would find
its way through it. A text may spell at most one value, but a value has many spellings, as
blanks, escapes and the digits of a double may be chosen.

`Document` is the relation for documents and `Spells` the one for values.
-/

namespace LinkedTables.Json

/-- Characters that may stand between the parts of a document. -/
def Blanks (cs : List Char) : Prop := ∀ c ∈ cs, isBlank c = true

/-! ## Texts -/

/-- The spellings of one character inside a text. -/
inductive Piece : List Char → Char → Prop
  /-- The character itself, unless it has to be escaped. -/
  | plain {c : Char} (hq : c ≠ '"') (hb : c ≠ '\\') (hc : 0x20 ≤ c.toNat) : Piece [c] c
  /-- A backslash and a letter. -/
  | letter {e c : Char} (h : escapeLetter? e = some c) : Piece ['\\', e] c
  /-- One code unit. -/
  | unit {a b c d : Char} {n : Nat} (h : hexValue? a b c d = some n)
      (hh : isHighHalf n = false) (hl : isLowHalf n = false) :
      Piece ['\\', 'u', a, b, c, d] (Char.ofNat n)
  /-- The two halves of a pair. -/
  | pair {a b c d a' b' c' d' : Char} {high low : Nat} (h : hexValue? a b c d = some high)
      (hh : isHighHalf high = true) (h' : hexValue? a' b' c' d' = some low)
      (hl : isLowHalf low = true) :
      Piece ['\\', 'u', a, b, c, d, '\\', 'u', a', b', c', d'] (Char.ofNat (pairValue high low))

/-- The spellings of the characters of a text, without the quotes around it. -/
inductive Body : List Char → List Char → Prop
  | nil : Body [] []
  | cons {cs rest body : List Char} {c : Char} (hc : Piece cs c) (h : Body rest body) :
      Body (cs ++ rest) (c :: body)

/-- The spellings of a text. -/
inductive Quoted : List Char → String → Prop
  | mk {cs body : List Char} (h : Body cs body) :
      Quoted ('"' :: (cs ++ ['"'])) (String.ofList body)

/-! ## Numbers -/

/-- One digit or more. -/
def Digits (ds : List Char) : Prop := ds ≠ [] ∧ ∀ d ∈ ds, d.isDigit = true

/-- The digits before the point: a zero alone, or digits that do not start with a zero, as
many as there may be. -/
def Whole (ds : List Char) : Prop :=
  ds = ['0'] ∨ (Digits ds ∧ ds.head? ≠ some '0' ∧ ds.length ≤ mostDigits)

/-- The digits after the point, which may be left out with it. -/
inductive Part : List Char → Option (List Char) → Prop
  | absent : Part [] none
  | present {ds : List Char} (h : Digits ds) : Part ('.' :: ds) (some ds)

/-- A whole number with a sign. -/
def signed (negative : Bool) (n : Nat) : Int := if negative then -n else n

/-- The sign of a power of ten. -/
inductive Sign : List Char → Bool → Prop
  | absent : Sign [] false
  | plus : Sign ['+'] false
  | minus : Sign ['-'] true

/-- The power of ten, which may be left out. -/
inductive Power : List Char → Option Int → Prop
  | absent : Power [] none
  | present {e : Char} {sign ds : List Char} {negative : Bool} (he : e = 'e' ∨ e = 'E')
      (hs : Sign sign negative) (h : Digits ds) :
      Power (e :: (sign ++ ds)) (some (signed negative (Binary64.digitsOf ds)))

/-- A number after its sign: whole if it has neither a point nor a power. -/
inductive Number (negative : Bool) : List Char → Value → Prop
  | whole {ds : List Char} (h : Whole ds) :
      Number negative ds (.int (signed negative (Binary64.digitsOf ds)))
  | double {ds ps es : List Char} {part : Option (List Char)} {power : Option Int}
      (h : Whole ds) (hp : Part ps part) (he : Power es power)
      (hd : part ≠ none ∨ power ≠ none) :
      Number negative (ds ++ (ps ++ es))
        (.float (Binary64.ofParts negative ds (part.getD []) (power.getD 0)))

/-- Values without members that are no texts. -/
inductive Atom : List Char → Value → Prop
  | null : Atom ['n', 'u', 'l', 'l'] .null
  | truth : Atom ['t', 'r', 'u', 'e'] (.bool true)
  | falsehood : Atom ['f', 'a', 'l', 's', 'e'] (.bool false)
  | number {cs : List Char} {v : Value} (h : Number false cs v) : Atom cs v
  | negative {cs : List Char} {v : Value} (h : Number true cs v) : Atom ('-' :: cs) v
  | infinity : Atom ['I', 'n', 'f', 'i', 'n', 'i', 't', 'y'] (.float (.infinite false))
  | minusInfinity :
      Atom ['-', 'I', 'n', 'f', 'i', 'n', 'i', 't', 'y'] (.float (.infinite true))
  | nan : Atom ['N', 'a', 'N'] (.float .nan)

/-! ## Values -/

mutual

/-- The spellings of a value. -/
inductive Spells : List Char → Value → Prop
  | atom {cs : List Char} {v : Value} (h : Atom cs v) : Spells cs v
  | text {cs : List Char} {s : String} (h : Quoted cs s) : Spells cs (.text s)
  | emptyList {ws : List Char} (hw : Blanks ws) : Spells ('[' :: (ws ++ [']'])) (.list [])
  | list {ws cs : List Char} {vs : List Value} (hw : Blanks ws) (h : SpellsItems cs vs) :
      Spells ('[' :: (ws ++ cs)) (.list vs)
  | emptyDict {ws : List Char} (hw : Blanks ws) : Spells ('{' :: (ws ++ ['}'])) (.dict [])
  | dict {ws cs : List Char} {es : List (String × Value)} (hw : Blanks ws)
      (h : SpellsMembers cs es) : Spells ('{' :: (ws ++ cs)) (.dict es)

/-- The spellings of the items of a list, with the bracket that closes it. -/
inductive SpellsItems : List Char → List Value → Prop
  | last {cs ws : List Char} {v : Value} (hv : Spells cs v) (hw : Blanks ws) :
      SpellsItems (cs ++ (ws ++ [']'])) [v]
  | more {cs ws ws' rest : List Char} {v : Value} {vs : List Value} (hv : Spells cs v)
      (hw : Blanks ws) (hw' : Blanks ws') (h : SpellsItems rest vs) :
      SpellsItems (cs ++ (ws ++ ',' :: (ws' ++ rest))) (v :: vs)

/-- The spellings of the members of an object, with the brace that closes it. -/
inductive SpellsMembers : List Char → List (String × Value) → Prop
  | last {ks ws ws' cs us : List Char} {k : String} {v : Value} (hk : Quoted ks k)
      (hw : Blanks ws) (hw' : Blanks ws') (hv : Spells cs v) (hu : Blanks us) :
      SpellsMembers (ks ++ (ws ++ ':' :: (ws' ++ (cs ++ (us ++ ['}']))))) [(k, v)]
  | more {ks ws ws' cs us us' rest : List Char} {k : String} {v : Value}
      {es : List (String × Value)} (hk : Quoted ks k) (hw : Blanks ws) (hw' : Blanks ws')
      (hv : Spells cs v) (hu : Blanks us) (hu' : Blanks us') (h : SpellsMembers rest es) :
      SpellsMembers (ks ++ (ws ++ ':' :: (ws' ++ (cs ++ (us ++ ',' :: (us' ++ rest))))))
        ((k, v) :: es)

end

/-- The spellings of a value as a document. -/
inductive Document : List Char → Value → Prop
  | mk {ws cs ws' : List Char} {v : Value} (hw : Blanks ws) (h : Spells cs v)
      (hw' : Blanks ws') : Document (ws ++ (cs ++ ws')) v

end LinkedTables.Json
