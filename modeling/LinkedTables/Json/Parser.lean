import LinkedTables.Value

set_option autoImplicit false

/-! # Reading JSON

A JSON document is read into a `Value`. The members of an object are kept in the order of
the text, repeated keys included. A number with a point or a power of ten becomes a double
and any other number a whole number; `NaN`, `Infinity` and `-Infinity` are accepted as
doubles. Between the parts of a document blanks, tabulators and line ends may stand.

There are two limits: on the digits of a number before its point, and on the depth of a
document, in which lists and objects without members do not count.

Each reader takes characters from the front of a text and gives back what is left. The
readers of values are bounded by a number that every call lowers; the length of the text
is a sufficient bound, since each value has a character of its own.
-/

namespace LinkedTables.Json

/-- The characters that may stand between the parts of a document. -/
def isBlank (c : Char) : Bool := c = ' ' || c = '\t' || c = '\n' || c = '\r'

/-- The text without the blanks at its front. -/
def skipBlanks (cs : List Char) : List Char := cs.dropWhile isBlank

/-! ## Texts -/

/-- The number spelled by four hexadecimal digits. -/
def hexValue? (a b c d : Char) : Option Nat := do
  let a ← Text.hexDigit? a
  let b ← Text.hexDigit? b
  let c ← Text.hexDigit? c
  let d ← Text.hexDigit? d
  return ((a * 16 + b) * 16 + c) * 16 + d

/-- Whether a code unit is the first half of a pair. -/
def isHighHalf (n : Nat) : Bool := 0xD800 ≤ n && n < 0xDC00

/-- Whether a code unit is the second half of a pair. -/
def isLowHalf (n : Nat) : Bool := 0xDC00 ≤ n && n < 0xE000

/-- The code point of a pair of halves. -/
def pairValue (high low : Nat) : Nat := 0x10000 + (high - 0xD800) * 0x400 + (low - 0xDC00)

/-- The character that a letter stands for after a backslash. -/
def escapeLetter? : Char → Option Char
  | '"' => some '"'
  | '\\' => some '\\'
  | '/' => some '/'
  | 'b' => some '\x08'
  | 'f' => some '\x0C'
  | 'n' => some '\n'
  | 'r' => some '\r'
  | 't' => some '\t'
  | _ => none

/-- Reads the characters of a text up to and with its closing quote. Escaped code points
beyond the first 65536 come as pairs, whose halves must not stand alone. -/
def textBody? : List Char → Option (List Char × List Char)
  | [] => none
  | '"' :: cs => some ([], cs)
  | '\\' :: 'u' :: a :: b :: c :: d :: '\\' :: 'u' :: a' :: b' :: c' :: d' :: cs => do
    let high ← hexValue? a b c d
    if isHighHalf high then
      let low ← hexValue? a' b' c' d'
      if isLowHalf low then
        let (body, rest) ← textBody? cs
        return (Char.ofNat (pairValue high low) :: body, rest)
      else none
    else if isLowHalf high then none
    else
      let (body, rest) ← textBody? ('\\' :: 'u' :: a' :: b' :: c' :: d' :: cs)
      return (Char.ofNat high :: body, rest)
  | '\\' :: 'u' :: a :: b :: c :: d :: cs => do
    let code ← hexValue? a b c d
    if isHighHalf code || isLowHalf code then none
    else
      let (body, rest) ← textBody? cs
      return (Char.ofNat code :: body, rest)
  | '\\' :: e :: cs => do
    let c ← escapeLetter? e
    let (body, rest) ← textBody? cs
    return (c :: body, rest)
  | c :: cs =>
    if c = '\\' ∨ c.toNat < 0x20 then none
    else do
      let (body, rest) ← textBody? cs
      return (c :: body, rest)

/-- Reads a text after its opening quote. -/
def text? (cs : List Char) : Option (String × List Char) :=
  (textBody? cs).map fun (body, rest) => (String.ofList body, rest)

/-! ## Numbers -/

/-- The greatest number of digits before the point. -/
def mostDigits : Nat := 4300

/-- Reads the digits before the point: a zero alone, or digits that start with none. -/
def wholeDigits? (cs : List Char) : Option (List Char × List Char) :=
  match cs with
  | '0' :: rest => some (['0'], rest)
  | cs =>
    match cs.takeWhile Char.isDigit with
    | [] => none
    | ds => if ds.length ≤ mostDigits then some (ds, cs.dropWhile Char.isDigit) else none

/-- Reads a point and the digits after it, if there is a point. -/
def partDigits? (cs : List Char) : Option (Option (List Char) × List Char) :=
  match cs with
  | '.' :: rest =>
    match rest.takeWhile Char.isDigit with
    | [] => none
    | ds => some (some ds, rest.dropWhile Char.isDigit)
  | cs => some (none, cs)

/-- Reads a power of ten, if there is one. -/
def powerPart? (cs : List Char) : Option (Option Int × List Char) :=
  match cs with
  | c :: rest =>
    if c = 'e' ∨ c = 'E' then
      (Binary64.power? rest).map fun (power, rest) => (some power, rest)
    else some (none, c :: rest)
  | [] => some (none, [])

/-- Reads a number after its sign. -/
def unsigned? (negative : Bool) (cs : List Char) : Option (Value × List Char) := do
  let (whole, cs) ← wholeDigits? cs
  let (part, cs) ← partDigits? cs
  let (power, cs) ← powerPart? cs
  match part, power with
  | none, none =>
    let n : Int := Binary64.digitsOf whole
    return (.int (if negative then -n else n), cs)
  | _, _ => return (.float (Binary64.ofParts negative whole (part.getD []) (power.getD 0)), cs)

/-- What is left of a text after a word at its front. -/
def after? (word : String) (cs : List Char) : Option (List Char) :=
  word.toList.isPrefixOf? cs

/-- Reads a number, or one of the words for the values that are not finite. -/
def number? (cs : List Char) : Option (Value × List Char) :=
  match cs with
  | '-' :: rest =>
    match after? "Infinity" rest with
    | some rest => some (.float (.infinite true), rest)
    | none => unsigned? true rest
  | cs =>
    match after? "Infinity" cs, after? "NaN" cs with
    | some rest, _ => some (.float (.infinite false), rest)
    | none, some rest => some (.float .nan, rest)
    | none, none => unsigned? false cs

/-- Reads a value without members that is no text. -/
def atom? (cs : List Char) : Option (Value × List Char) :=
  match after? "null" cs, after? "true" cs, after? "false" cs with
  | some rest, _, _ => some (.null, rest)
  | none, some rest, _ => some (.bool true, rest)
  | none, none, some rest => some (.bool false, rest)
  | none, none, none => number? cs

/-! ## Lists and objects -/

mutual

/-- Reads a value that starts at the front of the text. -/
def value? : Nat → List Char → Option (Value × List Char)
  | 0, _ => none
  | bound + 1, cs =>
    match cs with
    | '"' :: cs => (text? cs).map fun (s, rest) => (.text s, rest)
    | '[' :: cs =>
      match skipBlanks cs with
      | ']' :: rest => some (.list [], rest)
      | cs => (items? bound cs).map fun (vs, rest) => (.list vs, rest)
    | '{' :: cs =>
      match skipBlanks cs with
      | '}' :: rest => some (.dict [], rest)
      | cs => (members? bound cs).map fun (es, rest) => (.dict es, rest)
    | cs => atom? cs

/-- Reads the items of a list, one at least, up to and with the closing bracket. -/
def items? : Nat → List Char → Option (List Value × List Char)
  | 0, _ => none
  | bound + 1, cs => do
    let (v, cs) ← value? bound cs
    match skipBlanks cs with
    | ']' :: rest => return ([v], rest)
    | ',' :: cs =>
      let (vs, rest) ← items? bound (skipBlanks cs)
      return (v :: vs, rest)
    | _ => none

/-- Reads the members of an object, one at least, up to and with the closing brace. -/
def members? : Nat → List Char → Option (List (String × Value) × List Char)
  | 0, _ => none
  | bound + 1, cs =>
    match cs with
    | '"' :: cs => do
      let (key, cs) ← text? cs
      match skipBlanks cs with
      | ':' :: cs =>
        let (v, cs) ← value? bound (skipBlanks cs)
        match skipBlanks cs with
        | '}' :: rest => return ([(key, v)], rest)
        | ',' :: cs =>
          let (es, rest) ← members? bound (skipBlanks cs)
          return ((key, v) :: es, rest)
        | _ => none
      | _ => none
    | _ => none

end

/-- Reads a whole document of any depth: one value, with blanks around it. -/
def document? (cs : List Char) : Option Value :=
  match value? (cs.length + 1) (skipBlanks cs) with
  | some (v, rest) => if (skipBlanks rest).isEmpty then some v else none
  | none => none

/-- The greatest depth of a document. -/
def greatestDepth : Nat := 200

/-- Reads the text of a JSON document. -/
def parse? (s : String) : Option Value :=
  (document? s.toList).filter fun v => decide (v.depth ≤ greatestDepth)

/-- Reads the bytes of a JSON document. -/
def parseBytes? (bytes : ByteArray) : Option Value := (String.fromUTF8? bytes).bind parse?

end LinkedTables.Json
