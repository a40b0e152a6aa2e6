import LinkedTables.Text.Digit
import LinkedTables.Text.Printable

set_option autoImplicit false

/-! # Quoted text

The written form of a text inside messages: enclosed in quotes, so that its ends are seen,
with every character that could not be seen written as an escape.

The quote is the apostrophe, unless the text holds an apostrophe and no double quote. A
backslash and the enclosing quote are written after a backslash; the line feed, the
carriage return and the tabulator have short escapes; any other character that is not
printable is written by its code point, with two, four or eight hexadecimal digits.
-/

namespace LinkedTables.Text

/-- The quote that encloses a text. -/
def quoteFor (cs : List Char) : Char :=
  if '\'' ∈ cs ∧ '"' ∉ cs then '"' else '\''

/-- A code point as an escape, with the shortest of the three widths that holds it. -/
def codePointEscape (n : Nat) : List Char :=
  if n ≤ 0xFF then '\\' :: 'x' :: hexDigits 2 n
  else if n ≤ 0xFFFF then '\\' :: 'u' :: hexDigits 4 n
  else '\\' :: 'U' :: hexDigits 8 n

/-- One character of a text enclosed in the given quote. -/
def quotedChar (quote c : Char) : List Char :=
  if c = quote ∨ c = '\\' then ['\\', c]
  else if c = '\n' then ['\\', 'n']
  else if c = '\r' then ['\\', 'r']
  else if c = '\t' then ['\\', 't']
  else if isPrintable c then [c]
  else codePointEscape c.toNat

/-- The written form of a text. -/
def quotedChars (cs : List Char) : List Char :=
  quoteFor cs :: (cs.flatMap (quotedChar (quoteFor cs)) ++ [quoteFor cs])

/-- The written form of a text. -/
def quoted (s : String) : String := String.ofList (quotedChars s.toList)

example : quotedChars ['a', '\n'] = ['\'', 'a', '\\', 'n', '\''] := by decide +kernel

example : quotedChars ['i', '\'', 'm'] = ['"', 'i', '\'', 'm', '"'] := by decide +kernel

example : quotedChars ['\u200b'] = ['\'', '\\', 'u', '2', '0', '0', 'b', '\''] := by
  decide +kernel

end LinkedTables.Text
