import ComponentSpec.Text.Codes
import ComponentSpec.Text.Printable

/-!
# Shown texts

A text that is printed shows its characters, and half of a pair by its code.

A text inside a list, or shown as a value, stands between quotes. Single quotes are used unless the
text holds one and no double quote. The quote and the backslash are escaped, as are the line feed,
the carriage return and the tab; any other character that is not printable is shown by its code, in
two, four or eight hexadecimal digits.
-/

namespace ComponentSpec.Text

/-- A number in hexadecimal, filled up with zeros to a width. -/
def hexadecimal (width n : Nat) : List Char :=
  let digits := Nat.toDigits 16 n
  List.replicate (width - digits.length) '0' ++ digits

/-- A character that is not printable, by its code. -/
def charCode (c : Char) : List Char :=
  if c.toNat ≤ 0xFF then '\\' :: 'x' :: hexadecimal 2 c.toNat
  else if c.toNat ≤ 0xFFFF then '\\' :: 'u' :: hexadecimal 4 c.toNat
  else '\\' :: 'U' :: hexadecimal 8 c.toNat

/-- Half of a pair, by its code. -/
def halfCode (code : Nat) : List Char := '\\' :: 'u' :: hexadecimal 4 code

/-- One code of a text that is printed. -/
def printedCode (code : Nat) : List Char :=
  if isHalf code then halfCode code else [Char.ofNat code]

/-- **The characters of a text that is printed.** -/
def printed (s : String) : String := String.ofList ((codes s).flatMap printedCode)

/-- One character of a text between the given quotes. -/
def quotedChar (quote c : Char) : List Char :=
  if c = quote ∨ c = '\\' then ['\\', c]
  else if c = '\n' then ['\\', 'n']
  else if c = '\r' then ['\\', 'r']
  else if c = '\t' then ['\\', 't']
  else if isPrintable c then [c]
  else charCode c

/-- One code of a text between the given quotes. -/
def quotedCode (quote : Char) (code : Nat) : List Char :=
  if isHalf code then halfCode code else quotedChar quote (Char.ofNat code)

/-- **The text between quotes.** -/
def quoted (s : String) : String :=
  let cs := s.toList
  let quote := if cs.contains '\'' && !cs.contains '"' then '"' else '\''
  String.ofList (quote :: (codes s).flatMap (quotedCode quote) ++ [quote])

end ComponentSpec.Text
