import ComponentSpec.Value
import ComponentSpec.Number.Decimal
import ComponentSpec.Text.Quoted

/-!
# Writing JSON

A document is written in ASCII, with one item or entry to a line, each level indented by the same
number of blanks. Nothing is written between the brackets of an empty list or object. A key that is
no text is written as the text of its JSON form.

* `Json.scalarText` — the form of a scalar;
* `Json.write` — the text of a document.
-/

namespace ComponentSpec.Json

def numberNames : NumberNames := ⟨"NaN", "Infinity"⟩

/-- The escape of one 16-bit unit. -/
def unitEscape (n : Nat) : List Char := '\\' :: 'u' :: Text.hexadecimal 4 n

/-- One code of a text. Characters beyond 16 bits are written as a pair of escapes, and half of a
pair as a single one. -/
def codeText (n : Nat) : List Char :=
  let c := Char.ofNat n
  if c = '"' then ['\\', '"']
  else if c = '\\' then ['\\', '\\']
  else if c = '\n' then ['\\', 'n']
  else if c = '\r' then ['\\', 'r']
  else if c = '\t' then ['\\', 't']
  else if n = 0x08 then ['\\', 'b']
  else if n = 0x0C then ['\\', 'f']
  else if 0x20 ≤ n ∧ n < 0x7F then [c]
  else if n < 0x10000 then unitEscape n
  else
    let m := n - 0x10000
    unitEscape (0xD800 + m / 0x400) ++ unitEscape (0xDC00 + m % 0x400)

def stringText (s : String) : String :=
  String.ofList ('"' :: (Text.codes s).flatMap codeText ++ ['"'])

def scalarText : Scalar → String
  | .null => "null"
  | .bool true => "true"
  | .bool false => "false"
  | .int n => toString n
  | .float x => x.text numberNames
  | .str s => stringText s

def keyText : Scalar → String
  | .str s => stringText s
  | k => stringText (scalarText k)

mutual

/-- The text of a document whose first line starts at the given margin; `unit` is one level. -/
def layout (unit margin : String) : Value → String
  | .scalar s => scalarText s
  | .arr [] => "[]"
  | .arr (v :: vs) =>
    let inner := margin ++ unit
    "[\n" ++ inner ++ layout unit inner v ++ layoutItems unit inner vs ++ "\n" ++ margin ++ "]"
  | .obj [] => "\x7b\x7d"
  | .obj ((k, v) :: es) =>
    let inner := margin ++ unit
    "\x7b\n" ++ inner ++ keyText k ++ ": " ++ layout unit inner v ++ layoutEntries unit inner es ++
      "\n" ++ margin ++ "\x7d"

/-- The items of a list after its first. -/
def layoutItems (unit margin : String) : List Value → String
  | [] => ""
  | v :: vs => ",\n" ++ margin ++ layout unit margin v ++ layoutItems unit margin vs

/-- The entries of an object after its first. -/
def layoutEntries (unit margin : String) : List (Scalar × Value) → String
  | [] => ""
  | (k, v) :: es =>
    ",\n" ++ margin ++ keyText k ++ ": " ++ layout unit margin v ++ layoutEntries unit margin es

end

/-- **The text of a document.** An indentation below zero is none. -/
def write (indent : Int) (v : Value) : String :=
  layout (String.ofList (List.replicate indent.toNat ' ')) "" v

end ComponentSpec.Json
