import ComponentSpec.Value
import ComponentSpec.Text.Codes
import ComponentSpec.Text.Lines

/-!
# Reading JSON

The text of a document is read in one pass, from left to right, and the first thing that does not
fit is reported with its place. A few liberties are taken with the format: `NaN`, `Infinity` and
`-Infinity` are numbers. A number without fraction and exponent is an integer, every other one a
double. Where an object repeats a key, the last value stands, in the first one's place. An escape
can spell half of a pair, which the text then holds as a code of its own.

An integer is taken up to a number of digits. A longer one is no flaw of the text and has no place;
reading ends with it all the same.

* `Json.Problem` — what can be wrong with a text;
* `Json.Flaw` — a problem and its place;
* `Json.Refusal` — a flaw, or an integer that is too long;
* `Json.parse` — the document, or why there is none.

Inside the reader a problem is held with the text from the offending character on; the place is
computed once, from what stands before it. The recursion is bounded by twice the length of the text,
since every nested document takes at least one character and two calls.
-/

namespace ComponentSpec.Json

/-- What is wrong with a text. -/
inductive Problem where
  | byteOrderMark
  | value
  | propertyName
  | colon
  | comma
  | extraData
  | unterminatedString
  | controlCharacter
  | escape
  | unicodeEscape
deriving DecidableEq

def Problem.message : Problem → String
  | .byteOrderMark => "Unexpected UTF-8 BOM (decode using utf-8-sig)"
  | .value => "Expecting value"
  | .propertyName => "Expecting property name enclosed in double quotes"
  | .colon => "Expecting ':' delimiter"
  | .comma => "Expecting ',' delimiter"
  | .extraData => "Extra data"
  | .unterminatedString => "Unterminated string starting at"
  | .controlCharacter => "Invalid control character at"
  | .escape => "Invalid \\escape"
  | .unicodeEscape => "Invalid \\uXXXX escape"

/-- A problem and where it was met. -/
structure Flaw where
  problem : Problem
  position : Text.Position
deriving DecidableEq

/-- **Why a text is not read.** -/
inductive Refusal where
  | flaw (flaw : Flaw)
  /-- An integer with more digits than are taken. -/
  | longInteger (digits : Nat)
deriving DecidableEq

/-- What ends the reading of a text: a problem, with the text from the offending character on, or an
integer that is too long. -/
inductive Stop where
  | problem (problem : Problem) (rest : List Char)
  | longInteger (digits : Nat)

/-- A reader of one part of a document: what it read and the text after it. -/
abbrev Reading (α : Type) := Except Stop (α × List Char)

def isBlank (c : Char) : Bool := c == ' ' || c == '\t' || c == '\n' || c == '\r'

def skipBlanks (cs : List Char) : List Char := cs.dropWhile isBlank

/-! ### Texts -/

def hexDigit? (c : Char) : Option Nat :=
  if '0' ≤ c ∧ c ≤ '9' then some (c.toNat - '0'.toNat)
  else if 'a' ≤ c ∧ c ≤ 'f' then some (c.toNat - 'a'.toNat + 10)
  else if 'A' ≤ c ∧ c ≤ 'F' then some (c.toNat - 'A'.toNat + 10)
  else none

/-- Four hexadecimal digits at the front of a text. -/
def hexCode? : List Char → Option Nat
  | a :: b :: c :: d :: _ => do
    return (((← hexDigit? a) * 16 + (← hexDigit? b)) * 16 + (← hexDigit? c)) * 16 + (← hexDigit? d)
  | _ => none

/-- The character that a simple escape stands for. -/
def escaped? : Char → Option Char
  | '"' => some '"'
  | '\\' => some '\\'
  | '/' => some '/'
  | 'b' => some '\x08'
  | 'f' => some '\x0c'
  | 'n' => some '\n'
  | 'r' => some '\r'
  | 't' => some '\t'
  | _ => none

def isHighSurrogate (n : Nat) : Bool := 0xD800 ≤ n && n ≤ 0xDBFF

def isLowSurrogate (n : Nat) : Bool := 0xDC00 ≤ n && n ≤ 0xDFFF

/-- The escape of a code, after its `u`. Two escapes in a row that make up a pair are one character;
the second is looked at only where more text follows it. Half of a pair that has no other half after
it is read as it is. -/
def codeEscape (u : List Char) (cs : List Char) : Reading Nat :=
  match hexCode? cs with
  | none => .error (.problem .unicodeEscape u)
  | some code =>
    let rest := cs.drop 4
    if rest.isEmpty then .error (.problem .unicodeEscape u)
    else if isHighSurrogate code && !(rest.drop 6).isEmpty && rest.take 2 == ['\\', 'u'] then
      match hexCode? (rest.drop 2) with
      | none => .error (.problem .unicodeEscape (rest.drop 1))
      | some second =>
        if isLowSurrogate second then
          .ok (0x10000 + (code - 0xD800) * 0x400 + (second - 0xDC00), rest.drop 6)
        else .ok (code, rest)
    else .ok (code, rest)

theorem length_codeEscape {u cs rest : List Char} {code : Nat}
    (h : codeEscape u cs = .ok (code, rest)) : rest.length ≤ cs.length := by
  unfold codeEscape at h
  split at h
  · cases h
  · dsimp only at h
    repeat' split at h
    all_goals simp only [reduceCtorEq, Except.ok.injEq, Prod.mk.injEq] at h
    all_goals
      rw [← h.2]
      simp only [List.length_drop]
      omega

/-- The rest of a text after its opening quote and the codes already read, the last of them first;
`start` begins with that quote. -/
def textFrom (start : List Char) (done : List Nat) : List Char → Reading String
  | [] => .error (.problem .unterminatedString start)
  | c :: cs =>
    if c = '"' then .ok (Text.ofCodes done.reverse, cs)
    else if c = '\\' then
      match _h : cs with
      | [] => .error (.problem .unterminatedString start)
      | 'u' :: digits =>
        match _escape : codeEscape cs digits with
        | .error stop => .error stop
        | .ok (code, rest) => textFrom start (code :: done) rest
      | e :: rest =>
        match escaped? e with
        | none => .error (.problem .escape (c :: cs))
        | some e => textFrom start (e.toNat :: done) rest
    else if c.toNat < 0x20 then .error (.problem .controlCharacter (c :: cs))
    else textFrom start (c.toNat :: done) cs
  termination_by cs => cs.length
  decreasing_by
    · have := length_codeEscape _escape
      subst _h
      simp only [List.length_cons]
      omega
    · subst _h
      simp only [List.length_cons]
      omega
    · exact Nat.lt_succ_self _

/-- A text, from its opening quote on. -/
def text (cs : List Char) : Reading String := textFrom cs [] (cs.drop 1)

/-! ### Numbers -/

def isDigit (c : Char) : Bool := '0' ≤ c && c ≤ '9'

/-- The digits at the front of a text, and the rest. -/
def digits (cs : List Char) : List Char × List Char := (cs.takeWhile isDigit, cs.dropWhile isDigit)

def digitsValue (ds : List Char) : Nat := ds.foldl (fun n d => n * 10 + (d.toNat - '0'.toNat)) 0

/-- The fraction after an integer: a point and at least one digit. -/
def fraction (cs : List Char) : List Char × List Char :=
  match cs with
  | '.' :: d :: rest => if isDigit d then digits (d :: rest) else ([], cs)
  | _ => ([], cs)

/-- The exponent of a number: a letter, perhaps a sign, and at least one digit. -/
def exponent? (cs : List Char) : Option (Int × List Char) :=
  match cs with
  | e :: rest =>
    if e = 'e' ∨ e = 'E' then
      let (negative, rest) := match rest with
        | '-' :: r => (true, r)
        | '+' :: r => (false, r)
        | r => (false, r)
      let (ds, rest) := digits rest
      if ds.isEmpty then none
      else some (if negative then -(digitsValue ds : Int) else digitsValue ds, rest)
    else none
  | [] => none

/-- How many digits of an integer are taken. -/
def maxDigits : Nat := 4300

/-- The integer with the given digits, unless there are too many of them. -/
def integer (negative : Bool) (ds : List Char) : Except Stop Scalar :=
  if maxDigits < ds.length then .error (.longInteger ds.length)
  else .ok (.int (if negative then -(digitsValue ds : Int) else digitsValue ds))

/-- The number after an optional sign; `start` is the text from the sign on. What follows the
integer is taken only as far as it completes a fraction or an exponent. -/
def number (start : List Char) (negative : Bool) (cs : List Char) :
    Except Stop (Scalar × List Char) :=
  let (whole, rest) := match cs with
    | '0' :: r => (['0'], r)
    | _ => digits cs
  if whole.isEmpty then .error (.problem .value start)
  else
    let (part, rest) := fraction rest
    match part, exponent? rest with
    | [], none => (integer negative whole).map fun n => (n, rest)
    | part, none =>
      .ok (.float (.ofDecimal negative (digitsValue (whole ++ part)) (-part.length)), rest)
    | part, some (e, rest) =>
      .ok (.float (.ofDecimal negative (digitsValue (whole ++ part)) (e - part.length)), rest)

/-! ### Documents -/

/-- The rest of the text after a word that it begins with. -/
def word? (word : String) (cs : List Char) : Option (List Char) :=
  if word.toList.isPrefixOf cs then some (cs.drop word.length) else none

/-- A number or a word. -/
def plain (cs : List Char) : Except Stop (Value × List Char) :=
  let words : List (String × Scalar) :=
    [("null", .null), ("true", .bool true), ("false", .bool false), ("NaN", .float .nan),
     ("Infinity", .float (.infinite false)), ("-Infinity", .float (.infinite true))]
  match words.findSome? fun w => (word? w.1 cs).map (w.2, ·) with
  | some (s, rest) => .ok (.scalar s, rest)
  | none => do
    let (s, rest) ← match cs with
      | '-' :: rest => number cs true rest
      | _ => number cs false cs
    return (.scalar s, rest)

mutual

/-- One document at the front of a text. -/
def value : Nat → List Char → Except Stop (Value × List Char)
  | 0, cs => .error (.problem .value cs)
  | fuel + 1, cs =>
    match cs with
    | '"' :: _ => do
      let (s, rest) ← text cs
      return (.str s, rest)
    | '[' :: rest =>
      match skipBlanks rest with
      | ']' :: rest => .ok (.arr [], rest)
      | rest => items fuel [] rest
    | '{' :: rest =>
      match skipBlanks rest with
      | '}' :: rest => .ok (.obj [], rest)
      | rest => entries fuel [] rest
    | _ => plain cs

/-- The items of a list, after those already read; there is at least one more. -/
def items : Nat → List Value → List Char → Except Stop (Value × List Char)
  | 0, _, cs => .error (.problem .value cs)
  | fuel + 1, done, cs => do
    let (v, rest) ← value fuel cs
    match skipBlanks rest with
    | ']' :: rest => .ok (.arr (v :: done).reverse, rest)
    | ',' :: rest => items fuel (v :: done) (skipBlanks rest)
    | rest => .error (.problem .comma rest)

/-- The entries of an object, after those already read; there is at least one more. -/
def entries : Nat → List (Scalar × Value) → List Char → Except Stop (Value × List Char)
  | 0, _, cs => .error (.problem .value cs)
  | fuel + 1, done, cs =>
    match cs with
    | '"' :: _ => do
      let (key, rest) ← text cs
      match skipBlanks rest with
      | ':' :: rest =>
        let (v, rest) ← value fuel (skipBlanks rest)
        let done := (Scalar.str key, v) :: done
        match skipBlanks rest with
        | '}' :: rest => .ok (.obj (Table.ofPairs done.reverse), rest)
        | ',' :: rest => entries fuel done (skipBlanks rest)
        | rest => .error (.problem .comma rest)
      | rest => .error (.problem .colon rest)
    | _ => .error (.problem .propertyName cs)

end

/-- The document that makes up a whole text. -/
def document (cs : List Char) : Except Stop Value :=
  match cs with
  | '\uFEFF' :: _ => .error (.problem .byteOrderMark cs)
  | _ => do
    let (v, rest) ← value (2 * cs.length + 1) (skipBlanks cs)
    match skipBlanks rest with
    | [] => .ok v
    | rest => .error (.problem .extraData rest)

/-- **Reads a document.** -/
def parse (source : String) : Except Refusal Value :=
  let cs := source.toList
  match document cs with
  | .ok v => .ok v
  | .error (.problem problem rest) =>
    .error (.flaw ⟨problem, .after (cs.take (cs.length - rest.length))⟩)
  | .error (.longInteger digits) => .error (.longInteger digits)

end ComponentSpec.Json
