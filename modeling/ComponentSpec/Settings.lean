import ComponentSpec.Fault
import ComponentSpec.Text.Blank
import ComponentSpec.Text.Lines

/-!
# Settings

The settings of the command line: which files of a directory are taken, how far the output is
indented, and the platform. They stand in a JSON file, which is looked for under a given path, or
else in the working directory and then in the home directory; without one there are standard
settings. Fields that are not settings are passed over.

* `Settings` — the settings;
* `integer?` — the integer that a field stands for, if its value can be taken for one;
* `Settings.ofValue` — the settings in a document;
* `Settings.load` — the settings that hold for a disk.
-/

namespace ComponentSpec

/-- **The settings of the command line.** -/
structure Settings where
  /-- The pattern for the names of files in a directory. -/
  pattern : String
  indent : Int
  platform : Option String
deriving DecidableEq

def Settings.standard : Settings := ⟨"*NativeComponent*.json", 2, none⟩

/-! ### Integers in a document -/

/-- The digits of a text in which single underscores may stand before them and between them. -/
def groupedDigits? (cs : List Char) : Option (List Char) :=
  let digits := cs.filter (· ≠ '_')
  let doubled := (cs.zip (cs.drop 1)).any fun p => p.1 = '_' && p.2 = '_'
  if digits.isEmpty || !digits.all Json.isDigit || doubled || cs.getLast? = some '_' then none
  else some digits

/-- The number that digits without a sign spell. Zeros that begin it do not count, and neither do
the underscores after them. -/
def unsignedNumber? (cs : List Char) : Option Nat :=
  let counted := if cs.head? = some '0' then cs.dropWhile fun c => c = '0' || c = '_' else cs
  if counted.isEmpty then
    if cs.getLast? = some '0' then some 0 else none
  else if counted.head? = some '_' then none
  else (groupedDigits? counted).map Json.digitsValue

/-- The number that the digits after a minus sign spell; they do not begin with a needless zero. -/
def negatedNumber? (cs : List Char) : Option Nat :=
  match groupedDigits? cs with
  | some ['0'] => some 0
  | some digits => if digits.head? = some '0' then none else some (Json.digitsValue digits)
  | none => none

/-- The integer that a text spells: digits after an optional sign, and perhaps a point with nothing
but zeros after it. Blanks around it do not count. -/
def textInteger? (s : String) : Option Int :=
  let trimmed := ((s.toList.dropWhile Text.isBlank).reverse.dropWhile Text.isBlank).reverse
  let whole := trimmed.takeWhile (· ≠ '.')
  let fraction := (trimmed.dropWhile (· ≠ '.')).drop 1
  if fraction.all (· = '0') then
    match whole with
    | '-' :: cs => (negatedNumber? cs).map fun n => -(n : Int)
    | '+' :: cs => (unsignedNumber? cs).map Int.ofNat
    | cs => (unsignedNumber? cs).map Int.ofNat
  else none

/-- **The integer that a value stands for:** a truth value, a number without a fraction, or a text
that spells one. -/
def integer? : Value → Except FieldProblem Int
  | .bool b => .ok (if b then 1 else 0)
  | .int n => .ok n
  | .float x => match x with
    | .finite .. => match x.toInt? with
      | some n => if -Int.pow 2 63 < n ∧ n < Int.pow 2 63 then .ok n else .error .tooLarge
      | none => .error .fraction
    | _ => .error .infinite
  | .str s =>
    if Text.hasHalf s then .error .noCharacters
    else match textInteger? s with
      | some n => .ok n
      | none => .error .unreadableInteger
  | _ => .error .noInteger

namespace Settings

/-- **The settings in a document.** -/
def ofValue (v : Value) : Checked Settings :=
  match v with
  | .obj entries =>
    let field (key : String) : Option Value := Table.find? entries key
    let (pattern, e₁) : String × List Invalid := match field "include" with
      | none => (standard.pattern, [])
      | some (.str s) => (s, [])
      | some _ => (standard.pattern, [⟨[.inl "include"], .noText⟩])
    let (indent, e₂) : Int × List Invalid := match (field "indent").map integer? with
      | none => (standard.indent, [])
      | some (.ok n) => (n, [])
      | some (.error problem) => (standard.indent, [⟨[.inl "indent"], problem⟩])
    let (platform, e₃) : Option String × List Invalid := match field "platform" with
      | none | some .null => (none, [])
      | some (.str s) => (some s, [])
      | some _ => (none, [⟨[.inl "platform"], .noText⟩])
    match e₁ ++ e₂ ++ e₃ with
    | [] => .ok { pattern, indent, platform }
    | problems => .error (.invalid problems)
  | _ => .error (.invalid [⟨[], .noRecord⟩])

end Settings

/-! ### Finding the settings -/

/-- The text of a file, its lines ended by line feeds alone. -/
def Disk.readText (disk : Disk) (path : String) : Checked String :=
  match disk.read path with
  | .error e => .error (.disk e)
  | .ok bytes =>
    match Utf8.decode bytes with
    | .error flaw => .error (.utf8 flaw)
    | .ok text => .ok (String.ofList (Text.unifyLines text.toList))

/-- The document in a text. -/
def Disk.parse (disk : Disk) (text : String) : Checked Value :=
  if disk.system.reads text then
    match Json.parse text with
    | .ok v => .ok v
    | .error (.flaw flaw) => .error (.json flaw)
    | .error (.longInteger digits) => .error (.longInteger digits)
  else .error .stack

namespace Settings

/-- Where the settings are looked for without a given path. -/
def places (disk : Disk) : List String :=
  ["rnschema.json", Path.join disk.home ".rnschema/config.json"]

/-- The file that holds the settings, if there is one. -/
def file? (disk : Disk) (path : Option String) : Option String :=
  match path.filter fun p => !p.isEmpty with
  | some p => some p
  | none => (places disk).find? disk.holds

/-- **The settings that hold for a disk,** looked for under a given path. -/
def load (disk : Disk) (path : Option String) : Checked Settings :=
  match file? disk path with
  | none => .ok standard
  | some file => do
    let text ← disk.readText file
    ofValue (← disk.parse text)

end Settings

end ComponentSpec
