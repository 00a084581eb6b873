import ComponentSpec.Text.Digit

/-!
# Words of a command line

A command line is a list of words. A word that begins with a hyphen may be an option: one of those
that are known, by its whole name or by the beginning of a long one, with a value after `=`, or
after the letter of a short one. A word that looks like an option and is none is kept as unknown. A
lone hyphen, a negative number and a word with a blank in it are plain words, and so is every word
after a double hyphen.

* `Grammar` — the options that are known;
* `Word` — a word, and what it is;
* `classify` — what the words of a command line are.
-/

namespace ComponentSpec.CommandLine

/-- The options. -/
inductive OptionKey where
  | help
  | verbose
  | config
  | output
  | raw
  | platform
deriving DecidableEq

/-- Whether an option takes a value. -/
def OptionKey.takesValue : OptionKey → Bool
  | .config | .output | .platform => true
  | .help | .verbose | .raw => false

/-- The names of the options that are known. -/
abbrev Grammar := List (String × OptionKey)

def Grammar.find? (g : Grammar) (name : String) : Option OptionKey := g.lookup name

/-- An option as it is written: its name, whether that is a long one, and what the same word says
after it, with or without `=`. -/
structure Written where
  key : OptionKey
  long : Bool
  value : Option (List Char)
deriving DecidableEq

/-- What a word is. -/
inductive Kind where
  | plain
  | separator
  | option (w : Written)
  | unknown
deriving DecidableEq

/-- A word, and what it is. -/
structure Word where
  text : String
  kind : Kind
deriving DecidableEq

/-- What stands before the first `=`, and what stands after it. -/
def splitValue (cs : List Char) : List Char × Option (List Char) :=
  match cs.dropWhile (· ≠ '=') with
  | _ :: value => (cs.takeWhile (· ≠ '='), some value)
  | [] => (cs, none)

def isLong (cs : List Char) : Bool := cs.take 2 == ['-', '-']

/-- A text without the line feed at its end, if it has one there. -/
def withoutLineFeed (cs : List Char) : List Char :=
  if cs.getLast? = some '\n' then cs.dropLast else cs

/-- Whether a word reads as a negative number: a hyphen and digits of any script, perhaps with a
point before the last of them. A line feed may end it. -/
def isNegativeNumber (cs : List Char) : Bool :=
  match withoutLineFeed cs with
  | '-' :: body =>
    let whole := body.takeWhile Text.isDecimalDigit
    match body.dropWhile Text.isDecimalDigit with
    | [] => !whole.isEmpty
    | '.' :: fraction => !fraction.isEmpty && fraction.all Text.isDecimalDigit
    | _ => false
  | _ => false

/-- The options that a word can stand for which is no whole name: long ones that it begins, or the
short one of its first letter, with the rest as its value. -/
def readings (g : Grammar) (cs : List Char) : List Written :=
  if isLong cs then
    let (start, value) := splitValue cs
    g.filterMap fun (name, key) =>
      if start.isPrefixOf name.toList then some ⟨key, true, value⟩ else none
  else
    g.filterMap fun (name, key) =>
      if name.toList = cs.take 2 then some ⟨key, false, some (cs.drop 2)⟩ else none

/-- **What a word is;** nothing if it can be more than one option. -/
def classifyWord (g : Grammar) (text : String) : Option Kind :=
  let cs := text.toList
  let (name, value) := splitValue cs
  if cs.head? ≠ some '-' then some .plain
  else match g.find? text with
    | some key => some (.option ⟨key, isLong cs, none⟩)
    | none =>
      if cs.length = 1 then some .plain
      else match value, g.find? (String.ofList name) with
        | some value, some key => some (.option ⟨key, isLong cs, some value⟩)
        | _, _ =>
          match readings g cs with
          | [w] => some (.option w)
          | _ :: _ :: _ => none
          | [] => some (if isNegativeNumber cs || cs.contains ' ' then .plain else .unknown)

/-- **What the words of a command line are;** nothing if one of them can be more than one option. -/
def classify (g : Grammar) : List String → Option (List Word)
  | [] => some []
  | text :: texts =>
    if text = "--" then some (⟨text, .separator⟩ :: texts.map (⟨·, .plain⟩))
    else do
      let kind ← classifyWord g text
      return ⟨text, kind⟩ :: (← classify g texts)

end ComponentSpec.CommandLine
