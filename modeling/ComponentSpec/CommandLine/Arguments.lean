import ComponentSpec.CommandLine.Words

/-!
# Arguments

The words of a command line are consumed from left to right, plain words by the one argument that is
expected, options by themselves. The argument is consumed as soon as a plain word is met, and only
once: a file, files, or a command with all the words after it, which are read by the grammar of that
command. Words that nothing consumes make the command line wrong, but a request for help that is met
on the way is granted first.

* `Arity` — how many words an argument takes;
* `Chain`, `Written.chain?` — the options that one word stands for;
* `Scan`, `scan` — the options and the argument of a command line;
* `Invocation` — what a command line asks for;
* `Invocation.parse` — reading it.
-/

namespace ComponentSpec.CommandLine

/-- How many words an argument takes. -/
inductive Arity where
  | optional
  | several
  /-- A command and every word after it. -/
  | command
deriving DecidableEq

/-- Why a command line asks for nothing. -/
inductive Refusal where
  | usage
  | help
deriving DecidableEq

/-- **What has been consumed:** the options in order, the words of the argument once it is met, and
whether a word was left over. -/
structure Scan where
  options : List (OptionKey × String)
  argument : Option (List String)
  leftover : Bool
deriving DecidableEq

def Scan.empty : Scan := ⟨[], none, false⟩

def Word.isOption (w : Word) : Bool :=
  match w.kind with
  | .option _ | .unknown => true
  | _ => false

def Word.isSeparator (w : Word) : Bool := w.kind == .separator

def Word.isPlain (w : Word) : Bool := w.kind == .plain

/-- How many of the words an argument takes, if it can take any number of them. -/
def Arity.span (arity : Arity) (words : List Word) : Option Nat :=
  let front := (words.takeWhile Word.isSeparator).length
  let rest := words.drop front
  let plain := match rest with
    | w :: _ => w.isPlain
    | [] => false
  match arity with
  | .optional =>
    let taken := if plain then 1 else 0
    some (front + taken + ((rest.drop taken).takeWhile Word.isSeparator).length)
  | .several =>
    if plain then some (front + (rest.takeWhile fun w => !w.isOption).length) else none
  | .command => if plain then some words.length else none

/-- The words of an argument. The first separator is not one of them, except for a command. -/
def Arity.texts (arity : Arity) (words : List Word) : List String :=
  let texts := words.map Word.text
  match arity with
  | .command => texts
  | _ => texts.erase "--"

/-- Consumes the argument at the front of the words, if it is still expected; the number of words
that it takes. -/
def takeArgument (arity : Arity) (s : Scan) (words : List Word) : Scan × Nat :=
  match s.argument, arity.span words with
  | none, some n => ({ s with argument := some (arity.texts (words.take n)) }, n)
  | _, _ => (s, 0)

/-- The options of one word: those without a value, and a last one with what the word has left for
its value. -/
structure Chain where
  flags : List OptionKey
  last : OptionKey
  value : Option (List Char)
deriving DecidableEq

/-- The short options that follow one letter by letter, until one takes the rest of the word for its
value; nothing if a letter is no option. -/
def shortOptions (g : Grammar) (key : OptionKey) : List Char → Option Chain
  | [] => some ⟨[], key, none⟩
  | c :: cs =>
    if key.takesValue then some ⟨[], key, some (c :: cs)⟩
    else do
      let chain ← shortOptions g (← g.find? (String.ofList ['-', c])) cs
      return { chain with flags := key :: chain.flags }

/-- **The options of a word.** A short option that takes no value may be followed by others; a long
one, or one with an empty value, may not. -/
def Written.chain? (g : Grammar) (w : Written) : Option Chain :=
  match w.value with
  | none => some ⟨[], w.key, none⟩
  | some value =>
    if w.key.takesValue then some ⟨[], w.key, some value⟩
    else if w.long || value.isEmpty then none
    else shortOptions g w.key value

/-- The value of the last option of a word, given the words after it; whether it is the first of
those. -/
def Chain.value? (chain : Chain) (rest : List Word) : Option (String × Bool) :=
  match chain.last.takesValue, chain.value, rest with
  | true, some value, _ => some (String.ofList value, false)
  | true, none, next :: _ => if next.isPlain then some (next.text, true) else none
  | true, none, [] => none
  | false, _, _ => some ("", false)

/-- Consumes the options of a word, given the words after it; whether the first of them is consumed
too. A word that is wrong anywhere grants nothing, not even the help that it asks for. -/
def takeOption (g : Grammar) (w : Written) (s : Scan) (rest : List Word) :
    Except Refusal (Scan × Bool) := do
  let some chain := w.chain? g | throw .usage
  let some (value, took) := chain.value? rest | throw .usage
  if chain.flags.contains .help || chain.last == .help then throw .help
  let options := chain.flags.map (·, "") ++ [(chain.last, value)]
  return ({ s with options := s.options ++ options }, took)

/-- Consumes words until none is left. Every round consumes at least one. -/
def scanWords (g : Grammar) (arity : Arity) : Nat → Scan → List Word → Except Refusal Scan
  | 0, s, _ => .ok s
  | fuel + 1, s, words =>
    match words.dropWhile fun w => !w.isOption with
    | [] =>
      let (s, n) := takeArgument arity s words
      .ok { s with leftover := s.leftover || n < words.length }
    | w :: rest =>
      let before := words.length - (rest.length + 1)
      let (s, n) := if before = 0 then (s, 0) else takeArgument arity s words
      if 0 < n then scanWords g arity fuel s (words.drop n)
      else
        let s := { s with leftover := s.leftover || 0 < before }
        match w.kind with
        | .option written => do
          let (s, took) ← takeOption g written s rest
          scanWords g arity fuel s (if took then rest.drop 1 else rest)
        | _ => scanWords g arity fuel { s with leftover := true } rest

/-- **The options and the argument of a command line.** -/
def scan (g : Grammar) (arity : Arity) (texts : List String) : Except Refusal Scan :=
  match classify g texts with
  | none => .error .usage
  | some words => scanWords g arity (words.length + 1) .empty words

/-- The last value that an option was given. A double hyphen takes back what was given before. -/
def Scan.value? (s : Scan) (key : OptionKey) : Option String :=
  match s.options.reverse.find? fun o => o.1 == key with
  | some (_, value) => if value = "--" then none else some value
  | none => none

def Scan.has (s : Scan) (key : OptionKey) : Bool := s.options.any fun o => o.1 == key

/-! ### Invocations -/

/-- The commands. -/
inductive Command where
  | build (file : String) (output : Option String) (raw : Bool)
  | combine (sources : List String) (output platform : Option String)
  | check (files : List String)
deriving DecidableEq

/-- **What a command line asks for.** -/
structure Invocation where
  verbose : Bool
  config : Option String
  command : Option Command
deriving DecidableEq

def mainGrammar : Grammar :=
  [("-h", .help), ("--help", .help), ("--verbose", .verbose), ("--config", .config)]

def buildGrammar : Grammar :=
  [("-h", .help), ("--help", .help), ("-o", .output), ("--output", .output), ("--raw", .raw)]

def combineGrammar : Grammar :=
  [("-h", .help), ("--help", .help), ("-o", .output), ("--output", .output),
   ("--platform", .platform)]

def checkGrammar : Grammar := [("-h", .help), ("--help", .help)]

/-- The words of an argument that has to be there. -/
def Scan.required (s : Scan) : Except Refusal (List String) :=
  match s.argument with
  | some words => .ok words
  | none => .error .usage

/-- A command and whether a word was left over; the words after it are read by its grammar. -/
def Command.parse (name : String) (texts : List String) : Except Refusal (Command × Bool) := do
  if name = "build" then
    let s ← scan buildGrammar .optional texts
    let file := ((s.argument.getD []).head?).getD "-"
    return (.build file (s.value? .output) (s.has .raw), s.leftover)
  else if name = "combine" then
    let s ← scan combineGrammar .several texts
    return (.combine (← s.required) (s.value? .output) (s.value? .platform), s.leftover)
  else if name = "check" then
    let s ← scan checkGrammar .several texts
    return (.check (← s.required), s.leftover)
  else throw .usage

/-- **What a command line asks for,** or why it asks for nothing. -/
def Invocation.parse (texts : List String) : Except Refusal Invocation := do
  let s ← scan mainGrammar .command texts
  let command ← match s.argument with
    | some (name :: rest) => some <$> Command.parse name rest
    | _ => pure none
  if s.leftover || (command.map Prod.snd).getD false then throw .usage
  return ⟨s.has .verbose, s.value? .config, command.map Prod.fst⟩

end ComponentSpec.CommandLine
