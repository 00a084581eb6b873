import ComponentSpec.Build
import ComponentSpec.CommandLine.Arguments
import ComponentSpec.Json.Writer

/-!
# Running a command line

A run takes the words of a command line, the standard input and a disk, and gives what is printed,
how the run ends and the disk after it. `build` gives the schema of one file, `combine` the library
of several, `check` a line for each file. Reports of the program's own make a run end with status 1;
a fault that no command expects makes it crash.

The words, the standard input and the paths on a disk are texts of characters. A name in a document
can hold half of a pair besides. Among the errors it is shown by its code; in a line of `check` it
is printed as it is, where the system can do that.

* `Ending`, `Outcome` — how a run ends, and what it leaves;
* `build`, `combine`, `check` — the commands;
* `run` — a whole run.
-/

namespace ComponentSpec.CommandLine

/-! ### Outcomes -/

/-- How a run ends: with a status, or by a fault that nothing expects. -/
inductive Ending where
  | exit (status : Nat)
  | crash (fault : Fault)
deriving Inhabited

/-- **What a run leaves.** -/
structure Outcome where
  ending : Ending
  /-- What is printed, held as the texts of documents are. -/
  stdout : String
  stderr : String
  disk : Disk

/-- A line of text. -/
def line (s : String) : String := s ++ "\n"

def infoLine (s : String) : String := line ("\x1b[92m\x1b[1mINFO:\x1b[0m " ++ s)

def debugLine (s : String) : String := line ("\x1b[94mDEBUG:\x1b[0m " ++ s)

/-- The notes, where they are asked for. -/
def noteLines (verbose : Bool) (notes : List String) : String :=
  if verbose then String.join (notes.map debugLine) else ""

/-- The end of a run that reports an error. -/
def failed (disk : Disk) (stderr message : String) : Outcome :=
  ⟨.exit 1, "", stderr ++ line ("Error: " ++ message), disk⟩

def crashed (disk : Disk) (stderr : String) (fault : Fault) : Outcome :=
  ⟨.crash fault, "", stderr, disk⟩

/-! ### Output -/

/-- Why nothing can be written with an indentation: sizes are counted in words of 64 bits, one of
them for the sign, and a line does not hold more than 2 ^ 32 blanks. -/
def indentFault? (indent : Int) : Option Fault :=
  if indent < -Int.pow 2 63 ∨ Int.pow 2 63 ≤ indent then some .overflow
  else if Int.pow 2 32 < indent then some .exhausted
  else none

/-- The disk with a file written, and the directories above it; or what went wrong, and the disk as
it is then. -/
def writeFile (disk : Disk) (path text : String) : Except (DiskError × Disk) Disk :=
  let above := Path.head path
  let (made, failure) := if above.isEmpty then (disk, none) else disk.makeDirectories above
  match failure with
  | some e => .error (e, made)
  | none =>
    match made.write path (Utf8.encode text) with
    | .ok written => .ok written
    | .error e => .error (e, made)

/-- **The end of a run that gives a document,** printed or written to a file. -/
def deliver (disk : Disk) (stderr : String) (settings : Settings) (output : Option String)
    (document : Value) : Outcome :=
  match indentFault? settings.indent with
  | some fault => crashed disk stderr fault
  | none =>
    let text := line (Json.write settings.indent document)
    match output.filter fun path => !path.isEmpty with
    | none => ⟨.exit 0, text, stderr, disk⟩
    | some path =>
      match writeFile disk path text with
      | .ok written => ⟨.exit 0, "", stderr ++ infoLine ("Schema written to " ++ path), written⟩
      | .error (e, made) => crashed made stderr (.disk e)

/-- The end of a run whose extraction fails: reports are told, other faults are not expected. -/
def extractionFailed (disk : Disk) (stderr : String) : Fault → Outcome
  | .report r => failed disk stderr ("Schema extraction failed:\n" ++ Text.printed r.text)
  | fault => crashed disk stderr fault

/-! ### Commands -/

/-- **Builds the schema of one file,** or of the standard input. -/
def build (disk : Disk) (stdin : String) (verbose : Bool) (settings : Settings) (file : String)
    (output : Option String) (raw : Bool) : Outcome :=
  let fromInput := file = "-"
  if !fromInput && !disk.holds file then failed disk "" ("File '" ++ file ++ "' not found.")
  else
    let built :=
      if fromInput then buildSchema disk "<stdin>" (some stdin) else buildSchema disk file none
    let stderr := noteLines verbose built.notes
    let document := built.outcome >>= fun schema =>
      if raw then .ok schema.toRecord.toValue else schema.toRecord.wrap .null
    match document with
    | .ok document => deliver disk stderr settings output document
    | .error fault => extractionFailed disk stderr fault

/-- The characters of a pattern for names. Half of a pair is in no name, and neither is the null
character that takes its place. -/
def namePattern (s : String) : String :=
  String.ofList ((Text.codes s).map fun code =>
    if Text.isHalf code then '\x00' else Char.ofNat code)

/-- The files of all sources, or the first source that has none. -/
def collectAll (disk : Disk) (pattern : String) : List String → Except String (List String)
  | [] => .ok []
  | source :: sources =>
    match disk.collect source pattern with
    | none => .error source
    | some files => (files ++ ·) <$> collectAll disk pattern sources

def noSourceMessage (source : String) : String :=
  "'" ++ source ++ "' is neither a file nor directory"

/-- **Combines files into one library.** -/
def combine (disk : Disk) (verbose : Bool) (settings : Settings) (sources : List String)
    (output platform : Option String) : Outcome :=
  match collectAll disk (namePattern settings.pattern) sources with
  | .error source => failed disk "" (noSourceMessage source)
  | .ok [] =>
    failed disk "" ("No AST files matching '" ++ Text.printed settings.pattern ++ "' found")
  | .ok files =>
    let named (p : Option String) : Option String := p.filter fun p => !p.isEmpty
    let platform := (named platform).map Text.hold <|> named settings.platform
    let target := match platform with
      | some p => " for " ++ Text.printed p
      | none => ""
    let start := infoLine ("Combining " ++ toString files.length ++ " file(s)" ++ target ++ "...")
    let built := buildLibrary disk files platform
    let stderr := start ++ noteLines verbose built.notes
    match built.outcome with
    | .ok library => deliver disk stderr settings output library
    | .error fault => extractionFailed disk stderr fault

/-- What `check` says of a fault: reports and failures of the disk are told, and only these. -/
def checkMessage? : Fault → Option String
  | .report r => some (Text.printed r.text)
  | .disk e => if e.cause = .unnameable then none else some e.message
  | _ => none

/-- What `check` says of a schema, if the system prints the name of the component. Nothing else in
the line can hold half of a pair, the path of the file neither (`Text.hasHalf_hold`). -/
def summary (disk : Disk) (file : String) (schema : ComponentSchema) : Checked String :=
  if disk.system.refuses schema.name then .error (.unprintable schema.name)
  else .ok ("✓ " ++ Text.hold file ++ ": " ++ schema.name ++ " (" ++ schema.facetCounts
    ++ (if schema.state.isSome then ", state" else "") ++ ")")

/-- **Checks files,** one line for each. Every file is looked at, unless a fault is met that is not
expected. -/
def check (disk : Disk) (verbose : Bool) (files : List String) : Outcome :=
  go files false "" ""
where
  go : List String → Bool → String → String → Outcome
    | [], failures, out, err => ⟨.exit (if failures then 1 else 0), out, err, disk⟩
    | file :: files, failures, out, err =>
      let built := buildSchema disk file none
      let err := err ++ noteLines verbose built.notes
      match built.outcome >>= summary disk file with
      | .ok text => go files failures (out ++ line text) err
      | .error fault =>
        match checkMessage? fault with
        | some message => go files true out (err ++ line ("✗ " ++ file ++ ": " ++ message))
        | none => ⟨.crash fault, out, err, disk⟩

/-! ### The run -/

def helpText : String :=
  "usage: component-spec [-h] [--verbose] [--config CONFIG] \x7bbuild,combine,check\x7d ...\n"

/-- What is wrong with a field, in a word. -/
def fieldProblemName : FieldProblem → String
  | .missing => "missing"
  | .noText => "no text"
  | .noList => "no list"
  | .noTable | .noRecord => "no object"
  | .noInteger | .unreadableInteger | .fraction | .infinite => "no integer"
  | .noCharacters => "no characters"
  | .tooLarge => "too large"

/-- The text of invalid settings. -/
def invalidText (problems : List Invalid) : String :=
  let step : String ⊕ Nat → String
    | .inl name => name
    | .inr n => toString n
  let count := toString problems.length ++ " validation error"
    ++ (if problems.length = 1 then "" else "s") ++ " for GeneratorConfig"
  "\n".intercalate (count :: problems.map fun p =>
    ".".intercalate (p.path.map step) ++ ": " ++ fieldProblemName p.problem)

/-- The text of a flaw in a JSON file. -/
def jsonText (flaw : Json.Flaw) : String :=
  flaw.problem.message ++ ": line " ++ toString flaw.position.line ++ " column "
    ++ toString flaw.position.column ++ " (char " ++ toString flaw.position.offset ++ ")"

/-- The text of a fault. -/
def faultText : Fault → String
  | .report r => Text.printed r.text
  | .misfit _ => "The document is not laid out as it has to be"
  | .invalid problems => invalidText problems
  | .json flaw => jsonText flaw
  | .longInteger digits =>
    "Exceeds the limit (" ++ toString Json.maxDigits ++ " digits) for integer string conversion: "
      ++ "value has " ++ toString digits ++ " digits; "
      ++ "use sys.set_int_max_str_digits() to increase the limit"
  | .utf8 flaw => flaw.message
  | .disk e => e.message
  | .unprintable text => "Half of a pair cannot be printed: " ++ Text.quoted text
  | .noSource source => noSourceMessage source
  | .endless => "The description of a type has no end"
  | .stack => "The stack gives out"
  | .overflow | .exhausted => "The indentation is too large"

/-- What is said of settings that cannot be read. -/
def settingsMessage? (fault : Fault) : Option String :=
  match fault with
  | .disk _ | .json _ | .longInteger _ | .utf8 _ | .invalid _ => some (faultText fault)
  | _ => none

/-- Runs a command with the settings that hold for it. -/
def runCommand (disk : Disk) (stdin : String) (verbose : Bool) (settings : Settings) :
    Option Command → Outcome
  | none => ⟨.exit 0, helpText, "", disk⟩
  | some (.build file output raw) => build disk stdin verbose settings file output raw
  | some (.combine sources output platform) =>
    combine disk verbose settings sources output platform
  | some (.check files) => check disk verbose files

/-- **A whole run.** The command line is read first, then the settings, and then the command is
run. -/
def run (disk : Disk) (stdin : String) (words : List String) : Outcome :=
  match Invocation.parse words with
  | .error .usage => ⟨.exit 2, "", helpText, disk⟩
  | .error .help => ⟨.exit 0, helpText, "", disk⟩
  | .ok invocation =>
    match Settings.load disk invocation.config with
    | .ok settings => runCommand disk stdin invocation.verbose settings invocation.command
    | .error fault =>
      match settingsMessage? fault with
      | some message => failed disk "" ("Invalid config: " ++ message)
      | none => crashed disk "" fault

end ComponentSpec.CommandLine
