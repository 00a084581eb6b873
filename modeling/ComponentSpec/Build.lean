import ComponentSpec.Disk.Search
import ComponentSpec.Library
import ComponentSpec.Settings

/-!
# From files to schemas and libraries

A spec file is read, its root checked, and its schema assembled, as far as the stack takes it; a
report that leaves this level names the file. Several files make a library, one module each. On the
way notes are taken of what is found; they are kept when the work fails.

* `readTree`, `loadTree` — the syntax tree in a text or a file;
* `Noted` — an outcome and the notes taken;
* `buildSchema` — the schema of a file;
* `buildLibrary` — the library of several files.
-/

namespace ComponentSpec

/-! ### Reading trees -/

/-- **The syntax tree in a text,** which is reported under a file's name. -/
def readTree (disk : Disk) (file source : String) : Checked Value :=
  match disk.parse source with
  | .ok tree =>
    if tree.hasTagIn ["File", "Program"] then .ok tree else .error (.inFile .rootKind file)
  | .error (.json flaw) => .error (.inFile (.notJson flaw) file)
  | .error f => .error f

/-- **The syntax tree of a file,** or in a text that takes its place. -/
def loadTree (disk : Disk) (file : String) (source : Option String) : Checked Value :=
  match source with
  | some text => readTree disk file text
  | none =>
    match disk.readText file with
    | .ok text => readTree disk file text
    | .error (.utf8 flaw) => .error (.inFile (.notUtf8 flaw) file)
    | .error f => .error f

/-! ### Notes -/

/-- **An outcome and the notes taken on the way to it.** -/
structure Noted (α : Type) where
  notes : List String
  outcome : Checked α

/-- A count of things. -/
def counted (n : Nat) (things : String) : String := toString n ++ " " ++ things

/-- The counts of a component's facets. -/
def ComponentSchema.facetCounts (s : ComponentSchema) : String :=
  counted s.props.length "props" ++ ", " ++ counted s.events.length "events" ++ ", "
    ++ counted s.commands.length "commands"

/-- What is noted of a schema. -/
def ComponentSchema.notes (s : ComponentSchema) : List String :=
  let found := "Found component " ++ Text.printed s.name ++ ": " ++ s.facetCounts
    ++ if s.state.isSome then ", with state" else ""
  let inherited := Text.printed (", ".intercalate (s.inherited.map InheritedGroup.typeName))
  found :: if s.inherited.isEmpty then [] else ["Extends: " ++ inherited]

/-! ### Building -/

/-- The schema of a tree; reports name the file. -/
def schemaOfTree (disk : Disk) (file : String) (tree : Value) : Checked ComponentSchema :=
  if disk.system.assembles tree then (componentSchema tree).mapError (Fault.locatedIn file)
  else .error .stack

/-- **The schema of a file,** or of a text that takes its place. -/
def buildSchema (disk : Disk) (file : String) (source : Option String) : Noted ComponentSchema :=
  let outcome := loadTree disk file source >>= schemaOfTree disk file
  let found := match outcome with
    | .ok schema => schema.notes
    | .error _ => []
  ⟨("Loading AST: " ++ file) :: found, outcome⟩

/-- The libraries of single files, up to the first that fails. -/
def buildModules (disk : Disk) : List String → Noted (List Value)
  | [] => ⟨[], .ok []⟩
  | file :: files =>
    let built := buildSchema disk file none
    match built.outcome >>= fun schema => schema.toRecord.wrap .null with
    | .error f => ⟨built.notes, .error f⟩
    | .ok library =>
      let rest := buildModules disk files
      ⟨built.notes ++ rest.notes, (library :: ·) <$> rest.outcome⟩

/-- The number of modules of a library. -/
def moduleCount (library : Value) : Nat :=
  match library.get "modules" with
  | .obj modules => modules.length
  | _ => 0

/-- **The library of several files,** reduced to a platform if one is named. -/
def buildLibrary (disk : Disk) (files : List String) (platform : Option String) : Noted Value :=
  let built := buildModules disk files
  match built.outcome >>= Library.combine, platform.filter fun p => !p.isEmpty with
  | .error f, _ => ⟨built.notes, .error f⟩
  | .ok library, none => ⟨built.notes, .ok library⟩
  | .ok library, some platform =>
    match Library.forPlatform library (.str platform) with
    | .error f => ⟨built.notes, .error f⟩
    | .ok kept =>
      let note := "Platform " ++ Text.printed platform ++ ": kept " ++ toString (moduleCount kept)
        ++ " of " ++ toString (moduleCount library) ++ " modules"
      ⟨built.notes ++ [note], .ok kept⟩

end ComponentSpec
