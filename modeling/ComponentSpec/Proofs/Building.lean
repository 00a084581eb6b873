import ComponentSpec.CommandLine.Run
import ComponentSpec.Proofs.Combining
import ComponentSpec.Proofs.Reading
import ComponentSpec.Proofs.Sequence
import ComponentSpec.Proofs.Unfiled
import ComponentSpec.Proofs.Wrapping

/-!
# Building a library

Several files make one library. Each is built and wrapped on its own, and the modules are written
into one table, so a name keeps the place where it first came and holds what came last under it
(`gathers_entries`). The first file that fails ends the work, and nothing after it is looked at
(`buildModules_of_error`). A report says which file that was, since every report that leaves the
assembly is given the name of the file (`filed_of_buildSchema`).

Not every failure is a report. The reader gives a text up where an integer in it is too long or
where the stack ends, and neither says so in the name of a file (`Disk.GivesUp`). A failure to load
a tree is therefore told apart three ways (`loadTree_eq_error`), and one to assemble it two ways
(`schemaOfTree_eq_error`).

* `Library.combine_ofModules` — libraries of known modules, combined;
* `Disk.GivesUp`, `readTree_eq_error` — the texts that are given up, and what else can be wrong with
  a text;
* `Builds`, `Gathers` — a file with its schema, and what is gathered of several schemas;
* `build_eq_deliver` — the build command gives the library of its one file;
* `buildLibrary_gathers` — the library of a list of files, or the fault in its place.
-/

namespace ComponentSpec

open Checked

/-! ### Libraries of one module -/

namespace ComponentSchema

/-- The module of a schema. -/
def module (s : ComponentSchema) : Value := s.toRecord.module (s.options.getD [])

/-- The entry of a schema in a library. -/
def entry (s : ComponentSchema) : Scalar × Value := (.str s.name, s.module)

/-- A schema is wrapped as the library of its one module. -/
theorem wrap_toRecord (s : ComponentSchema) :
    s.toRecord.wrap .null = .ok (Library.ofModules [s.entry]) :=
  @ComponentRecord.wrap_eq s.toRecord s.options rfl none

end ComponentSchema

namespace Library

/-- Libraries of known modules combine as their tables do. -/
theorem combine_ofModules (tables : List (Table Value)) :
    combine (tables.map ofModules) = .ok (ofModules (Table.ofPairs tables.flatten)) :=
  combine_of_holds (forall₂_holds tables)

end Library

variable {disk : Disk} {files : List String} {schemas : List ComponentSchema}
  {platform : Option String}

/-- A file that builds. -/
def Builds (disk : Disk) (file : String) (s : ComponentSchema) : Prop :=
  (buildSchema disk file none).outcome = .ok s

/-- Each of the files that build makes a library of its own. -/
theorem buildModules_of_builds (built : List.Forall₂ (Builds disk) files schemas) :
    (buildModules disk files).outcome =
      .ok (schemas.map fun s => Library.ofModules [s.entry]) := by
  induction built with
  | nil => rfl
  | @cons file s files schemas first _ ih =>
    have first : (buildSchema disk file none).outcome = .ok s := first
    rw [buildModules]
    simp only [first, ok_bind, s.wrap_toRecord, ih, map_ok, List.map_cons]

/-- **The first file that fails** is the last that is read. -/
theorem buildModules_of_error {before after : List String} {file : String} {e : Fault}
    (built : ∀ f ∈ before, ∃ s, Builds disk f s)
    (failed : (buildSchema disk file none).outcome = .error e) :
    (buildModules disk (before ++ file :: after)).outcome = .error e := by
  induction before with
  | nil =>
    rw [List.nil_append, buildModules]
    simp only [failed, error_bind]
  | cons f before ih =>
    obtain ⟨s, first⟩ := built f List.mem_cons_self
    have first : (buildSchema disk f none).outcome = .ok s := first
    have rest := ih fun f hf => built f (List.mem_cons_of_mem _ hf)
    rw [List.cons_append, buildModules]
    simp only [first, ok_bind, s.wrap_toRecord, rest, map_error]

/-- A library is built, combined and reduced. -/
theorem buildLibrary_outcome (disk : Disk) (files : List String) (platform : Option String) :
    (buildLibrary disk files platform).outcome =
      (buildModules disk files).outcome >>= Library.combine >>= fun library =>
        Library.forPlatform library (.str (platform.getD "")) := by
  -- without a platform there is no reduction, and the empty name stands for no platform
  have unreduced (library : Value) : Library.forPlatform library (.str "") = .ok library := rfl
  rw [buildLibrary]
  cases (buildModules disk files).outcome >>= Library.combine with
  | error e => rfl
  | ok library =>
    cases platform with
    | none => rfl
    | some p =>
      by_cases empty : p = ""
      · subst empty
        rfl
      · have named : Option.filter (fun p => !String.isEmpty p) (some p) = some p := by
          simp [Option.filter, empty]
        simp only [named, ok_bind, Option.getD_some]
        cases Library.forPlatform library (.str p) <;> rfl

/-- Where no platform is named, a library is all that is combined. -/
theorem buildLibrary_of_unnamed (disk : Disk) (files : List String)
    (unnamed : ∀ p ∈ platform, p = "") :
    (buildLibrary disk files platform).notes = (buildModules disk files).notes ∧
      (buildLibrary disk files platform).outcome =
        (buildModules disk files).outcome >>= Library.combine := by
  have none : platform.filter (fun p => !p.isEmpty) = none := by
    rw [Option.filter_eq_none_iff]
    intro p hp
    simp [unnamed p hp]
  rw [buildLibrary]
  simp only [none]
  cases (buildModules disk files).outcome >>= Library.combine <;> exact ⟨rfl, rfl⟩

/-- **A text whose reading is given up,** before it is known whether it is a document: it is nested
deeper than the stack goes, or holds an integer that is too long. -/
inductive Disk.GivesUp (disk : Disk) (text : String) : Fault → Prop where
  | stack (deep : disk.system.reads text = false) : GivesUp disk text .stack
  | longInteger {digits : Nat} (taken : disk.system.reads text)
      (refused : Json.parse text = .error (.longInteger digits)) :
      GivesUp disk text (.longInteger digits)

/-- Giving up ends the reading, with the fault it was given up for. -/
theorem Disk.parse_of_givesUp {text : String} {e : Fault} (h : disk.GivesUp text e) :
    disk.parse text = .error e := by
  cases h with
  | stack deep => rw [parse, deep, if_neg Bool.false_ne_true]
  | longInteger taken refused => rw [parse, taken, if_pos rfl, refused]

/-- A text is no document if it is flawed, or if its reading is given up. -/
theorem Disk.parse_eq_error {text : String} {e : Fault} (h : disk.parse text = .error e) :
    (∃ flaw, e = .json flaw) ∨ disk.GivesUp text e := by
  unfold Disk.parse at h
  split at h
  · next taken =>
    split at h <;> cases h
    · exact .inl ⟨_, rfl⟩
    · next refused => exact .inr (.longInteger taken refused)
  · next deep =>
    cases h
    exact .inr (.stack (by simpa using deep))

/-- What is given up is no report, whatever file it is read for. -/
theorem readTree_of_givesUp {text : String} {e : Fault} (h : disk.GivesUp text e) (file : String) :
    readTree disk file text = .error e := by
  rw [readTree, Disk.parse_of_givesUp h]
  cases h <;> rfl

/-- A text is read as a tree if it is a document whose root is that of a syntax tree. -/
theorem readTree_eq_ok {file text : String} {tree : Value} :
    readTree disk file text = .ok tree ↔
      disk.parse text = .ok tree ∧ tree.hasTagIn ["File", "Program"] := by
  cases read : disk.parse text with
  | ok v =>
    simp only [readTree, read, Except.ok.injEq]
    split
    · next root =>
      constructor
      · rintro ⟨⟩
        exact ⟨rfl, root⟩
      · rintro ⟨rfl, -⟩
        rfl
    · next root =>
      constructor
      · intro h
        cases h
      · rintro ⟨rfl, tagged⟩
        exact absurd tagged root
  | error f =>
    constructor
    · intro h
      rw [readTree, read] at h
      cases f <;> cases h
    · rintro ⟨h, -⟩
      cases h

/-- **Why a text is not read as a tree:** it is malformed, and a report says so in the name of the
file, or it is given up. -/
theorem readTree_eq_error {file text : String} {e : Fault}
    (h : readTree disk file text = .error e) :
    (∃ cause, cause.category = .malformed ∧ e = .inFile cause file) ∨ disk.GivesUp text e := by
  cases read : disk.parse text with
  | ok tree =>
    rw [readTree, read] at h
    simp only at h
    split at h <;> cases h
    exact .inl ⟨_, rfl, rfl⟩
  | error f =>
    rcases Disk.parse_eq_error read with ⟨flaw, rfl⟩ | givesUp
    · rw [readTree, read] at h
      cases h
      exact .inl ⟨_, rfl, rfl⟩
    · rw [readTree_of_givesUp givesUp] at h
      cases h
      exact .inr givesUp

/-- The text that a file is built of: one that takes its place, or what the disk holds. -/
def Disk.sourceText (disk : Disk) (file : String) (source : Option String) : Checked String :=
  match source with
  | some text => .ok text
  | none => disk.readText file

/-- Wherever the text is from, it is read in the name of the file. -/
theorem loadTree_of_sourceText {file text : String} {source : Option String}
    (supplied : disk.sourceText file source = .ok text) :
    loadTree disk file source = readTree disk file text := by
  cases source with
  | some text' =>
    cases supplied
    rfl
  | none =>
    have read : disk.readText file = .ok text := supplied
    rw [loadTree, read]

/-- Where a file holds no tree, a report says so in its name, unless its text is given up or the
disk does not give the file. -/
theorem loadTree_eq_error {file : String} {source : Option String} {e : Fault}
    (h : loadTree disk file source = .error e) :
    (∃ cause, cause.category = .malformed ∧ e = .inFile cause file) ∨
      (∃ text, disk.sourceText file source = .ok text ∧ disk.GivesUp text e) ∨
      source = none ∧ ∃ d, disk.read file = .error d ∧ e = .disk d := by
  cases supplied : disk.sourceText file source with
  | ok text =>
    rw [loadTree_of_sourceText supplied] at h
    rcases readTree_eq_error h with malformed | givesUp
    · exact .inl malformed
    · exact .inr (.inl ⟨text, rfl, givesUp⟩)
  | error f =>
    cases source with
    | some text => cases supplied
    | none =>
      have failed : disk.readText file = .error f := supplied
      rw [loadTree, failed] at h
      unfold Disk.readText at failed
      split at failed
      · next d unread =>
        cases failed
        cases h
        exact .inr (.inr ⟨rfl, d, unread, rfl⟩)
      · split at failed <;> cases failed
        cases h
        exact .inl ⟨_, rfl, rfl⟩

theorem schemaOfTree_eq_ok {file : String} {tree : Value} {s : ComponentSchema} :
    schemaOfTree disk file tree = .ok s ↔
      disk.system.assembles tree ∧ componentSchema tree = .ok s := by
  rw [schemaOfTree]
  cases disk.system.assembles tree <;> cases componentSchema tree <;> simp [Except.mapError]

/-- A tree makes no schema if the stack does not take it, or if its assembly fails. -/
theorem schemaOfTree_eq_error {file : String} {tree : Value} {e : Fault} :
    schemaOfTree disk file tree = .error e ↔ disk.system.assembles tree = false ∧ e = .stack ∨
      disk.system.assembles tree ∧ ∃ f, componentSchema tree = .error f ∧ e = f.locatedIn file := by
  rw [schemaOfTree]
  cases disk.system.assembles tree <;> cases componentSchema tree <;>
    simp [Except.mapError, eq_comm]

/-- **A report of a file names the file,** and has the place of its node. -/
theorem filed_of_buildSchema {file : String} {source : Option String} {r : Report}
    (h : (buildSchema disk file source).outcome = .error (.report r)) :
    r.file = some file ∧ Place.ofNode r.node = .ok r.place := by
  -- the reader names the file itself, and a report of the assembly is given its name
  rcases bind_eq_error.1 h with unread | ⟨tree, -, failed⟩
  · rcases loadTree_eq_error unread with ⟨cause, -, same⟩ | ⟨text, -, givesUp⟩ | ⟨-, d, -, same⟩
    · cases same
      exact ⟨rfl, rfl⟩
    · cases givesUp
    · cases same
  · rcases schemaOfTree_eq_error.1 failed with ⟨-, same⟩ | ⟨-, e, found, same⟩
    · cases same
    · have unfiled := unfiled_componentSchema tree e found
      cases e with
      | report r' =>
        have unnamed : r'.file.isNone := by simpa using (not_or.1 unfiled).1
        rw [Fault.locatedIn, if_pos unnamed] at same
        cases same
        exact ⟨rfl, not_not.1 (not_or.1 unfiled).2⟩
      | _ => cases same

/-- **The modules of several schemas:** one for each name, in the order in which the names first
came, and under each name the module of the last schema that has it. -/
structure Gathers (schemas : List ComponentSchema) (modules : Table Value) : Prop where
  names : modules.keys = (schemas.map ComponentSchema.name).eraseDups.map .str
  last : ∀ before s after, schemas = before ++ s :: after → (∀ t ∈ after, t.name ≠ s.name) →
    ∃ module, s.toRecord.wrap .null = .ok (Library.ofModules [(.str s.name, module)]) ∧
      modules.find? s.name = some module

theorem gathers_entries (schemas : List ComponentSchema) :
    Gathers schemas (Table.ofPairs (schemas.map ComponentSchema.entry)) := by
  constructor
  · have keys := Table.keys_ofPairs_text (schemas.map fun s => (s.name, s.module))
    rw [List.map_map, List.map_map] at keys
    exact keys
  · rintro before s after rfl others
    refine ⟨s.module, s.wrap_toRecord, ?_⟩
    rw [List.map_append, List.map_cons]
    refine Table.find?_ofPairs_last _ _ _ ?_
    rw [Table.has, List.any_map, List.any_eq_false]
    intro t ht
    simpa [ComponentSchema.entry] using others t ht

/-- **What is combined of files that build.** -/
theorem combine_of_builds (built : List.Forall₂ (Builds disk) files schemas) :
    (buildModules disk files).outcome >>= Library.combine =
      .ok (Library.ofModules (Table.ofPairs (schemas.map ComponentSchema.entry))) := by
  have tables : (schemas.map fun s => Library.ofModules [s.entry]) =
      (schemas.map fun s => [s.entry]).map Library.ofModules := by
    rw [List.map_map]
    rfl
  have flat : (schemas.map fun s => [s.entry]).flatten = schemas.map ComponentSchema.entry := by
    rw [← List.flatMap_def, List.map_eq_flatMap]
  rw [buildModules_of_builds built, ok_bind, tables, Library.combine_ofModules, flat]

/-- A single file makes the library of its schema. -/
theorem buildLibrary_singleton (disk : Disk) (file : String) (unnamed : ∀ p ∈ platform, p = "") :
    (buildLibrary disk [file] platform).notes = (buildSchema disk file none).notes ∧
    (buildLibrary disk [file] platform).outcome =
      (buildSchema disk file none).outcome >>= fun s => s.toRecord.wrap .null := by
  have library := buildLibrary_of_unnamed disk [file] unnamed
  cases built : (buildSchema disk file none).outcome with
  | error e =>
    simp only [buildModules, built, error_bind] at library
    exact library
  | ok s =>
    simp only [buildModules, built, ok_bind, s.wrap_toRecord, List.append_nil] at library ⊢
    exact library

/-- A written tree that can be assembled is a file that builds. -/
theorem builds_of_written {file : String} {indent : Int} {tree : Value} {s : ComponentSchema}
    (held : disk.read file = .ok (Utf8.encode (Json.write indent tree)))
    (plain : Json.isPlain tree) (root : tree.hasTagIn ["File", "Program"])
    (assembled : componentSchema tree = .ok s) (standard : disk.system = .standard) :
    Builds disk file s := by
  have loaded := loadTree_written indent held plain (by rw [standard]; rfl)
  have taken : disk.system.assembles tree := by
    rw [standard]
    rfl
  rw [if_pos root] at loaded
  rw [Builds, buildSchema]
  simp only [loaded, ok_bind, schemaOfTree_eq_ok.2 ⟨taken, assembled⟩]

/-! ### The build command -/

theorem holds_of_builds {file : String} {s : ComponentSchema} (built : Builds disk file s) :
    disk.holds file := by
  obtain ⟨tree, loaded, -⟩ := bind_eq_ok.1 built
  rw [Disk.holds]
  cases found : disk.find file with
  | ok t => rfl
  | error e => simp [loadTree, Disk.readText, Disk.read, found] at loaded

open CommandLine in
/-- **The build command gives the library of its file.** -/
theorem build_eq_deliver (unnamed : ∀ p ∈ platform, p = "") {file : String} (noInput : file ≠ "-")
    {library : Value} (given : (buildLibrary disk [file] platform).outcome = .ok library)
    (stdin : String) (verbose : Bool) (settings : Settings) (output : Option String) :
    build disk stdin verbose settings file output false =
      deliver disk (noteLines verbose (buildLibrary disk [file] platform).notes) settings output
        library := by
  obtain ⟨notes, outcome⟩ := buildLibrary_singleton disk file unnamed
  rw [outcome] at given
  obtain ⟨s, built, -⟩ := bind_eq_ok.1 given
  rw [CommandLine.build, notes]
  simp only [noInput, decide_false, Bool.not_false, Bool.true_and, holds_of_builds built,
    Bool.not_true, Bool.false_eq_true, if_false, given]

/-- **The library of several files.** -/
theorem buildLibrary_gathers (disk : Disk) (files : List String) (platform : Option String)
    (unnamed : ∀ p ∈ platform, p = "") :
    (∀ schemas, List.Forall₂ (Builds disk) files schemas →
      ∃ modules, (buildLibrary disk files platform).outcome = .ok (Library.ofModules modules) ∧
        Gathers schemas modules) ∧
    (∀ file, files = [file] →
      (buildLibrary disk files platform).outcome =
        ((buildSchema disk file none).outcome >>= fun s => s.toRecord.wrap .null) ∧
      ∀ library, (buildLibrary disk files platform).outcome = .ok library → file ≠ "-" →
        ∀ stdin verbose settings output,
          CommandLine.build disk stdin verbose settings file output false =
            CommandLine.deliver disk
              (CommandLine.noteLines verbose (buildLibrary disk files platform).notes) settings
              output library) ∧
    (∀ before file after e, files = before ++ file :: after →
      (∀ f ∈ before, ∃ s, Builds disk f s) → (buildSchema disk file none).outcome = .error e →
        (buildLibrary disk files platform).outcome = .error e ∧
        ∀ r, e = .report r → r.file = some file) := by
  refine ⟨?_, ?_, ?_⟩
  · intro schemas built
    have given := (buildLibrary_of_unnamed disk _ unnamed).2.trans (combine_of_builds built)
    exact ⟨_, given, gathers_entries schemas⟩
  · rintro file rfl
    refine ⟨(buildLibrary_singleton disk file unnamed).2, ?_⟩
    intro library given noInput
    exact build_eq_deliver unnamed noInput given
  · rintro before file after e rfl built failed
    constructor
    · rw [(buildLibrary_of_unnamed disk _ unnamed).2, buildModules_of_error built failed,
        error_bind]
    · rintro r rfl
      exact (filed_of_buildSchema failed).1

namespace Sample

/-- A dial without a state. -/
def plainDialFile : Value := file [dialProps] "Dial" "Props"

def plainDial : ComponentSchema where
  name := "Dial"
  options := none
  inherited := []
  events := []
  props := []
  commands := []
  state := none

/-- The component of such a file can have any name. -/
theorem componentSchema_plainDial (name : String) :
    componentSchema (file [dialProps] name "Props") = .ok { plainDial with name } := by
  have located : Blueprint.locate (file [dialProps] name "Props") =
      .ok ⟨name, "Props", "", none, none, none⟩ := by with_unfolding_all rfl
  have declared : Declarations.ofTree (file [dialProps] name "Props") =
      .ok (table [("Props", dialProps)]) := by with_unfolding_all rfl
  have expanded : membersOf (table [("Props", dialProps)]) (.str "Props") = .ok [] :=
    membersOf_eq_ok.2 ⟨_, _, .ofInterface rfl rfl rfl rfl, .nil⟩
  simp only [componentSchema_eq, located, declared, ok_bind, schemaOf, expanded, assembleState,
    Resolver.standard]
  with_unfolding_all rfl

/-- A directory with two files of the same component and one that holds no tree. -/
def shelf : Disk where
  root := .directory [("a.json", .file (Utf8.encode (Json.write 2 plainDialFile))),
    ("b.json", .file (Utf8.encode (Json.write 2 dialFile))),
    ("c.json", .file (Utf8.encode (Json.write 2 (.arr []))))]
  working := []
  home := "/"

theorem builds_plainDial : Builds shelf "a.json" plainDial := by
  have held : shelf.read "a.json" = .ok (Utf8.encode (Json.write 2 plainDialFile)) := by
    with_unfolding_all rfl
  have plain : Json.isPlain plainDialFile := by with_unfolding_all rfl
  exact builds_of_written held plain rfl (componentSchema_plainDial "Dial") rfl

theorem builds_dial : Builds shelf "b.json" dial := by
  have held : shelf.read "b.json" = .ok (Utf8.encode (Json.write 2 dialFile)) := by
    with_unfolding_all rfl
  have plain : Json.isPlain dialFile := by with_unfolding_all rfl
  exact builds_of_written held plain rfl componentSchema_dialFile rfl

/-- An integer with one digit more than are taken. -/
def longSource : String := String.ofList (List.replicate (Json.maxDigits + 1) '1')

/-- Every digit of it is in place, but there are too many. -/
theorem parse_longSource : Json.parse longSource = .error (.longInteger 4301) := by
  have digit : ∀ c ∈ '1' :: List.replicate Json.maxDigits '1', Json.isDigit c := by
    rw [← List.replicate_succ]
    intro c hc
    rw [List.eq_of_mem_replicate hc]
    rfl
  have length : ('1' :: List.replicate Json.maxDigits '1').length = 4301 := by
    rw [List.length_cons, List.length_replicate, Json.maxDigits]
  have refused := Json.parse_longInteger (by decide) digit (by rw [length, Json.maxDigits]; decide)
  rwa [length, ← List.replicate_succ] at refused

theorem buildSchema_noTree :
    (buildSchema shelf "c.json" none).outcome = .error (.inFile .rootKind "c.json") := by
  have held : shelf.read "c.json" = .ok (Utf8.encode (Json.write 2 (.arr []))) := by
    with_unfolding_all rfl
  have unread : loadTree shelf "c.json" none = .error (.inFile .rootKind "c.json") :=
    loadTree_written 2 held rfl rfl
  rw [buildSchema, unread]
  rfl

end Sample

open Sample in
/-- Of two dials the later one is kept. The build command prints the library of the first, and with
a file that holds no tree between them there is none. -/
theorem buildLibrary_gathers_dials :
    (∃ modules module, (buildLibrary shelf ["a.json", "b.json"] none).outcome =
        .ok (Library.ofModules modules) ∧ modules.keys = ["Dial"] ∧
      dial.toRecord.wrap .null = .ok (Library.ofModules [("Dial", module)]) ∧
      modules.find? "Dial" = some module) ∧
    (∃ library, plainDial.toRecord.wrap .null = .ok library ∧
      CommandLine.build shelf "" false Settings.standard "a.json" none false =
        ⟨.exit 0, CommandLine.line (Json.write 2 library), "", shelf⟩) ∧
    (buildLibrary shelf ["a.json", "c.json", "b.json"] none).outcome =
      .error (.inFile .rootKind "c.json") := by
  have unnamed : ∀ p ∈ (none : Option String), p = "" := fun _ h => nomatch h
  refine ⟨?_, ?_, ?_⟩
  · obtain ⟨gathers, -, -⟩ := buildLibrary_gathers shelf ["a.json", "b.json"] none unnamed
    obtain ⟨modules, given, gathered⟩ :=
      gathers [plainDial, dial] (.cons builds_plainDial (.cons builds_dial .nil))
    obtain ⟨module, wrapped, found⟩ :=
      gathered.last [plainDial] dial [] rfl fun _ h => absurd h List.not_mem_nil
    refine ⟨modules, module, given, ?_, wrapped, found⟩
    rw [gathered.names]
    decide
  · obtain ⟨-, alone, -⟩ := buildLibrary_gathers shelf ["a.json"] none unnamed
    obtain ⟨outcome, delivers⟩ := alone "a.json" rfl
    have built : (buildSchema shelf "a.json" none).outcome = .ok plainDial := builds_plainDial
    have given := outcome.trans (by rw [built, ok_bind, plainDial.wrap_toRecord])
    refine ⟨_, plainDial.wrap_toRecord, ?_⟩
    exact delivers _ given (by decide) "" false Settings.standard none
  · obtain ⟨-, -, fails⟩ := buildLibrary_gathers shelf ["a.json", "c.json", "b.json"] none unnamed
    refine (fails ["a.json"] "c.json" ["b.json"] _ rfl ?_ buildSchema_noTree).1
    intro f hf
    rw [List.mem_singleton.1 hf]
    exact ⟨plainDial, builds_plainDial⟩

end ComponentSpec
