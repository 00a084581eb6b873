import ComponentSpec.Display
import ComponentSpec.Disk.Tree
import ComponentSpec.Json.Reader
import ComponentSpec.Text.Utf8

/-!
# Faults

Everything that can stop the extraction of a schema.

* `Cause` — what is wrong with a spec file, each with its `Category`, its wording (`Cause.message`)
  and perhaps a hint (`Cause.hint`);
* `Report` — a cause with the node it is about, the place of that node and the file;
* `Misfit` — a document that lacks the layout a step takes for granted;
* `Fault` — these, and what can go wrong with records, texts and files.

A report looks for its place in the node's own `loc` entry. Where that entry is not laid out as a
place is, the report cannot be made and the misfit takes its stead; `Fault.about` decides which.
-/

namespace ComponentSpec

/-! ### Misfits -/

/-- How a document departs from the layout that a step takes for granted. -/
inductive Misfit where
  /-- A value of the wrong kind. -/
  | kind
  /-- An entry asked of something that is no object, or a text's property of no text. -/
  | member
  /-- An entry that is not there. -/
  | entry
  /-- A value of the right kind that still does not do. -/
  | content
deriving DecidableEq

/-! ### Causes -/

/-- The families of causes. -/
inductive Category where
  | general
  /-- The file does not declare exactly one component, command set or state. -/
  | structural
  /-- A declaration that was looked for has the wrong shape. -/
  | shape
  /-- A type definition that is needed is missing, or the input cannot be read. -/
  | malformed
  /-- A type has no counterpart in the schema. -/
  | unsupported
deriving DecidableEq

/-- **What is wrong with a spec file.** Names are values, since a damaged tree can hold anything in
the place of a name. -/
inductive Cause where
  -- the file as a whole
  | noComponent
  | manyComponents
  | manyCommandSets
  | manyStates (count : Nat) (component : String)
  -- commands and options
  | commandArguments
  | inlineCommands
  | commandsNoInterface (tag : Value)
  | commandNamesMissing
  | commandNamesDiffer (type : Value) (declared listed : List String)
  | optionsNoLiteral
  | commandOptionsNoLiteral
  | twoPaperNames
  | commandNoFunction (name : Value)
  | commandNoRef (name : Value)
  | commandReturns (name tag : Value)
  | paramType (command param : Value) (found : String)
  -- types
  | typeMissing (name : Value)
  | interfaceUnreadable (name : Value)
  | recursiveProps (name : Value)
  | recursiveType (type name : Value)
  | memberKind (tag : Value)
  | memberUnnamed (tag : Value)
  | propSpread (name : Value)
  -- annotations
  | withDefaultArity (name : Value)
  | defaultNoLiteral (name : Value)
  | defaultNoOption (default name : Value) (options : List Value)
  | enumDefaultMissing (name : Value)
  | mixedUnion (name : Value)
  | unionKind (name : Value)
  | arrayArity (wrapper name : Value)
  | plainNumber (name : Value)
  | referenceKind (type name : Value)
  | annotationKind (tag name : Value)
  -- events
  | eventNoPayload (name : Value)
  | eventPaperName (name : Value)
  | eventPayload (name : Value) (found : String)
  -- the input
  | notUtf8 (flaw : Utf8.Flaw)
  | notJson (flaw : Json.Flaw)
  | rootKind
  /-- A cause of a caller's own. -/
  | other (category : Category) (message : String) (hint : Option String)
deriving Inhabited

namespace Cause

def category : Cause → Category
  | noComponent | manyComponents | manyCommandSets | manyStates .. => .structural
  | typeMissing _ | interfaceUnreadable _ | notUtf8 _ | notJson _ | rootKind => .malformed
  | commandNoFunction _ | commandReturns .. | paramType .. | recursiveProps _ | recursiveType ..
  | memberKind _ | memberUnnamed _ | propSpread _ | mixedUnion _ | unionKind _ | plainNumber _
  | referenceKind .. | annotationKind .. => .unsupported
  | other category _ _ => category
  | _ => .shape

def missingType (what : String) (name : Value) : String :=
  "Failed to find " ++ what ++ " definition for \"" ++ name.shown
    ++ "\", please check that you have a valid codegen typescript file"

/-- **The wording of a cause.** -/
def message : Cause → String
  | noComponent => "Could not find component config for native component"
  | manyComponents => "Only one component is supported per file"
  | manyCommandSets => "codegenNativeCommands may only be called once in a file"
  | manyStates count component =>
    "Found " ++ toString count ++ " NativeStates for " ++ component
      ++ ". Each component can have only 1 NativeState"
  | commandArguments =>
    "codegenNativeCommands must be passed options including the supported commands"
  | inlineCommands =>
    "codegenNativeCommands doesn't support inline definitions. Specify a file local type alias"
  | commandsNoInterface tag =>
    "The type argument for codegenNativeCommands must be an interface, received " ++ tag.shown
  | commandNamesMissing =>
    "codegenNativeCommands must be given an options object with supportedCommands array"
  | commandNamesDiffer type declared _ =>
    "codegenNativeCommands expected the same supportedCommands specified in the " ++ type.shown
      ++ " interface: " ++ ", ".intercalate declared
  | optionsNoLiteral =>
    "Failed to parse codegen options, please check that they are object literals"
  | commandOptionsNoLiteral =>
    "Failed to parse command options, please check that they are defined correctly"
  | twoPaperNames =>
    "Failed to parse codegen options, cannot use both paperComponentName and "
      ++ "paperComponentNameDeprecated"
  | commandNoFunction name => "Command \"" ++ name.shown ++ "\" must be a function"
  | commandNoRef name =>
    "The first argument of method " ++ name.shown ++ " must be of type React.ElementRef<>"
  | commandReturns name tag =>
    "Command \"" ++ name.shown ++ "\" must return void, found " ++ tag.shown
  | paramType command param found =>
    "Unsupported param type for method \"" ++ command.shown ++ "\", param \"" ++ param.shown
      ++ "\". Found " ++ found
  | typeMissing name => missingType "type" name
  | interfaceUnreadable name => missingType "interface" name
  | recursiveProps name => "Recursive type \"" ++ name.shown ++ "\" cannot be used as props"
  | recursiveType type name =>
    "Recursive type \"" ++ type.shown ++ "\" used by \"" ++ name.shown
      ++ "\" cannot be described in the schema"
  | memberKind tag =>
    "Unsupported member type " ++ tag.shown ++ " in props; only property signatures are allowed"
  | memberUnnamed tag =>
    "Unsupported member " ++ tag.shown ++ "; only named property signatures are allowed"
  | propSpread name => "Unable to handle prop spread: " ++ name.shown
  | withDefaultArity name =>
    "WithDefault for \"" ++ name.shown ++ "\" must have a type and a default value"
  | defaultNoLiteral name => "The default value of \"" ++ name.shown ++ "\" must be a literal"
  | defaultNoOption default name options =>
    "Default value " ++ default.quoted ++ " of \"" ++ name.shown ++ "\" is not one of "
      ++ (Value.arr options).quoted
  | enumDefaultMissing name => "A default enum value is required for \"" ++ name.shown ++ "\""
  | mixedUnion name =>
    "Unsupported union for \"" ++ name.shown
      ++ "\": enums must be all string or all integer literals"
  | unionKind name => "Unsupported union type for \"" ++ name.shown ++ "\""
  | arrayArity wrapper name =>
    wrapper.shown ++ " for \"" ++ name.shown ++ "\" must have exactly one type argument"
  | plainNumber name => "Cannot use \"number\" for \"" ++ name.shown ++ "\""
  | referenceKind type name =>
    "Unsupported type " ++ type.shown ++ " for \"" ++ name.shown ++ "\""
  | annotationKind tag name =>
    "Unsupported type annotation " ++ tag.shown ++ " for \"" ++ name.shown ++ "\""
  | eventNoPayload name => "Event \"" ++ name.shown ++ "\" must declare a payload type"
  | eventPaperName name =>
    "The paper event name of \"" ++ name.shown ++ "\" must be a string literal"
  | eventPayload name found =>
    "The payload of event \"" ++ name.shown ++ "\" must be an object type, found " ++ found
  | notUtf8 flaw =>
    "AST is not valid UTF-8 (" ++ flaw.reason.message ++ " at byte " ++ toString flaw.offset ++ ")"
  | notJson flaw =>
    "AST is not valid JSON (" ++ flaw.problem.message ++ " at line "
      ++ toString flaw.position.line ++ " column " ++ toString flaw.position.column ++ ")"
  | rootKind => "AST root must be a File or Program node"
  | other _ message _ => message

/-- The hint that a cause brings itself. -/
def ownHint? : Cause → Option String
  | noComponent => some "Add `export default codegenNativeComponent<NativeProps>('MyComponent');`"
  | commandArguments =>
    some "Pass an object like \x7bsupportedCommands: ['focus', 'blur']\x7d"
  | commandNamesDiffer _ _ listed =>
    some ("supportedCommands currently lists: " ++ ", ".intercalate listed)
  | propSpread _ => some "Only ViewProps can be extended; declare other props in this file"
  | enumDefaultMissing _ => some "Wrap the union in WithDefault<..., 'value'>"
  | plainNumber _ => some "Use Int32, Double or Float from CodegenTypes"
  | eventNoPayload _ => some "Use DirectEventHandler<null> for events without a payload"
  | notJson _ => some "Dump the parser output with JSON.stringify(ast)"
  | other _ _ hint => hint
  | _ => none

/-- **How to mend it.** Malformed input has a standing hint where the cause brings none. -/
def hint (c : Cause) : Option String :=
  match c.ownHint?, c.category with
  | some hint, _ => some hint
  | none, .malformed => some "Check that the file is a valid codegen TypeScript file"
  | none, _ => none

end Cause

/-! ### Reports -/

/-- Where a node starts: whatever its `loc` entry says. -/
structure Place where
  line : Value
  column : Value
deriving Inhabited

def Place.unknown : Place := ⟨.null, .null⟩

/-- An entry of an object, an absent one read as an empty object. -/
def entryOrEmpty (v : Value) (key : String) : Except Misfit Value :=
  match v with
  | .obj _ => .ok (if (v.get key).truthy then v.get key else .obj [])
  | _ => .error .member

/-- **Where a node starts.** What is no node has no place. -/
def Place.ofNode (node : Value) : Except Misfit Place :=
  if node.isObject then do
    let start ← entryOrEmpty (← entryOrEmpty node "loc") "start"
    if start.isObject then .ok ⟨start.get "line", start.get "column"⟩ else .error .member
  else .ok .unknown

/-- **A cause, made out to a node and a file.** -/
structure Report where
  cause : Cause
  node : Value
  place : Place
  file : Option String
deriving Inhabited

namespace Report

/-- The report with the file's name, in the place of any other. -/
def withFile (r : Report) (file : Option String) : Report := { r with file }

@[simp] theorem withFile_withFile (r : Report) (f g : Option String) :
    (r.withFile f).withFile g = r.withFile g := rfl

/-- **The text of a report**, over several lines. -/
def text (r : Report) : String :=
  let file := match r.file with
    | some f => if f.isEmpty then "" else " in " ++ Text.hold f
    | none => ""
  let place :=
    if r.place.line.truthy then
      " at line " ++ r.place.line.shown
        ++ if r.place.column.isNull then "" else ", column " ++ r.place.column.shown
    else ""
  let hint := match r.cause.hint with
    | some h => if h.isEmpty then "" else "   💡 " ++ h ++ "\n"
    | none => ""
  "\n❌ Schema Error" ++ file ++ place ++ ":\n   " ++ r.cause.message ++ "\n" ++ hint

end Report

/-! ### Records -/

/-- What is wrong with a field of a record. -/
inductive FieldProblem where
  | missing
  | noText
  | noList
  | noTable
  | noRecord
  | noInteger
  /-- A text with half of a pair, where characters are looked at. -/
  | noCharacters
  | unreadableInteger
  | fraction
  | infinite
  | tooLarge
deriving DecidableEq

/-- A problem, and the way to the field: names, and positions in lists. -/
structure Invalid where
  path : List (String ⊕ Nat)
  problem : FieldProblem
deriving DecidableEq

/-! ### Faults -/

/-- **Whatever stops the extraction.** -/
inductive Fault where
  | report (r : Report)
  | misfit (m : Misfit)
  /-- The fields of a record do not have the types they must have. -/
  | invalid (problems : List Invalid)
  | json (flaw : Json.Flaw)
  /-- An integer with too many digits, in a text that is read as JSON. -/
  | longInteger (digits : Nat)
  | utf8 (flaw : Utf8.Flaw)
  | disk (e : DiskError)
  /-- A text that cannot be printed, since half of a pair is no character. -/
  | unprintable (text : String)
  /-- A source of files that is neither file nor directory. -/
  | noSource (source : String)
  /-- Types whose description has no end. -/
  | endless
  /-- A text or a tree that is nested deeper than the stack goes. -/
  | stack
  /-- An indentation whose size cannot be counted. -/
  | overflow
  /-- An indentation that no memory holds. -/
  | exhausted
deriving Inhabited

namespace Fault

/-- **The fault that a cause makes at a node.** -/
def about (cause : Cause) (node : Value) : Fault :=
  match Place.ofNode node with
  | .ok place => .report ⟨cause, node, place, none⟩
  | .error m => .misfit m

/-- Where the place of the node can be told, the fault is the report of the cause at the node. -/
theorem about_of_placed {cause : Cause} {node : Value} {place : Place}
    (placed : Place.ofNode node = .ok place) :
    about cause node = .report ⟨cause, node, place, none⟩ := by
  rw [about, placed]

theorem about_of_unplaced {cause : Cause} {node : Value} {m : Misfit}
    (unplaced : Place.ofNode node = .error m) : about cause node = .misfit m := by
  rw [about, unplaced]

/-- A cause that no node carries. -/
def bare (cause : Cause) : Fault := .report ⟨cause, .null, .unknown, none⟩

/-- A cause that no node carries, in a file. -/
def inFile (cause : Cause) (file : String) : Fault := .report ⟨cause, .null, .unknown, some file⟩

/-- The fault with the file's name, if it is a report that names no file yet. -/
def locatedIn (file : String) : Fault → Fault
  | .report r => .report (if r.file.isNone then r.withFile (some file) else r)
  | f => f

end Fault

/-- The outcome of a step that can fail. -/
abbrev Checked := Except Fault

end ComponentSpec
