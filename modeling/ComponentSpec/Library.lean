import ComponentSpec.Assembly
import ComponentSpec.Text.Lowercase

/-!
# Libraries

A library is a document with modules by name; the module of a component holds the component by its
name, with the component's options and facets side by side. Libraries are merged module by module, a
later module taking the place of an earlier one of the same name, and reduced to a platform by
leaving out the components that exclude it.

Libraries are documents like any other and may come from elsewhere, so each operation says which
misfit it meets where the document is not laid out as a library.

* `ComponentRecord.ofFields` — the record of a schema given by its fields;
* `ComponentRecord.wrap` — the library of one component;
* `Library.combine` — the library of several;
* `Library.forPlatform` — the library without what a platform excludes.
-/

namespace ComponentSpec

/-! ### Tables from elsewhere -/

/-- A pair of a key and a value: a list, text or object of two. -/
def pairOf (v : Value) : Checked (Scalar × Value) := do
  let parts ← match v with
    | .scalar (.str _) => v.elements
    | .scalar _ => throw (.misfit .kind)
    | _ => v.elements
  match parts with
  | [k, x] => return (← k.key, x)
  | _ => throw (.misfit .content)

/-- **The entries to be written into a table:** those of an object, or the pairs that anything else
is run through in. -/
def entriesOf (v : Value) : Checked (Table Value) := do
  match v with
  | .obj entries => return entries
  | .arr items => items.mapM pairOf
  | .scalar (.str _) => (← v.elements).mapM pairOf
  | .scalar _ => throw (.misfit .kind)

/-! ### Records from elsewhere -/

namespace ComponentRecord

/-- A field that has two spellings, and the spelling under which it is given. -/
def field? (fields : List (String × Value)) (key other : String) : Option (String × Value) :=
  match fields.lookup key with
  | some v => some (key, v)
  | none => (fields.lookup other).map (other, ·)

/-- A text that must not be missing. -/
def text (fields : List (String × Value)) (key other : String) : String × List Invalid :=
  match field? fields key other with
  | none => ("", [⟨[.inl key], .missing⟩])
  | some (_, .str s) => (s, [])
  | some (key, _) => ("", [⟨[.inl key], .noText⟩])

/-- A list that is empty when it is missing. -/
def list (fields : List (String × Value)) (key other : String) : List Value × List Invalid :=
  match field? fields key other with
  | none => ([], [])
  | some (_, .arr items) => (items, [])
  | some (key, _) => ([], [⟨[.inl key], .noList⟩])

/-- **The record with the given fields.** Fields that a record does not have are passed over. -/
def ofFields (fields : List (String × Value)) : Checked ComponentRecord :=
  let (filename, e₁) := text fields "filename" "filename"
  let (name, e₂) := text fields "componentName" "component_name"
  let (inherited, e₃) := list fields "extendsProps" "extends_props"
  let (events, e₄) := list fields "events" "events"
  let (props, e₅) := list fields "props" "props"
  let (commands, e₆) := list fields "commands" "commands"
  let options := ((fields.lookup "options").getD .null)
  let state := ((fields.lookup "state").getD .null)
  match e₁ ++ e₂ ++ e₃ ++ e₄ ++ e₅ ++ e₆ with
  | [] =>
    .ok { filename, name, options, inherited, events, props, commands,
          state := if state.isNull then none else some state }
  | problems => .error (.invalid problems)

/-! ### Wrapping -/

/-- The facets of a component, which take the place of options of the same name. -/
def facets (r : ComponentRecord) : Table Value :=
  [(.str "extendsProps", .arr r.inherited), (.str "events", .arr r.events),
   (.str "props", .arr r.props), (.str "commands", .arr r.commands)]
    ++ match r.state with
      | some v => [(.str "state", v)]
      | none => []

/-- **The entry of a component:** its options, overwritten by its facets. -/
def componentEntry (r : ComponentRecord) : Checked (Table Value) := do
  let options ← if r.options.truthy then entriesOf r.options else pure []
  return (Table.ofPairs options).merge r.facets

/-- **The library of one component,** in a module of the given name or of the record's own. -/
def wrap (r : ComponentRecord) (moduleName : Value) : Checked Value := do
  let component ← r.componentEntry
  let moduleName ← if moduleName.truthy then moduleName.key else pure (.str r.filename)
  return .record [("modules", .obj [(moduleName, .record
    [("type", "Component"), ("components", .obj [(.str r.name, .obj component)])])])]

end ComponentRecord

namespace Library

/-- An entry of an object, with a substitute where it is missing. -/
def entryOr (v : Value) (key : String) (substitute : Value) : Checked Value :=
  match v with
  | .obj entries => .ok ((Table.find? entries key).getD substitute)
  | _ => .error (.misfit .member)

/-- The entries of what has to be an object. -/
def tableOf : Value → Checked (Table Value)
  | .obj entries => .ok entries
  | _ => .error (.misfit .member)

/-- The modules of a library. -/
def modules (library : Value) : Checked Value := entryOr library "modules" (.obj [])

def ofModules (modules : Table Value) : Value := .record [("modules", .obj modules)]

/-- **The library of several,** the modules of each written over those before it. -/
def combine (libraries : List Value) : Checked Value :=
  ofModules <$> libraries.foldlM
    (fun combined library => do return combined.merge (← entriesOf (← modules library))) []

/-- The name of a platform in lower case. -/
def platformName : Value → Checked String
  | .str s => .ok (Text.lowercase s)
  | _ => .error (.misfit .member)

/-- Whether a component excludes a platform, which is named in lower case. -/
def excludes (component : Value) (platform : String) : Checked Bool := do
  let excluded ← entryOr component "excludedPlatforms" .null
  let names ← (← excluded.elements).mapM platformName
  return names.contains platform

/-- **What a platform keeps of a module:** all of it if it holds no components; otherwise the
components that do not exclude the platform, and nothing if none is left. -/
def keepModule (platform : String) (module : Value) : Checked (Option Value) := do
  if !(← entryOr module "type" .null).isText "Component" then return some module
  let components ← tableOf (← entryOr module "components" (.obj []))
  let kept ← components.filterM fun c => Bool.not <$> excludes c.2 platform
  return if kept.isEmpty then none else some (module.put "components" (.obj kept))

/-- **The library without what a platform excludes.** Without a platform it stays as it is. -/
def forPlatform (library platform : Value) : Checked Value := do
  if !platform.truthy then return library
  let platform ← platformName platform
  let modules ← tableOf (← modules library)
  let kept ← modules.mapM fun (name, module) => do
    return (← keepModule platform module).map (name, ·)
  return ofModules (kept.filterMap id)

end Library

end ComponentSpec
