import ComponentSpec.Blueprint
import ComponentSpec.Facet.Command
import ComponentSpec.Facet.Event
import ComponentSpec.Facet.Inherited
import ComponentSpec.Facet.Options

/-!
# Assembling a schema

A schema is assembled from the blueprint of a file in one fixed order of steps, and the first step
that fails ends it. The members of the props type are found first, since the inherited groups, the
props and the events are all taken from the same list; the commands are compared with the names that
are listed for them; the state comes last, where there is one.

The steps are those of a `Resolver`, so that a caller can watch or replace them. They run in any
monad with faults; the standard resolver needs no more than faults themselves.

* `commandMembers` — the members of the commands interface, checked against the listed names;
* `Resolver`, `Resolver.standard` — the steps;
* `assemble` — the schema, by the steps of a resolver;
* `componentSchema` — the schema, by the standard steps.
-/

namespace ComponentSpec

/-! ### Commands against their names -/

/-- Names as keys; what cannot be a key is refused. -/
def asKeys (names : List Value) : Checked (List Scalar) := names.mapM Value.key

/-- Whether two lists hold the same keys, however often. -/
def sameKeys (a b : List Scalar) : Bool := a.all (onPath b) && b.all (onPath a)

/-- Names as texts; anything else cannot be listed. -/
def asTexts (names : List Value) : Checked (List String) :=
  names.mapM fun
    | .str s => .ok s
    | _ => .error (.misfit .kind)

/-- Whether the listed names are those of the members: as many of them, and the same ones. The names
are only looked at where there are as many. -/
def namesAgree (listed : List String) (declared : List Value) : Checked Bool :=
  if listed.length ≠ declared.length then .ok false
  else return sameKeys (listed.map .str) (← asKeys declared)

/-- **The members of the commands interface,** in the order of their declaration. They have to be
the commands whose names are listed. -/
def commandMembers (types : Declarations) (typeName : Value) (options : Option CommandOptions) :
    Checked (List Value) := do
  if typeName.isNull then return []
  let declaration ← types.find typeName
  if declaration.isNull then throw (.bare (.typeMissing typeName))
  if !declaration.hasTag "TSInterfaceDeclaration" then
    throw (.about (.commandsNoInterface declaration.tag) declaration)
  match declaration.interfaceMembers with
  | none => throw (.about (.typeMissing typeName) declaration)
  | some members =>
    let declared := (members.map Value.keyName).filter Value.truthy
    match options.bind CommandOptions.supported with
    | none => throw (.about .commandNamesMissing declaration)
    | some listed =>
      if ← namesAgree listed declared then return members
      else throw (.about (.commandNamesDiffer typeName (← asTexts declared) listed) declaration)

/-! ### Resolvers -/

/-- **The steps of an assembly.** -/
structure Resolver (m : Type → Type) where
  declarations : Value → m Declarations
  members : Value → Declarations → m (List Value)
  commandOptions : Value → m (Option CommandOptions)
  inherited : List Value → Declarations → m (List InheritedGroup)
  options : Value → m (Option (Table Value))
  ownMembers : List Value → Declarations → m (List Value)
  props : List Value → Declarations → m (List (Entry SchemaType))
  events : List Value → Declarations → m (List Event)
  commands : List Value → Declarations → m (List Command)
  state : List Value → Declarations → m (List (Entry SchemaType))

/-- **The steps for spec files.** -/
def Resolver.standard : Resolver Checked where
  declarations tree := Declarations.ofTree tree
  members name types := do membersOf types (← name.key)
  commandOptions expression := ComponentSpec.commandOptions expression
  inherited members types := inheritedOf types members
  options expression := componentOptions expression
  ownMembers members types := withoutInherited types members
  props members types := propsOf types members
  events members types := eventsOf types members
  commands members types := commandsOf types members
  state members types := stateOf types members

/-! ### The assembly -/

/-- The object under an optional table. -/
def tableValue (t : Option (Table Value)) : Value := .ofOption (t.map .obj)

/-- The state that a blueprint asks for, by the steps of a resolver. -/
def assembleState {m : Type → Type} [Monad m] (resolver : Resolver m) (types : Declarations)
    (stateType : String) : m (Option (List (Entry SchemaType))) := do
  if stateType.isEmpty then return none
  let members ← resolver.members stateType types
  return some (← resolver.state members types)

/-- **The schema of a file,** by the steps of a resolver. -/
def assemble {m : Type → Type} [Monad m] [MonadExceptOf Fault m] (resolver : Resolver m)
    (tree : Value) : m ComponentSchema := do
  let blueprint ← MonadExcept.ofExcept (Blueprint.locate tree)
  let types ← resolver.declarations tree
  let members ← resolver.members blueprint.propsType types
  let commandOptions ← resolver.commandOptions (tableValue blueprint.commandOptions)
  let commandMembers ← MonadExcept.ofExcept
    (commandMembers types (.ofOption (blueprint.commandsType.map .str)) commandOptions)
  let inherited ← resolver.inherited members types
  let options ← resolver.options (tableValue blueprint.options)
  let ownMembers ← resolver.ownMembers members types
  let props ← resolver.props ownMembers types
  let events ← resolver.events members types
  let commands ← resolver.commands commandMembers types
  let state ← assembleState resolver types blueprint.stateType
  return { name := blueprint.componentName, options, inherited, events, props, commands, state }

/-- **The schema of a file.** -/
def componentSchema (tree : Value) : Checked ComponentSchema := assemble Resolver.standard tree

end ComponentSpec
