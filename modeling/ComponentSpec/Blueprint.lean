import ComponentSpec.Node

/-!
# The blueprint of a component

A spec file exports one component by default, through a call that names the component and its props
type. It may export one commands call, and may declare one state type, recognised by its name. The
blueprint holds the names and expressions that are found.

Searching and checking are apart: a probe answers whether a statement is the one that is looked for,
and only what has been matched is checked.

* `componentCall?`, `commandsCall?` — the probes;
* `commandsOfCall` — the check of a matched commands call;
* `stateTypeNames` — the names of state types;
* `Blueprint`, `Blueprint.locate` — what is found, and finding it.
-/

namespace ComponentSpec

/-! ### The component call -/

/-- What the component call says: the props type, the name, and perhaps options. -/
structure ComponentCall where
  propsType : Value
  name : String
  options : Option Value
deriving Inhabited

/-- **The component call of a statement,** if it is a default export of one. -/
def componentCall? (statement : Value) : Option ComponentCall := do
  guard (statement.hasTag "ExportDefaultDeclaration")
  let call := (statement.get "declaration").withoutCast
  guard (call.calleeName.isText "codegenNativeComponent")
  match call.typeArguments, call.callArguments with
  | type :: _, nameLiteral :: more =>
    let propsType := (type.get "typeName").identifierName
    match nameLiteral.literal? with
    | some (.str name) =>
      guard (!propsType.isNull)
      return ⟨propsType, name, more.head?⟩
    | _ => none
  | _, _ => none

/-! ### The commands call -/

/-- **The commands call that a statement exports,** if it does. The first of the declared variables
is looked at, and has to be there. -/
def commandsCall? (statement : Value) : Checked (Option Value) := do
  if !statement.hasTag "ExportNamedDeclaration" then return none
  let declaration := statement.get "declaration"
  if !declaration.hasTag "VariableDeclaration" then return none
  let declared := declaration.get "declarations"
  if !declared.truthy then return none
  let call := (← declared.first).get "init"
  return if call.calleeName.isText "codegenNativeCommands" then some call else none

/-- **The commands type and the options of a commands call,** which takes one argument of each
kind. -/
def commandsOfCall (call : Value) : Checked (Value × Value) := do
  match call.callArguments with
  | [options] =>
    match call.typeArguments with
    | [type] =>
      if type.hasTag "TSTypeReference" then
        return ((type.get "typeName").identifierName, options)
      else throw (.about .inlineCommands call)
    | _ => throw (.about .inlineCommands call)
  | _ => throw (.about .commandArguments call)

/-- The commands types and options of all commands calls among the statements. -/
def commandsAmong (statements : List Value) : Checked (List (Value × Value)) :=
  List.filterMap id <$> statements.mapM fun statement => do
    match ← commandsCall? statement with
    | some call => return some (← commandsOfCall call)
    | none => return none

/-! ### State types -/

/-- The mark in the name of a state type. -/
def stateMark : String := "NativeState"

/-- Whether a text occurs in another. -/
def occursIn (part : List Char) : List Char → Bool
  | [] => part.isEmpty
  | c :: cs => part.isPrefixOf (c :: cs) || occursIn part cs

/-- Whether a name carries the mark of a state type: a text contains it, a list or an object has it
among its items or keys. Other names cannot be looked into. -/
def marksState (name : Value) : Checked Bool :=
  match name with
  | .str s => .ok (occursIn stateMark.toList s.toList)
  | .arr items => .ok (items.any (Value.isText stateMark))
  | .obj _ => .ok (name.hasKey stateMark)
  | .scalar _ => .error (.misfit .kind)

/-- The name of a declaration if it is that of a state type. -/
def stateName? (declaration : Value) : Checked (Option Value) := do
  let name := declaration.declarationName
  if !name.truthy then return none
  return if ← marksState name then some name else none

/-- **The names of the state types:** those of exported declarations first, then those of local
interfaces. -/
def stateTypeNames (statements : List Value) : Checked (List Value) := do
  let exported ← statements.mapM fun statement =>
    if statement.hasTag "ExportNamedDeclaration" then stateName? (statement.get "declaration")
    else pure none
  let unexported ← statements.mapM fun statement =>
    if statement.hasTag "TSInterfaceDeclaration" then stateName? statement else pure none
  return exported.filterMap id ++ unexported.filterMap id

/-! ### The blueprint -/

/-- **The names and expressions that a component is made of.** -/
structure Blueprint where
  componentName : String
  propsType : String
  /-- Empty where there is no state. -/
  stateType : String
  commandsType : Option String
  commandOptions : Option (Table Value)
  options : Option (Table Value)
deriving Inhabited

namespace Blueprint

/-- A field that has to be a text. -/
def textField (field : String) (v : Value) : String × List Invalid :=
  match v with
  | .str s => (s, [])
  | _ => ("", [⟨[.inl field], .noText⟩])

/-- A field that is a text or `null`. -/
def textOrNull (field : String) (v : Value) : Option String × List Invalid :=
  match v with
  | .null => (none, [])
  | .str s => (some s, [])
  | _ => (none, [⟨[.inl field], .noText⟩])

/-- A field that is an object or `null`. -/
def tableOrNull (field : String) (v : Value) : Option (Table Value) × List Invalid :=
  match v with
  | .null => (none, [])
  | .obj entries => (some entries, [])
  | _ => (none, [⟨[.inl field], .noTable⟩])

/-- The blueprint of what was found, if everything in it has its type. -/
def ofParts (component : ComponentCall) (stateType : Value) (commands : Option (Value × Value)) :
    Checked Blueprint :=
  let (propsType, e₁) := textField "props_type_name" component.propsType
  let (stateType, e₂) := textField "state_type_name" stateType
  let (commandsType, e₃) :=
    textOrNull "command_type_name" (.ofOption (commands.map Prod.fst))
  let (commandOptions, e₄) :=
    tableOrNull "command_options_expression" (.ofOption (commands.map Prod.snd))
  let (options, e₅) := tableOrNull "options_expression" (.ofOption component.options)
  match e₁ ++ e₂ ++ e₃ ++ e₄ ++ e₅ with
  | [] =>
    .ok { componentName := component.name, propsType, stateType, commandsType, commandOptions,
          options }
  | problems => .error (.invalid problems)

/-- **Finds the blueprint of a file.** There has to be one component, and there may be at most one
commands call and one state type. -/
def locate (tree : Value) : Checked Blueprint := do
  let statements := tree.programBody
  match statements.filterMap componentCall? with
  | [] => throw (.bare .noComponent)
  | [component] =>
    let commands ← commandsAmong statements
    if 1 < commands.length then throw (.bare .manyCommandSets)
    let states ← stateTypeNames statements
    if 1 < states.length then throw (.bare (.manyStates states.length component.name))
    ofParts component (states.head?.getD (.str "")) commands.head?
  | _ => throw (.bare .manyComponents)

end Blueprint

end ComponentSpec
