import ComponentSpec.Node

/-!
# Options

The component call and the commands call each take an object literal of options. Component options
are literals and lists of literals; what is no literal inside a list is `null`. Command options are
lists of texts; what is no list counts as an empty one.

* `objectProperties` — the keys and values of an object literal;
* `componentOptions` — the options of the component call;
* `CommandOptions`, `commandOptions` — the options of the commands call.
-/

namespace ComponentSpec

/-- The key and the value of a property of an object literal. -/
def objectProperty (cause : Cause) (property : Value) : Checked (Value × Value) :=
  let name := property.keyName
  if !property.hasTagIn ["ObjectProperty", "Property"] || name.isNull then
    .error (.about cause property)
  else .ok (name, property.get "value")

/-- **The keys and values of an object literal,** in order. Spreads, methods and unnamed properties
are refused for the given cause, as is anything else than an object literal. -/
def objectProperties (cause : Cause) (expression : Value) : Checked (List (Value × Value)) := do
  if !expression.hasTag "ObjectExpression" then throw (.about cause expression)
  (← (expression.get "properties").elements).mapM (objectProperty cause)

/-- The values of a list literal, `null` for what is no literal. -/
def elementValues (list : Value) : Checked (List Value) := do
  return (← (list.get "elements").elements).map fun e => Value.ofOption e.literal?

/-- The value of a component option. -/
def optionValue (value : Value) : Checked Value := do
  if value.hasTag "ArrayExpression" then return .arr (← elementValues value)
  match value.literal? with
  | some v => return v
  | none => throw (.about .optionsNoLiteral value)

/-- The entry of a table, `null` where there is none. -/
def Table.entry (t : Table Value) (key : String) : Value := (t.find? key).getD .null

/-- **The options of the component call**, if it was passed any. -/
def componentOptions (expression : Value) : Checked (Option (Table Value)) := do
  if expression.isNull then return none
  let options ← (← objectProperties .optionsNoLiteral expression).foldlM
    (fun (options : Table Value) (name, value) => do
      let v ← optionValue value
      return options.set (← name.key) v) []
  if (options.entry "paperComponentName").truthy
      && (options.entry "paperComponentNameDeprecated").truthy then
    throw (.about .twoPaperNames expression)
  return some options

/-- **The options of the commands call:** the names of the commands, if they are listed, and
whatever else is given. -/
structure CommandOptions where
  supported : Option (List String)
  others : List (String × Value)
deriving Inhabited

namespace CommandOptions

/-- The texts in a list, or the positions of what is none. -/
def textList (path : String) (items : List Value) : Except (List Invalid) (List String) :=
  match items.mapM Value.str? with
  | some texts => .ok texts
  | none =>
    .error (items.zipIdx.filterMap fun (v, i) =>
      if v.str?.isSome then none else some ⟨[.inl path, .inr i], .noText⟩)

/-- The command names in a field. -/
def supportedIn (path : String) (v : Value) : Except (List Invalid) (Option (List String)) :=
  match v with
  | .null => .ok none
  | .arr items => some <$> textList path items
  | _ => .error [⟨[.inl path], .noList⟩]

/-- **The options with the given fields.** The command names stand under one of two keys; where both
are given, the second is an option like any other. The names of the options have to be characters,
and where one is not, nothing is said of the command names. -/
def ofFields (fields : List (String × Value)) : Checked CommandOptions :=
  let key := if (fields.lookup "supportedCommands").isSome then "supportedCommands"
    else "supported_commands"
  let others := fields.filter fun f => f.1 ≠ key
  if others.any fun f => Text.hasHalf f.1 then .error (.invalid [⟨[], .noCharacters⟩])
  else
    match fields.lookup key with
    | none => .ok ⟨none, others⟩
    | some v =>
      match supportedIn key v with
      | .ok supported => .ok ⟨supported, others⟩
      | .error problems => .error (.invalid problems)

end CommandOptions

/-- The value of a command option. -/
def commandOptionValue (value : Value) : Checked Value := do
  if !value.hasTag "ArrayExpression" then return .arr []
  let values ← elementValues value
  if values.all fun v => v.str?.isSome then return .arr values
  else throw (.about .commandOptionsNoLiteral value)

/-- A key that has to be a text. -/
def textKey : Scalar → Checked String
  | .str s => .ok s
  | _ => .error (.misfit .kind)

/-- **The options of the commands call**, if it was passed any. -/
def commandOptions (expression : Value) : Checked (Option CommandOptions) := do
  if expression.isNull then return none
  let options ← (← objectProperties .commandOptionsNoLiteral expression).foldlM
    (fun (options : Table Value) (name, value) => do
      let v ← commandOptionValue value
      return options.set (← name.key) v) []
  let fields ← options.mapM fun (k, v) => do return (← textKey k, v)
  return some (← CommandOptions.ofFields fields)

end ComponentSpec
