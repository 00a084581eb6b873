import ComponentSpec.Annotate
import ComponentSpec.Schema.Component

/-!
# Commands

A command is a function whose first parameter is a reference to the component and which returns
nothing. The further parameters are of basic types, or arrays of them.

* `signature` — the parameters and the return type of a member;
* `commandOf` — the schema entry of a member;
* `commandsOf` — the entries of all members.
-/

namespace ComponentSpec

/-- The function that a member of the commands interface is: itself, or the type of a property. -/
def commandFunction (member : Value) : Checked Value := do
  let function ←
    if member.hasTag "TSMethodSignature" then pure member
    else if member.hasTag "TSPropertySignature" then
      Prod.fst <$> member.memberType.splitNullable
    else pure .null
  if function.hasTagIn ["TSMethodSignature", "TSFunctionType"] then return function
  else throw (.about (.commandNoFunction member.keyName) member)

/-- **The parameters and the return type of a function,** each of which stands under one of two
names. -/
def signature (function : Value) : Value × Value :=
  let parameters := function.get "parameters"
  let parameters := if parameters.isNull then function.get "params" else parameters
  let returns :=
    if function.hasKey "typeAnnotation" then function.memberType
    else function.get "returnType"
  (parameters, returns.withoutWrapper)

/-- The annotation of a parameter. -/
def typeOfParam (param : Value) : Checked Value :=
  Value.withoutWrapper <$> param.entry "typeAnnotation"

/-- Whether a parameter is a reference to the component. -/
def isRefParam (param : Value) : Checked Bool := do
  let node ← typeOfParam param
  return node.hasTag "TSTypeReference"
    && (node.get "typeName").qualifiedName.isOneOf ["React.ElementRef", "ElementRef"]
    && node.typeArguments.length = 1

/-- The parameters after the reference to the component; nothing if it is missing. -/
def paramsAfterRef? (parameters : Value) : Checked (Option (List Value)) := do
  if !parameters.truthy then return none
  if ← isRefParam (← parameters.first) then return some (parameters.listOrEmpty.drop 1)
  else return none

/-- The type that decides whether a parameter is allowed: the element of an array, or the type
itself. -/
def SchemaType.elementOrSelf : SchemaType → SchemaType
  | .array element => element
  | type => type

def SchemaType.isBasic : SchemaType → Bool
  | .basic .. => true
  | _ => false

/-- **The entry of a parameter.** -/
def paramOf (types : Declarations) (command param : Value) : Checked (Entry SchemaType) := do
  let name ← param.entry "name"
  let type ← annotate types ⟨name, false, false, none, false⟩ [] (← typeOfParam param)
  if type.elementOrSelf.isBasic then
    return ⟨name, (param.get "optional").truthy, type⟩
  else throw (.about (.paramType command name type.elementOrSelf.tag) param)

/-- **The entry of a command.** -/
def commandOf (types : Declarations) (member : Value) : Checked Command := do
  let name := member.keyName
  let (parameters, returns) := signature (← commandFunction member)
  match ← paramsAfterRef? parameters with
  | none => throw (.about (.commandNoRef name) member)
  | some params =>
    if !returns.hasTag "TSVoidKeyword" then
      throw (.about (.commandReturns name returns.tag) member)
    return ⟨name, ← params.mapM (paramOf types name)⟩

/-- **The commands of a list of members.** -/
def commandsOf (types : Declarations) (members : List Value) : Checked (List Command) :=
  members.mapM (commandOf types)

end ComponentSpec
