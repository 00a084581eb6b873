import ComponentSpec.Members
import ComponentSpec.Schema.SchemaType

/-!
# From type annotations to schema types

Props, state members, payloads and parameters are typed by one recursion, `annotate`. It follows
local aliases, reads the form of the annotation behind them, and goes on into the elements of arrays
and the members of object types. A `Slot` says how the annotation is used: for which member, whether
defaults belong into the result, and the default that the member declares.

* `Value.splitNullable` — a union without its `null` and `undefined` members;
* `splitDefault` — a type and the default declared with it;
* `resolveAlias` — the annotation behind local aliases, and the aliases followed;
* `outline` — one level of an annotation: a type, or an array or object still to be filled;
* `step` — the type of an annotation, given how to type what is inside it;
* `annotate` — the type of an annotation.

## The end of the recursion

Local types may refer to each other in circles. The path of local types that enclose an annotation
stops a circle through aliases and interfaces: `resolveAlias` extends it by names not on it, and so
does following an interface. Members inlined from an intersection do not extend the path, so a
circle through an intersection is never met on it. `step` is therefore iterated with a bound on the
depth. Along a descent the path grows at most once for each declared name, and while it stays the
same no node of the documents at hand is typed twice, or it would be typed for ever: `depthBound` is
never reached unless the description has no end, and then `Fault.endless` says so.
-/

namespace ComponentSpec

/-! ### Reading annotations -/

/-- The tags of the union members that stand for no value. -/
def nullableTags : List String := ["TSNullKeyword", "TSUndefinedKeyword"]

/-- The annotation inside any parentheses. -/
def Value.withoutParentheses (node : Value) : Value :=
  if _h : node.hasTag "TSParenthesizedType" then
    (node.get "typeAnnotation").withoutParentheses
  else node
  termination_by node.weight
  decreasing_by exact Value.weight_get_lt (Value.isObject_of_hasTag ‹_›) _

/-- **A union without `null` and `undefined`,** and whether it had them. What is left of a union is
its only member, or a smaller union; an annotation that is not nullable loses only the parentheses
around it. -/
def Value.splitNullable (node : Value) : Checked (Value × Bool) := do
  let node := node.withoutParentheses
  if !node.hasTag "TSUnionType" then return (node, false)
  let members ← (node.get "types").elements
  let remaining := members.filter fun t => !t.hasTagIn nullableTags
  if remaining.length = members.length then return (node, false)
  match remaining with
  | [only] => return (only, true)
  | _ => return (node.put "types" (.arr remaining), true)

/-- The value of a literal type. -/
def Value.typeLiteral? (node : Value) : Option Value :=
  if node.hasTag "TSNullKeyword" then some .null
  else if node.hasTag "TSLiteralType" then (node.get "literal").literal?
  else none

/-- **A type and the default declared with it,** for the member of a name. -/
def splitDefault (name node : Value) : Checked (Value × Option Value) :=
  if node.hasTag "TSTypeReference" && node.referenceName.isText "WithDefault" then
    match node.typeArguments with
    | [type, literal] =>
      match literal.typeLiteral? with
      | some default => .ok (type, some default)
      | none => .error (.about (.defaultNoLiteral name) literal)
    | _ => .error (.about (.withDefaultArity name) node)
  else .ok (node, none)

/-! ### Aliases -/

/-- The alias that an annotation refers to and its declaration, if it is a local one. -/
def aliasOf (types : Declarations) (node : Value) : Checked (Option (Scalar × Value)) := do
  let name := if node.hasTag "TSTypeReference" then node.referenceName else .null
  if !name.truthy then return none
  let name ← name.key
  let declaration := (types.find? name).getD .null
  return if declaration.hasTag "TSTypeAliasDeclaration" then some (name, declaration) else none

theorem has_of_aliasOf {types : Declarations} {node declaration : Value} {name : Scalar}
    (h : aliasOf types node = .ok (some (name, declaration))) : types.has name := by
  unfold aliasOf at h
  generalize (if node.hasTag "TSTypeReference" then node.referenceName else .null) = n
    at h
  cases hn : n.truthy with
  | false => simp [hn, pure, Except.pure] at h
  | true =>
    cases n with
    | arr | obj => simp [hn, Value.key, bind, Except.bind] at h
    | scalar s =>
      simp only [hn, Value.key, bind, Except.bind, pure, Except.pure] at h
      rw [← Table.isSome_find?]
      cases hf : types.find? name with
      | some => rfl
      | none =>
        split at h
        · simp at *
        · injection h with h
          split at h <;> simp at h
          obtain ⟨rfl, rfl⟩ := h
          simp [hf, Value.hasTag, Value.tag, Value.get, Value.isText] at *

/-- **The annotation behind local aliases** and readonly wrappers, and the aliases that were
followed after those already on the way. An alias on the way is not followed again. -/
def resolveAliasFrom (types : Declarations) (followed : List Scalar) (node : Value) :
    Checked (Value × List Scalar) :=
  let inner := node.withoutReadonly
  match _alias : aliasOf types inner with
  | .error f => .error f
  | .ok none => .ok (inner, followed)
  | .ok (some (name, declaration)) =>
    if _back : onPath followed name then .ok (inner, followed)
    else resolveAliasFrom types (followed ++ [name]) (declaration.get "typeAnnotation")
  termination_by namesAhead types followed
  decreasing_by exact namesAhead_append_lt (has_of_aliasOf _alias) _back

/-- The annotation behind local aliases, and the aliases followed. -/
def resolveAlias (types : Declarations) (node : Value) : Checked (Value × List Scalar) :=
  resolveAliasFrom types [] node

/-! ### Forms -/

/-- What kind of type an annotation is, by its tag. -/
inductive Form where
  | basic (type : BasicType)
  | number
  | array
  | object
  | choice
  | reference
  | other
deriving DecidableEq

/-- The form of an annotation. A tag that cannot be looked up has none. -/
def Value.form (node : Value) : Checked Form := do
  match ← node.tag.key with
  | .str "TSBooleanKeyword" => return .basic .boolean
  | .str "TSStringKeyword" => return .basic .string
  | .str "TSNumberKeyword" => return .number
  | .str "TSArrayType" => return .array
  | .str "TSTypeLiteral" => return .object
  | .str "TSIntersectionType" => return .object
  | .str "TSUnionType" => return .choice
  | .str "TSLiteralType" => return .choice
  | .str "TSTypeReference" => return .reference
  | _ => return .other

/-- What a type that the language library provides stands for. -/
inductive LibraryType where
  | basic (type : BasicType)
  | reserved (primitive : Primitive)
  | mixed
  | array
deriving DecidableEq

/-- The types that need no declaration. -/
def libraryType? : Scalar → Option LibraryType
  | .str "Int32" => some (.basic .int32)
  | .str "Double" => some (.basic .double)
  | .str "Float" => some (.basic .float)
  | .str "ColorValue" => some (.reserved .color)
  | .str "ProcessedColorValue" => some (.reserved .color)
  | .str "ImageSource" => some (.reserved .imageSource)
  | .str "PointValue" => some (.reserved .point)
  | .str "EdgeInsetsValue" => some (.reserved .edgeInsets)
  | .str "ImageRequest" => some (.reserved .imageRequest)
  | .str "DimensionValue" => some (.reserved .dimension)
  | .str "UnsafeMixed" => some .mixed
  | .str "ReadonlyArray" => some .array
  | .str "Array" => some .array
  | _ => none

/-! ### Slots -/

/-- **How an annotation is used.** -/
structure Slot where
  /-- The member it belongs to, for messages. -/
  name : Value
  /-- Whether basic types and enums carry a default, as those of props and state do. -/
  withDefaults : Bool
  /-- Whether the member is optional; a boolean that is not is `false` by default. -/
  optional : Bool
  /-- The default declared with the type. -/
  default : Option Value
  /-- Whether it is the element of an array; elements carry no default of their own. -/
  element : Bool
deriving Inhabited

/-- Whether a basic type in this slot carries a default. -/
def Slot.carriesDefault (slot : Slot) : Bool := slot.withDefaults && !slot.element

/-- A basic type in a slot. -/
def Slot.basic (slot : Slot) (type : BasicType) : SchemaType :=
  let fallback : Value := match type with
    | .boolean => if slot.optional then .null else .bool false
    | .string => .null
    | .int32 | .double | .float => .int 0
  .basic type (if slot.carriesDefault then some (slot.default.getD fallback) else none)

/-! ### Enums -/

/-- The literals of a union, or the one of a literal type; none if a member is no literal or
`null`. -/
def choices (node : Value) : Checked (Option (List Value)) := do
  let members ←
    if node.hasTag "TSUnionType" then (node.get "types").elements
    else pure [node]
  return members.mapM fun member => member.typeLiteral?.filter fun v => !v.isNull

/-- The texts in a list of values, if there is nothing else in it. -/
def texts? (options : List Value) : Option (List String) := options.mapM Value.str?

def int? : Value → Option Int
  | .int n => some n
  | _ => none

/-- The enum of a list of literals, which are all texts or all integers. -/
def enumOf (slot : Slot) (node : Value) (options : List Value) :
    Checked (Option Value → SchemaType) :=
  match texts? options with
  | some texts => .ok (.stringEnum texts)
  | none =>
    match options.mapM int? with
    | some ints => .ok (.int32Enum ints)
    | none => .error (.about (.mixedUnion slot.name) node)

/-- Whether two values are the same scalar. Lists and objects are the same as nothing. -/
def Value.sameScalar : Value → Value → Bool
  | .scalar a, .scalar b => a.same b
  | _, _ => false

/-- **The type of a union of literals.** A declared default has to be one of the options. -/
def enumType (slot : Slot) (node : Value) : Checked SchemaType := do
  match ← choices node with
  | none => throw (.about (.unionKind slot.name) node)
  | some options =>
    let enum ← enumOf slot node options
    match slot.default with
    | some default =>
      if options.any fun o => o.sameScalar default then return enum (some default)
      else throw (.about (.defaultNoOption default slot.name options) node)
    | none =>
      if slot.carriesDefault then throw (.about (.enumDefaultMissing slot.name) node)
      else return enum none

/-! ### One level -/

/-- How to type an annotation: its slot, the path of local types around it, and itself. -/
abbrev Annotator := Slot → List Scalar → Value → Checked SchemaType

/-- **What one level of an annotation is,** and the path of local types around what is inside it. -/
inductive Outline where
  /-- A type with nothing inside that is still to be typed. -/
  | leaf (type : SchemaType)
  /-- An array and the annotation of its elements. -/
  | array (path : List Scalar) (element : Value)
  /-- An object and its members. -/
  | object (path : List Scalar) (members : List Value)

/-- The outline of a reference that is no local alias. -/
def referenceOutline (types : Declarations) (slot : Slot) (path : List Scalar) (node : Value) :
    Checked Outline := do
  let reference ← node.referenceName.key
  match libraryType? reference with
  | some (.basic type) => return .leaf (slot.basic type)
  | some (.reserved primitive) => return .leaf (.reserved primitive)
  | some .mixed => return .leaf .mixed
  | some .array =>
    match node.typeArguments with
    | [element] => return .array path element
    | _ => throw (.about (.arrayArity (.scalar reference) slot.name) node)
  | none =>
    if ((types.find? reference).getD .null).hasTag "TSInterfaceDeclaration" then
      if onPath path reference then
        throw (.about (.recursiveType (.scalar reference) slot.name) node)
      else return .object (path ++ [reference]) (← membersOf types reference)
    else throw (.about (.referenceKind (.scalar reference) slot.name) node)

/-- The outline of an annotation that no alias stands in front of, by its form. -/
def formOutline (types : Declarations) (slot : Slot) (path : List Scalar) (node : Value) :
    Checked Outline := do
  match ← node.form with
  | .basic type => return .leaf (slot.basic type)
  | .number => throw (.about (.plainNumber slot.name) node)
  | .array => return .array path (node.get "elementType")
  | .object => return .object path (← flatten types path (← typeMembers slot.name node))
  | .choice => return .leaf (← enumType slot node)
  | .reference => referenceOutline types slot path node
  | .other => throw (.about (.annotationKind node.tag slot.name) node)

/-- **The outline of an annotation.** The aliases in front of it join the path, unless one of them
is on it already. -/
def outline (types : Declarations) (slot : Slot) (path : List Scalar) (node : Value) :
    Checked Outline := do
  let (node, aliases) ← resolveAlias types node
  if let some back := aliases.find? (onPath path) then
    throw (.about (.recursiveType (.scalar back) slot.name) node)
  formOutline types slot (path ++ aliases) node

/-- **The slot and the annotation of a member**, a named property signature. -/
def memberSite (withDefaults : Bool) (member : Value) : Checked (Slot × Value) := do
  let name := member.keyName
  if !member.hasTag "TSPropertySignature" || name.isNull then
    throw (.about (.memberUnnamed member.tag) member)
  let (node, nullable) ← member.memberType.splitNullable
  let (node, default) ←
    if withDefaults then splitDefault name node else pure (node, none)
  let optional := (member.get "optional").truthy || nullable || default.isSome
  return (⟨name, withDefaults, optional, default, false⟩, node)

/-- The slot and the annotation of an array's elements. -/
def elementSite (slot : Slot) (element : Value) : Checked (Slot × Value) := do
  let (node, nullable) ← element.splitNullable
  return ({ slot with optional := nullable, element := true }, node)

/-- **The entry of a member**, given how to type its annotation. -/
def memberEntry (inside : Annotator) (withDefaults : Bool) (path : List Scalar) (member : Value) :
    Checked (Entry SchemaType) := do
  let (slot, node) ← memberSite withDefaults member
  return ⟨slot.name, slot.optional, ← inside slot path node⟩

/-- The type with an outline, given how to type what is inside. -/
def Outline.fill (inside : Annotator) (slot : Slot) : Outline → Checked SchemaType
  | .leaf type => return type
  | .array path element => do
    let (slot, node) ← elementSite slot element
    return .array (← inside slot path node)
  | .object path members =>
    return .object (← members.mapM (memberEntry inside slot.withDefaults path))

/-- **One level of typing.** -/
def step (types : Declarations) (inside : Annotator) : Annotator := fun slot path node => do
  (← outline types slot path node).fill inside slot

/-! ### The recursion -/

/-- `step`, iterated to a depth. -/
def annotateTo (types : Declarations) (depth : Nat) (slot : Slot) (path : List Scalar)
    (node : Value) : Checked SchemaType :=
  match depth with
  | 0 => .error .endless
  | depth + 1 => step types (annotateTo types depth) slot path node

@[simp] theorem annotateTo_zero (types : Declarations) (slot : Slot) (path : List Scalar)
    (node : Value) : annotateTo types 0 slot path node = .error .endless := rfl

theorem annotateTo_succ (types : Declarations) (depth : Nat) :
    annotateTo types (depth + 1) = step types (annotateTo types depth) := rfl

/-- A depth that no description with an end exceeds, for documents of the given weight. -/
def depthBound (types : Declarations) (weight : Nat) : Nat :=
  (types.length + 2) * (Value.weightEntries types + weight + 1)

/-- **The type of an annotation.** -/
def annotate (types : Declarations) : Annotator := fun slot path node =>
  annotateTo types (depthBound types node.weight) slot path node

/-- **The entry of a member.** -/
def entryOf (types : Declarations) (withDefaults : Bool) (member : Value) :
    Checked (Entry SchemaType) :=
  memberEntry (annotate types) withDefaults [] member

end ComponentSpec
