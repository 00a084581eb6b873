import ComponentSpec.Fault

/-!
# Nodes of a syntax tree

A node is an object with a tag under `type`. The accessors here read one thing off a node each and
answer `null`, nothing or an empty list where the node does not have the expected shape, so that a
statement can be probed for a pattern without a fault.

Names are values: a damaged tree can hold anything in the place of a name, and it is carried along
until a step needs a text or a key.

* `Value.tag` — the tag of a node;
* `Value.identifierName`, `Value.referenceName`, `Value.keyName`, `Value.declarationName` — names;
* `Value.literal?` — the value of a literal;
* `Value.elements` — what is run through where a node should hold a list.
-/

namespace ComponentSpec.Value

/-- The tag of a node, `null` for what is no node. -/
def tag (node : Value) : Value := node.get "type"

def hasTag (tag : String) (node : Value) : Bool := node.tag.isText tag

def hasTagIn (tags : List String) (node : Value) : Bool := node.tag.isOneOf tags

theorem hasTag_iff {tag : String} {node : Value} : node.hasTag tag ↔ node.tag = .str tag :=
  isText_iff

theorem hasTagIn_iff {tags : List String} {node : Value} :
    node.hasTagIn tags ↔ ∃ tag ∈ tags, node.hasTag tag := by
  simp only [hasTagIn, isOneOf_iff, hasTag_iff]

/-- A tag among some is among more. -/
theorem hasTagIn_mono {tags tags' : List String} (sub : tags ⊆ tags') {node : Value}
    (h : node.hasTagIn tags) : node.hasTagIn tags' := by
  obtain ⟨tag, among, tagged⟩ := hasTagIn_iff.1 h
  exact hasTagIn_iff.2 ⟨tag, sub among, tagged⟩

/-- A node has one tag. -/
theorem hasTag_of_hasTag {tag tag' : String} {node : Value} (h : node.hasTag tag) :
    node.hasTag tag' = decide (tag = tag') := by
  rw [Bool.eq_iff_iff, hasTag_iff, hasTag_iff.1 h, decide_eq_true_iff]
  simp

/-- A node has one tag. -/
theorem not_hasTag_of_hasTag {tag tag' : String} {node : Value} (h : node.hasTag tag)
    (other : tag ≠ tag') : ¬ node.hasTag tag' := by
  simp [hasTag_of_hasTag h, other]

theorem hasTagIn_of_hasTag {tag : String} {tags : List String} {node : Value}
    (h : node.hasTag tag) : node.hasTagIn tags = tags.contains tag := by
  simp [hasTagIn, isOneOf, hasTag_iff.1 h]

theorem isObject_of_hasTag {tag : String} {node : Value} (h : node.hasTag tag) : node.isObject := by
  cases node with
  | obj => rfl
  | scalar | arr => simp [hasTag, Value.tag, get, isText] at h

theorem isObject_of_hasTagIn {tags : List String} {node : Value} (h : node.hasTagIn tags) :
    node.isObject := by
  cases node with
  | obj => rfl
  | scalar | arr => simp [hasTagIn, Value.tag, get, isOneOf] at h

/-- The list, or nothing in its place. -/
def listOrEmpty (v : Value) : List Value := v.list?.getD []

theorem weight_lt_of_mem_listOrEmpty {v w : Value} (h : w ∈ v.listOrEmpty) :
    w.weight < v.weight := by
  cases v with
  | arr items =>
    have := weight_le_of_mem (show w ∈ items from h)
    simp [weight]; omega
  | scalar | obj => cases h

/-! ### Running through and looking up -/

/-- **What is run through** where a list is expected: the items of a list, the keys of an object,
the characters of a text; nothing where there is nothing. Other scalars cannot be run through. -/
def elements (v : Value) : Checked (List Value) :=
  if !v.truthy then .ok []
  else match v with
    | .arr items => .ok items
    | .obj entries => .ok (entries.map fun e => .scalar e.1)
    | .str s => .ok ((Text.codes s).map fun code => .str (Text.ofCodes [code]))
    | .scalar _ => .error (.misfit .kind)

@[simp] theorem elements_arr (items : List Value) : (arr items).elements = .ok items := by
  cases items <;> rfl

theorem weight_le_of_mem_elements {v w : Value} {vs : List Value} (h : v.elements = .ok vs)
    (hw : w ∈ vs) : w.weight ≤ v.weight := by
  unfold elements at h
  split at h
  · injection h with h; subst h; cases hw
  · split at h
    · injection h with h; subst h
      have := weight_le_of_mem hw
      simp [weight]; omega
    · injection h with h; subst h
      obtain ⟨e, _, rfl⟩ := List.mem_map.1 hw
      simp [weight]; omega
    · injection h with h; subst h
      obtain ⟨c, _, rfl⟩ := List.mem_map.1 hw
      simp [weight]
    · cases h

/-- The first of what would be run through; objects and numbers have no first. -/
def first (v : Value) : Checked Value :=
  match v with
  | .arr (item :: _) => .ok item
  | .arr [] => .error (.misfit .entry)
  | .obj _ => .error (.misfit .entry)
  | .str s => match Text.codes s with
    | code :: _ => .ok (.str (Text.ofCodes [code]))
    | [] => .error (.misfit .entry)
  | .scalar _ => .error (.misfit .kind)

/-- The value as a key. Lists and objects cannot be looked up. -/
def key : Value → Checked Scalar
  | .scalar s => .ok s
  | _ => .error (.misfit .kind)

theorem key_eq_ok {v : Value} {s : Scalar} : v.key = .ok s ↔ v = .scalar s := by
  cases v <;> simp [key]

/-- An entry of what has to be an object. -/
def entry (v : Value) (key : String) : Checked Value :=
  if v.isObject then .ok (v.get key) else .error (.misfit .member)

/-! ### The program -/

/-- The top-level statements of a file. -/
def programBody (tree : Value) : List Value :=
  let program := if tree.hasTag "File" then tree.get "program" else tree
  (program.get "body").listOrEmpty

/-! ### Names -/

/-- The name of an identifier, or the last name of a qualified one. -/
def identifierName (node : Value) : Value :=
  if node.hasTag "Identifier" then node.get "name"
  else if _h : node.hasTag "TSQualifiedName" then identifierName (node.get "right")
  else .null
  termination_by node.weight
  decreasing_by exact weight_get_lt (isObject_of_hasTag ‹_›) _

/-- The whole name of an identifier or a qualified one, with points between its parts. -/
def qualifiedName (node : Value) : Value :=
  if node.hasTag "Identifier" then node.get "name"
  else if _h : node.hasTag "TSQualifiedName" then
    let left := qualifiedName (node.get "left")
    let right := (node.get "right").identifierName
    if left.truthy && right.truthy then .str (left.shown ++ "." ++ right.shown) else .null
  else .null
  termination_by node.weight
  decreasing_by exact weight_get_lt (isObject_of_hasTag ‹_›) _

/-- The tags of nodes that refer to a type by its name. -/
def referenceTags : List String :=
  ["TSTypeReference", "TSExpressionWithTypeArguments", "TSInterfaceHeritage"]

/-- The name of the type that a reference or an extends clause refers to. -/
def referenceName (node : Value) : Value :=
  if node.hasTag "TSTypeReference" then (node.get "typeName").identifierName
  else if node.hasTagIn ["TSExpressionWithTypeArguments", "TSInterfaceHeritage"] then
    (node.get "expression").identifierName
  else .null

/-- The name of a member: an identifier or a literal key. -/
def keyName (member : Value) : Value :=
  let key := member.get "key"
  let name := key.identifierName
  if name.isNull && key.hasTagIn ["StringLiteral", "Literal"] then key.get "value" else name

/-- The name that a declaration binds. -/
def declarationName (declaration : Value) : Value := (declaration.get "id").identifierName

/-! ### Expressions -/

/-- The expression without a cast around it. -/
def withoutCast (expression : Value) : Value :=
  if expression.hasTagIn ["TSAsExpression", "TSSatisfiesExpression"] then
    expression.get "expression"
  else expression

/-- The name of the function that a call calls. -/
def calleeName (call : Value) : Value :=
  if call.hasTag "CallExpression" then (call.get "callee").identifierName else .null

def callArguments (call : Value) : List Value := (call.get "arguments").listOrEmpty

/-- The type arguments of a call or a reference, which stand under one of two names. -/
def typeArguments (node : Value) : List Value :=
  let under := node.get "typeArguments"
  let holder := if under.truthy then under else node.get "typeParameters"
  (holder.get "params").listOrEmpty

theorem weight_lt_of_mem_typeArguments {node w : Value} (h : w ∈ node.typeArguments) :
    w.weight < node.weight := by
  have lt := weight_lt_of_mem_listOrEmpty h
  refine Nat.lt_of_lt_of_le lt (Nat.le_trans (weight_get_le _ _) ?_)
  split <;> exact weight_get_le _ _

/-- The number with its sign changed; nothing for what is no number. -/
def negated? : Value → Option Value
  | .int n => some (.int (-n))
  | .float x => some (.float x.neg)
  | _ => none

/-- **The value of a literal.** A literal `null` has a value, what is no literal has none. -/
def literal? (node : Value) : Option Value :=
  if node.hasTagIn ["StringLiteral", "NumericLiteral", "BooleanLiteral"] then
    some (node.get "value")
  else if node.hasTag "NullLiteral" then some .null
  else if node.hasTag "Literal" then some (node.get "value")
  else if _h : node.hasTag "UnaryExpression" then
    if (node.get "operator").isText "-" then (literal? (node.get "argument")).bind negated?
    else none
  else none
  termination_by node.weight
  decreasing_by exact weight_get_lt (isObject_of_hasTag ‹_›) _

/-! ### Members and declarations -/

/-- A wrapped annotation without its wrapper. -/
def withoutWrapper (node : Value) : Value :=
  if node.hasTag "TSTypeAnnotation" then node.get "typeAnnotation" else node

/-- The annotation of a member. -/
def memberType (member : Value) : Value := (member.get "typeAnnotation").withoutWrapper

/-- The members in the body of an interface, if they can be read. -/
def interfaceMembers (declaration : Value) : Option (List Value) :=
  ((declaration.get "body").get "body").list?

end ComponentSpec.Value
