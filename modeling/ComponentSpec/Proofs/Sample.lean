import ComponentSpec.Declarations

/-!
# Trees in short

Nodes of a syntax tree as a parser writes them, for statements about concrete files.

* `Sample.property`, `Sample.reference`, `Sample.literal`, … — annotations and members;
* `Sample.interfaceNamed`, `Sample.aliasNamed`, `Sample.commandsExport` — declarations;
* `Sample.table` — the declared types of a file;
* `Sample.file` — a file with one component.
-/

namespace ComponentSpec.Sample

def node (tag : String) (fields : List (String × Value)) : Value :=
  .record (("type", .str tag) :: fields)

def identifier (name : String) : Value := node "Identifier" [("name", .str name)]

def keyword (tag : String) : Value := node tag []

def reference (name : String) (arguments : List Value) : Value :=
  node "TSTypeReference" [("typeName", identifier name),
    ("typeParameters", node "TSTypeParameterInstantiation" [("params", .arr arguments)])]

def heritage (name : String) : Value :=
  node "TSExpressionWithTypeArguments" [("expression", identifier name)]

def arrayOf (element : Value) : Value := node "TSArrayType" [("elementType", element)]

def literal (members : List Value) : Value := node "TSTypeLiteral" [("members", .arr members)]

/-- The type of one literal, whose node has the given tag and value. -/
def literalType (tag : String) (value : Value) : Value :=
  node "TSLiteralType" [("literal", node tag [("value", value)])]

def unionWith (members : List Value) : Value := node "TSUnionType" [("types", .arr members)]

def property (name : String) (type : Value) : Value :=
  node "TSPropertySignature" [("key", identifier name),
    ("typeAnnotation", node "TSTypeAnnotation" [("typeAnnotation", type)])]

def interfaceNamed (name : String) (extended : List Value) (members : List Value) : Value :=
  node "TSInterfaceDeclaration" [("id", identifier name), ("extends", .arr extended),
    ("body", node "TSInterfaceBody" [("body", .arr members)])]

def aliasNamed (name : String) (type : Value) : Value :=
  node "TSTypeAliasDeclaration" [("id", identifier name), ("typeAnnotation", type)]

/-- A parameter with a name and a type. -/
def parameter (name : String) (type : Value) : Value :=
  node "Identifier" [("name", .str name),
    ("typeAnnotation", node "TSTypeAnnotation" [("typeAnnotation", type)])]

/-- The type of a command with parameters after the reference to its component. -/
def commandType (parameters : List Value) : Value :=
  let ref := parameter "viewRef" (reference "ElementRef" [reference "View" []])
  node "TSFunctionType" [("parameters", .arr (ref :: parameters)),
    ("typeAnnotation", node "TSTypeAnnotation" [("typeAnnotation", keyword "TSVoidKeyword")])]

/-- The export of the commands of an interface, with the names that are listed for them. -/
def commandsExport (interface : String) (listed : List String) : Value :=
  let texts := listed.map fun name => node "StringLiteral" [("value", .str name)]
  let options := node "ObjectExpression" [("properties", .arr [
    node "ObjectProperty" [("key", identifier "supportedCommands"),
      ("value", node "ArrayExpression" [("elements", .arr texts)])]])]
  let call := node "CallExpression" [("callee", identifier "codegenNativeCommands"),
    ("typeParameters",
      node "TSTypeParameterInstantiation" [("params", .arr [reference interface []])]),
    ("arguments", .arr [options])]
  node "ExportNamedDeclaration" [("declaration", node "VariableDeclaration" [
    ("declarations", .arr [node "VariableDeclarator" [("init", call)]])])]

/-- A file with the given declarations, whose component has a name and a props type. -/
def file (declarations : List Value) (component propsType : String) : Value :=
  let call := node "CallExpression" [("callee", identifier "codegenNativeComponent"),
    ("typeParameters",
      node "TSTypeParameterInstantiation" [("params", .arr [reference propsType []])]),
    ("arguments", .arr [node "StringLiteral" [("value", .str component)]])]
  node "File" [("program", node "Program" [("body",
    .arr (declarations ++ [node "ExportDefaultDeclaration" [("declaration", call)]]))])]

/-- The declared types with the given declarations, by name. -/
def table (declarations : List (String × Value)) : Declarations :=
  declarations.map fun d => (.str d.1, d.2)

/-! ### Reading them -/

@[simp] theorem hasTag_node (tag tag' : String) (fields : List (String × Value)) :
    (node tag fields).hasTag tag' = (tag == tag') := by
  simp [node, Value.record, Value.hasTag, Value.tag, Value.get, Table.find?_cons, Value.isText]

@[simp] theorem identifierName_identifier (name : String) :
    (identifier name).identifierName = .str name := by
  rw [Value.identifierName, identifier, if_pos (by simp)]
  rfl

@[simp] theorem referenceName_reference (name : String) (arguments : List Value) :
    (reference name arguments).referenceName = .str name := by
  rw [Value.referenceName, reference, if_pos (by simp)]
  exact identifierName_identifier name

theorem keyName_property (name : String) (type : Value) :
    (property name type).keyName = .str name := by
  have key : (property name type).get "key" = identifier name := rfl
  simp [Value.keyName, key, Value.isNull]

theorem memberType_property (name : String) (type : Value) :
    (property name type).memberType = type := rfl

@[simp] theorem referenceName_heritage (name : String) :
    (heritage name).referenceName = .str name := by
  rw [Value.referenceName, if_neg (by simp [heritage]), if_pos (by rfl)]
  exact identifierName_identifier name

end ComponentSpec.Sample
