import ComponentSpec.Schema.SchemaType

/-!
# Component schemas

* `ComponentSchema` — what is known of a component once its spec file is resolved;
* `ComponentRecord` — the same as a record of documents, the form in which schemas are passed on;
* `ComponentSchema.toRecord`, `ComponentRecord.toValue` — the way out.
-/

namespace ComponentSpec

/-- The groups of props that a component can inherit. -/
inductive InheritedGroup where
  | coreView
deriving DecidableEq, Inhabited

/-- Whether an event travels up the view tree. -/
inductive Bubbling where
  | bubble
  | direct
deriving DecidableEq, Inhabited

/-- **An event.** The payload is an object type; an event without one carries nothing. -/
structure Event where
  name : Value
  optional : Bool
  bubbling : Bubbling
  paperName : Option String
  payload : Option (List (Entry SchemaType))
deriving Inhabited

/-- **A command**, with its parameters after the component reference. -/
structure Command where
  name : Value
  params : List (Entry SchemaType)
deriving Inhabited

/-- **The schema of a component.** -/
structure ComponentSchema where
  name : String
  options : Option (Table Value)
  inherited : List InheritedGroup
  events : List Event
  props : List (Entry SchemaType)
  commands : List Command
  state : Option (List (Entry SchemaType))
deriving Inhabited

/-- **A schema as a record of documents.** -/
structure ComponentRecord where
  filename : String
  name : String
  options : Value
  inherited : List Value
  events : List Value
  props : List Value
  commands : List Value
  state : Option Value
deriving Inhabited

def InheritedGroup.typeName : InheritedGroup → String
  | .coreView => "ReactNativeCoreViewProps"

def InheritedGroup.toValue (g : InheritedGroup) : Value :=
  .record [("type", "ReactNativeBuiltInType"), ("knownTypeName", .str g.typeName)]

def Bubbling.name : Bubbling → String
  | .bubble => "bubble"
  | .direct => "direct"

def Event.toValue (e : Event) : Value :=
  let payload := match e.payload with
    | some properties => [("argument", (SchemaType.object properties).toValue)]
    | none => []
  let paperName := match e.paperName with
    | some name => [("paperTopLevelNameDeprecated", .str name)]
    | none => []
  .record ([("name", e.name), ("optional", .bool e.optional),
    ("bubblingType", .str e.bubbling.name)] ++ paperName
    ++ [("typeAnnotation", .record (("type", "EventTypeAnnotation") :: payload))])

def Command.toValue (c : Command) : Value :=
  Entry.toValue c.name false (.record
    [("type", "FunctionTypeAnnotation"),
     ("params", .arr (SchemaType.entryValues c.params)),
     ("returnTypeAnnotation", .record [("type", "VoidTypeAnnotation")])])

def stateValue (properties : List (Entry SchemaType)) : Value :=
  .record [("properties", .arr (SchemaType.entryValues properties))]

/-- **The record of a schema.** It is filed under the name of its component. -/
def ComponentSchema.toRecord (s : ComponentSchema) : ComponentRecord where
  filename := s.name
  name := s.name
  options := .ofOption (s.options.map .obj)
  inherited := s.inherited.map InheritedGroup.toValue
  events := s.events.map Event.toValue
  props := SchemaType.entryValues s.props
  commands := s.commands.map Command.toValue
  state := s.state.map stateValue

/-- **The document of a record.** The state has an entry only where there is one. -/
def ComponentRecord.toValue (r : ComponentRecord) : Value :=
  let state := match r.state with
    | some v => [("state", v)]
    | none => []
  .record ([("filename", .str r.filename), ("componentName", .str r.name), ("options", r.options),
    ("extendsProps", .arr r.inherited), ("events", .arr r.events), ("props", .arr r.props),
    ("commands", .arr r.commands)] ++ state)

end ComponentSpec
