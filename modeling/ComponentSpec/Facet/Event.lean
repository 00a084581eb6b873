import ComponentSpec.Annotate
import ComponentSpec.Schema.Component

/-!
# Events, props and state

An event is a property typed by one of two handlers, which name the payload and perhaps the event's
name on the old renderer; every other property is a prop. State members are typed like props.

* `eventHandler?`, `isEvent` — which properties are events;
* `eventOf` — the schema entry of an event;
* `eventsOf`, `propsOf`, `stateOf` — the facets of a list of members.
-/

namespace ComponentSpec

/-- The handlers of events. -/
def handlerKind? : Scalar → Option Bubbling
  | .str "BubblingEventHandler" => some .bubble
  | .str "DirectEventHandler" => some .direct
  | _ => none

/-- **The handler that an annotation refers to,** nullable or not, and its kind. -/
def eventHandler? (node : Value) : Checked (Option (Value × Bubbling)) := do
  let (node, _) ← node.splitNullable
  if node.hasTag "TSTypeReference" then
    return (handlerKind? (← node.referenceName.key)).map (node, ·)
  else return none

/-- Whether a property is an event. -/
def isEvent (member : Value) : Checked Bool :=
  if member.hasTag "TSPropertySignature" then
    Option.isSome <$> eventHandler? member.memberType
  else .ok false

/-- The payload of an event: the members of an object type, or none for `null`. -/
def payloadOf (types : Declarations) (name type : Value) :
    Checked (Option (List (Entry SchemaType))) := do
  if type.hasTag "TSNullKeyword" then return none
  match ← annotate types ⟨name, false, false, none, false⟩ [] type with
  | .object properties => return some properties
  | other => throw (.about (.eventPayload name other.tag) type)

/-- **The schema entry of an event,** given its handler. -/
def eventOf (types : Declarations) (member handler : Value) (bubbling : Bubbling) :
    Checked Event := do
  let name := member.keyName
  let (_, nullable) ← member.memberType.splitNullable
  match handler.typeArguments with
  | [] => throw (.about (.eventNoPayload name) handler)
  | payload :: more =>
    let paperName ← match more with
      | [] => pure none
      | literal :: _ =>
        match literal.typeLiteral? with
        | some (.str s) => pure (some s)
        | _ => throw (.about (.eventPaperName name) literal)
    return {
      name
      optional := (member.get "optional").truthy || nullable
      bubbling
      paperName
      payload := ← payloadOf types name payload }

/-- The entry of a member that is an event. -/
def eventOfMember? (types : Declarations) (member : Value) : Checked (Option Event) := do
  if !member.hasTag "TSPropertySignature" then return none
  match ← eventHandler? member.memberType with
  | some (handler, bubbling) => return some (← eventOf types member handler bubbling)
  | none => return none

/-- **The events among the members.** -/
def eventsOf (types : Declarations) (members : List Value) : Checked (List Event) :=
  List.filterMap id <$> members.mapM (eventOfMember? types)

/-- The entry of a member that is no event. -/
def propOfMember? (types : Declarations) (member : Value) :
    Checked (Option (Entry SchemaType)) := do
  if ← isEvent member then return none
  return some (← entryOf types true member)

/-- **The props among the members.** -/
def propsOf (types : Declarations) (members : List Value) : Checked (List (Entry SchemaType)) :=
  List.filterMap id <$> members.mapM (propOfMember? types)

/-- **The state with the given members.** -/
def stateOf (types : Declarations) (members : List Value) : Checked (List (Entry SchemaType)) :=
  members.mapM (entryOf types true)

end ComponentSpec
