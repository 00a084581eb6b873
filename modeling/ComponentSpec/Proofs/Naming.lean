import ComponentSpec.Proofs.Commands
import ComponentSpec.Proofs.Levels

/-!
# Names of entries

A member of an object type is only typed if it has a name (`memberSite`), so props, state members
and whatever is nested in a type are named, at any depth (`named_of_annotate_eq_ok`): one level
names its members, and what is inside them is named by the level below (`levelWise_named`).

Events, commands and parameters are not checked: their names are those of their members and of the
parameters as they are declared, and `null` where these have none. `componentSchema_names` says
both.

* `SchemaType.Named`, `Entry.Named` — types and entries with names everywhere inside;
* `levelWise_named`, `named_of_annotate_eq_ok` — typing names what is inside;
* `componentSchema_names` — which names of a schema are there.
-/

namespace ComponentSpec

open Checked

variable {types : Declarations} {slot : Slot} {path : List Scalar} {node member : Value}
  {members : List Value} {type : SchemaType} {withDefaults : Bool}

/-! ### Types with names inside -/

/-- **A type in which every member has a name,** at any depth. -/
inductive SchemaType.Named : SchemaType → Prop where
  | basic (type : BasicType) (default : Option Value) : Named (.basic type default)
  | stringEnum (options : List String) (default : Option Value) :
      Named (.stringEnum options default)
  | int32Enum (options : List Int) (default : Option Value) : Named (.int32Enum options default)
  | reserved (primitive : Primitive) : Named (.reserved primitive)
  | mixed : Named .mixed
  | array {element : SchemaType} (inside : element.Named) : Named (.array element)
  | object {properties : List (Entry SchemaType)}
      (named : ∀ entry ∈ properties, entry.name.isNull = false)
      (inside : ∀ entry ∈ properties, entry.type.Named) : Named (.object properties)

/-- **An entry with a name,** and with names everywhere inside. -/
structure Entry.Named (entry : Entry SchemaType) : Prop where
  named : entry.name.isNull = false
  inside : entry.type.Named

theorem SchemaType.named_object {properties : List (Entry SchemaType)} :
    (SchemaType.object properties).Named ↔ ∀ entry ∈ properties, entry.Named := by
  constructor
  · intro h
    cases h with
    | object named inside => exact fun entry hentry => ⟨named entry hentry, inside entry hentry⟩
  · intro h
    exact .object (fun entry hentry => (h entry hentry).named)
      (fun entry hentry => (h entry hentry).inside)

/-! ### Typing names what is inside -/

theorem named_of_enumType (h : enumType slot node = .ok type) : type.Named := by
  rcases (enumType_eq_ok h).2 with ⟨texts, rfl⟩ | ⟨ints, rfl⟩
  · exact .stringEnum texts slot.default
  · exact .int32Enum ints slot.default

/-- **One level names its members,** if what is inside them is named. -/
theorem levelWise_named : LevelWise fun _ type => type.Named where
  leaf slot type leaf := by
    cases leaf with
    | basic type => exact .basic type _
    | reserved primitive => exact .reserved primitive
    | mixed => exact .mixed
    | union typed => exact named_of_enumType typed
  array _ _ _ inside := .array inside
  object _ entries members := by
    refine SchemaType.named_object.2 fun entry hentry => ?_
    obtain ⟨member, inner, site, name, -, inside⟩ := members entry hentry
    exact ⟨name ▸ site.present, inside⟩

/-- **Typing names what is inside,** at any depth. -/
theorem named_of_annotate_eq_ok (h : annotate types slot path node = .ok type) : type.Named :=
  levelWise_named.of_annotate_eq_ok h

theorem named_of_entryOf_eq_ok {entry : Entry SchemaType}
    (h : entryOf types withDefaults member = .ok entry) : entry.Named := by
  obtain ⟨inner, site, name, -, inside⟩ := levelWise_named.of_entryOf_eq_ok h
  exact ⟨name ▸ site.present, inside⟩

/-! ### The names of a schema -/

/-- **A schema whose object types have names everywhere:** its props, its state, and the payloads of
its events. -/
structure ComponentSchema.MembersNamed (schema : ComponentSchema) : Prop where
  props : ∀ entry ∈ schema.props, entry.Named
  state : ∀ entries, schema.state = some entries → ∀ entry ∈ entries, entry.Named
  payloads : ∀ event ∈ schema.events, ∀ entries, event.payload = some entries →
    ∀ entry ∈ entries, entry.Named

/-- **A schema in which every entry has a name.** -/
structure ComponentSchema.EveryNamed (schema : ComponentSchema) : Prop extends
    schema.MembersNamed where
  events : ∀ event ∈ schema.events, event.name.isNull = false
  commands : ∀ command ∈ schema.commands, command.name.isNull = false
  params : ∀ command ∈ schema.commands, ∀ entry ∈ command.params, entry.Named

/-- **Members and parameters whose names can be read,** where no step checks that they can. -/
structure Readable (members commandMembers : List Value) : Prop where
  events : ∀ m ∈ members, m.isEventMember → m.keyName.isNull = false
  commands : ∀ m ∈ commandMembers, m.keyName.isNull = false
  params : ∀ m ∈ commandMembers, ∀ function ref params, commandFunction m = .ok function →
    (signature function).1 = .arr (ref :: params) → ∀ p ∈ params, (p.get "name").isNull = false

theorem named_of_payloadOf_eq_ok {name : Value} {entries : List (Entry SchemaType)}
    (h : payloadOf types name node = .ok (some entries)) : ∀ entry ∈ entries, entry.Named := by
  rw [payloadOf] at h
  split at h
  · cases h
  · obtain ⟨type, typed, h⟩ := bind_eq_ok.1 h
    split at h
    · cases h
      exact SchemaType.named_object.1 (named_of_annotate_eq_ok typed)
    · cases h

theorem named_of_assembleState_eq_ok {stateType : String} {entries : List (Entry SchemaType)}
    (h : assembleState Resolver.standard types stateType = .ok (some entries)) :
    ∀ entry ∈ entries, entry.Named := by
  rw [assembleState] at h
  split at h
  · cases h
  · obtain ⟨members, -, h⟩ := bind_eq_ok.1 h
    obtain ⟨read, hread, h⟩ := bind_eq_ok.1 h
    cases h
    intro entry hentry
    obtain ⟨member, -, hmember⟩ := exists_mem_of_mem_mapM hread hentry
    exact named_of_entryOf_eq_ok hmember

theorem ParamOf.named_iff {command param : Value} {entry : Entry SchemaType}
    (h : ParamOf types command param entry) :
    (param.get "name").isNull = false ↔ entry.Named := by
  rw [← h.named]
  refine ⟨fun named => ⟨named, ?_⟩, Entry.Named.named⟩
  obtain ⟨basic, default, h | h⟩ := h.basic <;> rw [h]
  · exact .basic basic default
  · exact .array (.basic basic default)

/-- The parameters of a command are named if those of its function are. -/
theorem CommandOf.params_named_iff {command : Command} (h : CommandOf types member command) :
    (∀ function ref params, commandFunction member = .ok function →
      (signature function).1 = .arr (ref :: params) → ∀ p ∈ params, (p.get "name").isNull = false) ↔
      ∀ entry ∈ command.params, entry.Named := by
  obtain ⟨function, ref, params, hfunction, listed, -, read⟩ := h.params
  have named : (∀ p ∈ params, (p.get "name").isNull = false) ↔
      ∀ entry ∈ command.params, entry.Named :=
    forall_mem_iff_of_forall₂ read fun _ _ => ParamOf.named_iff
  rw [← named]
  constructor
  · intro all
    exact all function ref params hfunction listed
  · intro all function' ref' params' hfunction' listed'
    -- a member has one function, with one list of parameters
    cases hfunction.symm.trans hfunction'
    cases listed.symm.trans listed'
    exact all

theorem Assembled.membersNamed {tree : Value} {schema : ComponentSchema} {blueprint : Blueprint}
    {own : List Value} (assembled : Assembled tree schema blueprint types members own)
    (state : assembleState Resolver.standard types blueprint.stateType = .ok schema.state) :
    schema.MembersNamed := by
  refine ⟨?_, ?_, ?_⟩
  · refine forall_mem_of_forall₂ assembled.props_forall₂ fun m entry read => ?_
    exact named_of_entryOf_eq_ok (entryOf_of_propOfMember?_eq_ok read)
  · intro entries given
    rw [given] at state
    exact named_of_assembleState_eq_ok state
  · refine forall_mem_of_forall₂ assembled.events_forall₂ fun m event read entries given => ?_
    obtain ⟨node, payload⟩ := (eventOfMember?_eq_ok read).payload
    rw [given] at payload
    exact named_of_payloadOf_eq_ok payload

/-- **Which names of a schema are there.** Props, state members and payloads are named, at any
depth; events, commands and parameters have the names of their sources. So every entry has a name
exactly if these sources have. -/
theorem componentSchema_names {tree : Value} {schema : ComponentSchema}
    (h : componentSchema tree = .ok schema) :
    ∃ blueprint types members own options commandMembers,
      Assembled tree schema blueprint types members own ∧
      Completed types blueprint schema options commandMembers ∧
      schema.MembersNamed ∧ (schema.EveryNamed ↔ Readable members commandMembers) := by
  obtain ⟨blueprint, types, members, own, assembled⟩ := assembled_of_componentSchema h
  obtain ⟨options, commandMembers, completed⟩ := assembled.completed h
  refine ⟨blueprint, types, members, own, options, commandMembers, assembled, completed, ?_⟩
  have membersNamed := assembled.membersNamed completed.state
  have commands := commandsOf_eq_ok completed.commands
  have events_iff : (∀ m ∈ members.filter fun m => m.hasTag "TSPropertySignature" &&
      m.isEventMember, m.keyName.isNull = false) ↔
      ∀ event ∈ schema.events, event.name.isNull = false :=
    forall_mem_iff_of_forall₂ assembled.events_forall₂ fun m event read => by
      rw [(eventOfMember?_eq_ok read).named]
  have commands_iff : (∀ m ∈ commandMembers, m.keyName.isNull = false) ↔
      ∀ command ∈ schema.commands, command.name.isNull = false :=
    forall_mem_iff_of_forall₂ commands fun m command read => by rw [read.named]
  have params_iff := forall_mem_iff_of_forall₂ commands fun m command read =>
    read.params_named_iff
  refine ⟨membersNamed, ?_, ?_⟩
  · intro all
    refine ⟨fun m hm event => ?_, commands_iff.2 all.commands, params_iff.2 all.params⟩
    refine events_iff.2 all.events m (List.mem_filter.2 ⟨hm, ?_⟩)
    rw [hasTag_of_isEventMember event, event]
    rfl
  · intro readable
    refine ⟨membersNamed, events_iff.1 fun m hm => ?_, commands_iff.1 readable.commands,
      params_iff.1 readable.params⟩
    obtain ⟨mem, kept⟩ := List.mem_filter.1 hm
    exact readable.events m mem (Bool.and_eq_true_iff.1 kept).2

namespace Sample

/-- An event under a numeric key, which has no name. -/
def numericEvent : Value :=
  Sample.node "TSPropertySignature" [("key", Sample.node "NumericLiteral" [("value", .int 1)]),
    ("typeAnnotation", Sample.node "TSTypeAnnotation"
      [("typeAnnotation", reference "DirectEventHandler" [keyword "TSNullKeyword"])])]

def numericProps : Value := interfaceNamed "Props" [] [numericEvent]

def numericFile : Value := file [numericProps] "Button" "Props"

/-- The schema of the file, with an event that has no name. -/
theorem exists_componentSchema_numericFile : ∃ schema, componentSchema numericFile = .ok schema ∧
    ∃ event ∈ schema.events, event.name = .null := by
  have located : Blueprint.locate numericFile = .ok ⟨"Button", "Props", "", none, none, none⟩ := by
    with_unfolding_all rfl
  have declared : Declarations.ofTree numericFile = .ok (table [("Props", numericProps)]) := by
    with_unfolding_all rfl
  have expanded : membersOf (table [("Props", numericProps)]) (.str "Props") =
      .ok [numericEvent] :=
    membersOf_eq_ok.2 ⟨_, _, .ofInterface rfl rfl rfl rfl, .property rfl .nil⟩
  simp only [componentSchema_eq, located, declared, ok_bind, schemaOf, expanded]
  exact ⟨_, by with_unfolding_all rfl, _, List.mem_cons_self, by with_unfolding_all rfl⟩

end Sample

open Sample in
theorem componentSchema_names_numeric : ∃ schema, componentSchema numericFile = .ok schema ∧
    schema.MembersNamed := by
  obtain ⟨schema, h, -⟩ := exists_componentSchema_numericFile
  obtain ⟨_, _, _, _, _, _, -, -, membersNamed, -⟩ := componentSchema_names h
  exact ⟨schema, h, membersNamed⟩

/-- Not every entry is named, since the names of events are not checked. -/
theorem not_everyNamed_numeric :
    ¬ ∀ tree schema, componentSchema tree = .ok schema → schema.EveryNamed := by
  intro claim
  obtain ⟨schema, h, event, hevent, unnamed⟩ := Sample.exists_componentSchema_numericFile
  have named := (claim Sample.numericFile schema h).events event hevent
  rw [unnamed] at named
  cases named

end ComponentSpec
