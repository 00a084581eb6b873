import ComponentSpec.Proofs.Commands
import ComponentSpec.Proofs.Levels

/-!
# Which types carry a default

The types of props and state carry defaults: a basic type or an enum that is the type of a member
has one at any depth, a basic type that is the element of an array has none, and nothing else can
have one. The default of a member that is not optional is the blank value of its basic type; an enum
has no blank value, so a member that is an enum is optional. The types of payloads and parameters
carry no default anywhere.

The slot of an annotation knows all that is needed: whether defaults belong into the result, whether
it is an element, and that a declared default makes a member optional. `Furnished` says what a type
looks like in each place, and this goes up level by level.

* `SchemaType.CarriesDefault` — whether a type leaves with a default;
* `SchemaType.Furnished` — a type whose defaults are in their places;
* `DefaultsInPlace`, `NoDefaults` — the same, said of all that is inside;
* `defaults_are_in_place` — the defaults of props, state, events and commands.
-/

namespace ComponentSpec

open Checked

variable {types : Declarations} {slot : Slot} {type : SchemaType}
  {entries : List (Entry SchemaType)} {members : List Value}

/-! ### Carrying a default -/

/-- The default that a type carries itself. -/
def SchemaType.default? : SchemaType → Option Value
  | .basic _ default | .stringEnum _ default | .int32Enum _ default => default
  | _ => none

/-- **A type that leaves with a default of its own.** -/
def SchemaType.CarriesDefault (type : SchemaType) : Prop := type.toValue.hasKey "default"

theorem Value.hasKey_record (entries : List (String × Value)) (key : String) :
    (Value.record entries).hasKey key = entries.any fun e => e.1 = key := by
  simp only [record, hasKey, Table.has, List.any_map, Function.comp_def, Scalar.same_str]

theorem SchemaType.carriesDefault_iff : type.CarriesDefault ↔ type.default?.isSome := by
  rw [CarriesDefault]
  cases type with
  | basic type default | stringEnum options default | int32Enum options default =>
    cases default <;> simp [toValue, Value.hasKey_record, defaultEntry, default?]
  | reserved | mixed | array | object => simp [toValue, Value.hasKey_record, default?]

/-- The basic types and the enums. -/
def SchemaType.takesDefault : SchemaType → Bool
  | .basic .. | .stringEnum .. | .int32Enum .. => true
  | _ => false

def SchemaType.isEnum : SchemaType → Bool
  | .stringEnum .. | .int32Enum .. => true
  | _ => false

/-- What a member of a basic type is if nothing else is said. -/
def BasicType.blank : BasicType → Value
  | .boolean => .bool false
  | .string => .null
  | .int32 | .double | .float => .int 0

/-! ### Defaults in their places -/

/-- Where a type stands: it is that of a member, which is optional or not, or of an element. -/
inductive Position where
  | member (optional : Bool)
  | element

def Slot.position (slot : Slot) : Position :=
  if slot.element then .element else .member slot.optional

/-- **A type whose defaults are in their places.** Enums inside an array have a default if one is
declared. -/
inductive SchemaType.Furnished : Position → SchemaType → Prop where
  | basic {optional : Bool} {type : BasicType} {default : Value}
      (required : optional = false → default = type.blank) :
      Furnished (.member optional) (.basic type (some default))
  | basicElement (type : BasicType) : Furnished .element (.basic type none)
  | stringEnum (options : List String) (default : Value) :
      Furnished (.member true) (.stringEnum options (some default))
  | int32Enum (options : List Int) (default : Value) :
      Furnished (.member true) (.int32Enum options (some default))
  | enumElement {type : SchemaType} (enum : type.isEnum) : Furnished .element type
  | reserved (position : Position) (primitive : Primitive) :
    Furnished position (.reserved primitive)
  | mixed (position : Position) : Furnished position .mixed
  | array {element : SchemaType} (position : Position) (inside : element.Furnished .element) :
      Furnished position (.array element)
  | object {entries : List (Entry SchemaType)} (position : Position)
      (inside : ∀ e ∈ entries, e.type.Furnished (.member e.optional)) :
      Furnished position (.object entries)

/-- **A slot of props or state,** in which a declared default makes a member optional. -/
structure Slot.Furnishes (slot : Slot) : Prop where
  withDefaults : slot.withDefaults = true
  optional : slot.element = false → slot.default.isSome → slot.optional = true

theorem Slot.Furnishes.basic (h : slot.Furnishes) (type : BasicType) :
    (slot.basic type).Furnished slot.position := by
  simp only [Slot.basic, position, Slot.carriesDefault, h.withDefaults]
  cases element : slot.element with
  | true => exact .basicElement type
  | false =>
    refine .basic fun required => ?_
    -- a member that is not optional has no default declared, and gets the blank one
    have undeclared : slot.default = none := by
      by_contra declared
      rw [h.optional element (Option.isSome_iff_ne_none.2 declared)] at required
      cases required
    rw [undeclared, required]
    cases type <;> rfl

theorem Slot.Furnishes.union (h : slot.Furnishes) {node : Value}
    (typed : enumType slot node = .ok type) : type.Furnished slot.position := by
  obtain ⟨called, enum⟩ := enumType_eq_ok typed
  cases element : slot.element with
  | true =>
    rw [position, if_pos element]
    obtain ⟨options, rfl⟩ | ⟨options, rfl⟩ := enum <;> exact .enumElement rfl
  | false =>
    -- a member calls for a default, and having one it is optional
    have declared : ∃ default, slot.default = some default := by
      refine Option.ne_none_iff_exists'.1 fun none => ?_
      have uncalled := called none
      rw [Slot.carriesDefault, h.withDefaults, element] at uncalled
      cases uncalled
    obtain ⟨default, given⟩ := declared
    have optional := h.optional element (by simp [given])
    rw [position, if_neg (by simp [element]), optional]
    rw [given] at enum
    obtain ⟨options, rfl⟩ | ⟨options, rfl⟩ := enum
    · exact .stringEnum options default
    · exact .int32Enum options default

theorem MemberSlot.furnishes {member : Value} (h : MemberSlot true member slot) :
    slot.Furnishes ∧ slot.position = .member slot.optional := by
  refine ⟨⟨h.keepsDefaults, fun _ => h.optional_of_default⟩, ?_⟩
  rw [Slot.position, if_neg (by simp [h.noElement])]

/-- **Defaults are put in their places level by level.** -/
theorem levelWise_furnished :
    LevelWise fun slot type => slot.Furnishes → type.Furnished slot.position where
  leaf slot type leaf h := by
    cases leaf with
    | basic type => exact h.basic type
    | reserved primitive => exact .reserved _ primitive
    | mixed => exact .mixed _
    | union typed => exact h.union typed
  array slot nullable type inside h := .array _ (inside ⟨h.withDefaults, nofun⟩)
  object slot entries inside h := by
    refine .object _ fun e he => ?_
    obtain ⟨member, inner, sited, -, optional, typed⟩ := inside e he
    rw [h.withDefaults] at sited
    obtain ⟨furnishes, position⟩ := sited.furnishes
    rw [optional, ← position]
    exact typed furnishes

theorem furnished_of_entryOf_eq_ok {member : Value} {entry : Entry SchemaType}
    (h : entryOf types true member = .ok entry) :
    entry.type.Furnished (.member entry.optional) := by
  obtain ⟨inner, sited, -, optional, typed⟩ := levelWise_furnished.of_entryOf_eq_ok h
  obtain ⟨furnishes, position⟩ := sited.furnishes
  rw [optional, ← position]
  exact typed furnishes

/-- What is inside a furnished type is furnished, in a place of its own. -/
theorem SchemaType.Furnished.inside {position : Position} (h : type.Furnished position) :
    (∀ e ∈ type.members, e.type.Furnished (.member e.optional)) ∧
      ∀ a ∈ type.annotations, ∃ position, a.Furnished position := by
  induction h with
  | basic required => exact ⟨nofun, List.forall_mem_singleton.2 ⟨_, .basic required⟩⟩
  | basicElement type => exact ⟨nofun, List.forall_mem_singleton.2 ⟨_, .basicElement type⟩⟩
  | stringEnum options default =>
    exact ⟨nofun, List.forall_mem_singleton.2 ⟨_, .stringEnum options default⟩⟩
  | int32Enum options default =>
    exact ⟨nofun, List.forall_mem_singleton.2 ⟨_, .int32Enum options default⟩⟩
  | @enumElement type enum =>
    cases type with
    | stringEnum | int32Enum => exact ⟨nofun, List.forall_mem_singleton.2 ⟨_, .enumElement enum⟩⟩
    | _ => cases enum
  | reserved position primitive =>
    exact ⟨nofun, List.forall_mem_singleton.2 ⟨position, .reserved position primitive⟩⟩
  | mixed position => exact ⟨nofun, List.forall_mem_singleton.2 ⟨position, .mixed position⟩⟩
  | array position inside ih =>
    exact ⟨ih.1, List.forall_mem_cons.2 ⟨⟨position, .array position inside⟩, ih.2⟩⟩
  | object position inside ih =>
    refine ⟨fun m hm => ?_,
      List.forall_mem_cons.2 ⟨⟨position, .object position inside⟩, fun a ha => ?_⟩⟩
    · rcases mem_entryMembers.1 hm with here | ⟨e, he, deeper⟩
      · exact inside m here
      · exact (ih e he).1 m deeper
    · obtain ⟨e, he, below⟩ := mem_entryAnnotations.1 ha
      exact (ih e he).2 a below

/-! ### All that is inside -/

/-- **Members whose defaults are in their places,** at every depth. -/
structure DefaultsInPlace (entries : List (Entry SchemaType)) : Prop where
  carried : ∀ e ∈ SchemaType.entryMembers entries, e.type.takesDefault → e.type.CarriesDefault
  required : ∀ e ∈ SchemaType.entryMembers entries, e.optional = false →
    e.type.isEnum = false ∧ ∀ type default, e.type = .basic type default → default = some type.blank
  elements : ∀ t ∈ SchemaType.entryAnnotations entries, ∀ type default,
    t = .array (.basic type default) → ¬ (SchemaType.basic type default).CarriesDefault
  others : ∀ t ∈ SchemaType.entryAnnotations entries, t.takesDefault = false → ¬ t.CarriesDefault

/-- **A type without a default** anywhere inside. -/
def SchemaType.NoDefaults (type : SchemaType) : Prop := ∀ a ∈ type.annotations, ¬ a.CarriesDefault

theorem defaultsInPlace_of_furnished
    (h : ∀ e ∈ entries, e.type.Furnished (.member e.optional)) : DefaultsInPlace entries := by
  obtain ⟨ofMembers, ofAnnotations⟩ := (SchemaType.Furnished.object .element h).inside
  replace ofAnnotations (t : SchemaType) (ht : t ∈ SchemaType.entryAnnotations entries) :=
    ofAnnotations t (List.mem_cons_of_mem _ ht)
  refine ⟨fun e he takes => ?_, fun e he required => ?_, fun t ht type default array => ?_,
    fun t ht other => ?_⟩
  · rw [SchemaType.carriesDefault_iff]
    have furnished := ofMembers e he
    generalize e.type = type, e.optional = optional at furnished takes
    cases furnished with
    | basic | stringEnum | int32Enum => rfl
    | reserved | mixed | array | object => cases takes
  · have furnished := ofMembers e he
    rw [required] at furnished
    generalize e.type = type at furnished
    cases furnished with
    | basic blank =>
      refine ⟨rfl, fun type default same => ?_⟩
      cases same
      rw [blank rfl]
    | reserved | mixed | array | object => exact ⟨rfl, nofun⟩
  · rw [SchemaType.carriesDefault_iff]
    obtain ⟨position, furnished⟩ := ofAnnotations t ht
    subst array
    cases furnished with
    | array _ inside =>
      cases inside with
      | basicElement => exact Bool.false_ne_true
      | enumElement enum => cases enum
    | enumElement enum => cases enum
  · rw [SchemaType.carriesDefault_iff]
    cases t with
    | basic | stringEnum | int32Enum => cases other
    | reserved | mixed | array | object => exact Bool.false_ne_true

/-! ### No defaults -/

theorem SchemaType.noDefaults_object :
    (SchemaType.object entries).NoDefaults ↔ ∀ e ∈ entries, e.type.NoDefaults := by
  simp only [NoDefaults, annotations, List.forall_mem_cons, mem_entryAnnotations]
  constructor
  · rintro ⟨-, inside⟩ e he a ha
    exact inside a ⟨e, he, ha⟩
  · intro inside
    refine ⟨by simp [carriesDefault_iff, default?], ?_⟩
    rintro a ⟨e, he, ha⟩
    exact inside e he a ha

/-- **Where no defaults are looked for, none are put,** unless the slot has one to start with. -/
theorem levelWise_noDefaults :
    LevelWise fun slot type => slot.withDefaults = false → slot.default = none →
      type.NoDefaults where
  leaf slot type leaf off none := by
    -- a leaf has nothing inside, so its own default is all there is to look at
    have bare : type.annotations = [type] ∧ type.default? = Option.none := by
      cases leaf with
      | basic type =>
        exact ⟨rfl, by simp [Slot.basic, SchemaType.default?, Slot.carriesDefault, off]⟩
      | reserved | mixed => exact ⟨rfl, rfl⟩
      | union typed =>
        obtain ⟨-, ⟨options, rfl⟩ | ⟨options, rfl⟩⟩ := enumType_eq_ok typed <;> exact ⟨rfl, none⟩
    rw [SchemaType.NoDefaults, bare.1, List.forall_mem_singleton, SchemaType.carriesDefault_iff,
      bare.2]
    exact Bool.false_ne_true
  array slot nullable type inside off none := by
    refine List.forall_mem_cons.2 ⟨?_, inside off none⟩
    rw [SchemaType.carriesDefault_iff]
    exact Bool.false_ne_true
  object slot entries inside off none := by
    refine SchemaType.noDefaults_object.2 fun e he => ?_
    obtain ⟨member, inner, sited, -, -, typed⟩ := inside e he
    rw [off] at sited
    exact typed sited.keepsDefaults (sited.default_none rfl)

theorem noDefaults_of_payloadOf_eq_ok {name node : Value}
    (h : payloadOf types name node = .ok (some entries)) :
    (SchemaType.object entries).NoDefaults := by
  rw [payloadOf] at h
  split at h
  · cases h
  · obtain ⟨type, typed, h⟩ := bind_eq_ok.1 h
    split at h
    · cases h
      exact levelWise_noDefaults.of_annotate_eq_ok typed rfl rfl
    · cases h

theorem noDefaults_of_paramOf_eq_ok {command param : Value} {entry : Entry SchemaType}
    (h : paramOf types command param = .ok entry) : entry.type.NoDefaults := by
  obtain ⟨name, -, h⟩ := bind_eq_ok.1 h
  obtain ⟨node, -, h⟩ := bind_eq_ok.1 h
  obtain ⟨type, typed, h⟩ := bind_eq_ok.1 h
  split at h
  · cases h
    exact levelWise_noDefaults.of_annotate_eq_ok typed rfl rfl
  · cases h

/-! ### Defaults of the facets -/

/-- **Which types carry a default.** In props and state they are in their places, at every depth; in
events and commands there are none. -/
theorem defaults_are_in_place (types : Declarations) (members : List Value) :
    (∀ entries, propsOf types members = .ok entries → DefaultsInPlace entries) ∧
    (∀ entries, stateOf types members = .ok entries → DefaultsInPlace entries) ∧
    (∀ events, eventsOf types members = .ok events → ∀ event ∈ events, ∀ entries,
      event.payload = some entries → (SchemaType.object entries).NoDefaults) ∧
    ∀ commands, commandsOf types members = .ok commands → ∀ command ∈ commands,
      ∀ param ∈ command.params, param.type.NoDefaults := by
  refine ⟨fun entries h => ?_, fun entries h => ?_, fun events h event he entries given => ?_,
    fun commands h command hc param hp => ?_⟩
  · refine defaultsInPlace_of_furnished fun e he => ?_
    obtain ⟨os, hos, rfl⟩ := map_eq_ok.1 h
    obtain ⟨o, ho, same⟩ := List.mem_filterMap.1 he
    obtain ⟨member, -, read⟩ := exists_mem_of_mem_mapM hos ho
    cases same
    exact furnished_of_entryOf_eq_ok (entryOf_of_propOfMember?_eq_ok read)
  · refine defaultsInPlace_of_furnished fun e he => ?_
    obtain ⟨member, -, read⟩ := exists_mem_of_mem_mapM h he
    exact furnished_of_entryOf_eq_ok read
  · obtain ⟨os, hos, rfl⟩ := map_eq_ok.1 h
    obtain ⟨o, ho, same⟩ := List.mem_filterMap.1 he
    obtain ⟨member, -, read⟩ := exists_mem_of_mem_mapM hos ho
    cases same
    obtain ⟨node, payload⟩ := (eventOfMember?_eq_ok read).payload
    rw [given] at payload
    exact noDefaults_of_payloadOf_eq_ok payload
  · obtain ⟨member, -, read⟩ := exists_mem_of_mem_mapM h hc
    obtain ⟨function, ref, params, -, -, -, entries⟩ := (commandOf_eq_ok read).params
    have typed := forall_mem_of_forall₂ entries fun _ _ read =>
      noDefaults_of_paramOf_eq_ok read.typed
    exact typed param hp

namespace Sample

def unionOf (texts : List String) : Value :=
  Sample.node "TSUnionType" [("types", .arr (texts.map fun text =>
    Sample.node "TSLiteralType" [("literal", Sample.node "StringLiteral" [("value", .str text)])]))]

def withDefault (type literal : Value) : Value := reference "WithDefault" [type, literal]

/-- The payload of a toggle's event: an enum, which has no default there. -/
def togglePayload : Value := literal [property "mode" (unionOf ["on", "off"])]

def toggleHandler : Value := reference "DirectEventHandler" [togglePayload]

/-- The members of a toggle: an enum with a default, an array, and an event. -/
def toggleMembers : List Value :=
  [property "mode" (withDefault (unionOf ["on", "off"]) (Sample.node "TSLiteralType"
      [("literal", Sample.node "StringLiteral" [("value", .str "on")])])),
    property "labels" (arrayOf (keyword "TSStringKeyword")),
    property "onToggle" toggleHandler]

theorem exists_payloadOf_togglePayload :
    ∃ entries, payloadOf [] (.str "onToggle") togglePayload = .ok (some entries) := by
  have typed (slot : Slot) : annotate [] slot [] togglePayload = _ :=
    annotate_of_literal rfl rfl (by simp [property])
  simp only [payloadOf, typed]
  exact ⟨_, by with_unfolding_all rfl⟩

end Sample

open Sample in
theorem defaults_are_in_place_toggle :
    (∃ mode labels, propsOf [] toggleMembers = .ok [mode, labels] ∧
      DefaultsInPlace [mode, labels]) ∧
    (∃ event entries, eventsOf [] toggleMembers = .ok [event] ∧ event.payload = some entries ∧
      (SchemaType.object entries).NoDefaults) ∧
    ∃ scrollTo flash y, commandsOf [] scrollerCommands = .ok [scrollTo, flash] ∧
      scrollTo.params = [y] ∧ y.type.NoDefaults := by
  obtain ⟨props, -, events, -⟩ := defaults_are_in_place [] toggleMembers
  obtain ⟨-, -, -, commands⟩ := defaults_are_in_place [] scrollerCommands
  -- each facet is evaluated, and is what the theorem speaks of
  obtain ⟨mode, labels, hprops⟩ : ∃ mode labels, propsOf [] toggleMembers = .ok [mode, labels] :=
    ⟨_, _, by with_unfolding_all rfl⟩
  obtain ⟨entries, payload⟩ := exists_payloadOf_togglePayload
  obtain ⟨event, hevents, given⟩ : ∃ event, eventsOf [] toggleMembers = .ok [event] ∧
      event.payload = some entries := by
    have toggled : ∃ event,
        eventOfMember? [] (property "onToggle" toggleHandler) = .ok (some event) ∧
        event.payload = some entries := by
      have signature : (property "onToggle" toggleHandler).hasTag "TSPropertySignature" := by
        simp [property]
      have handled : eventHandler? (property "onToggle" toggleHandler).memberType =
          .ok (some (toggleHandler, .direct)) := by with_unfolding_all rfl
      have alone : (property "onToggle" toggleHandler).memberType.splitNullable =
          .ok (toggleHandler, false) := by with_unfolding_all rfl
      have name : (property "onToggle" toggleHandler).keyName = .str "onToggle" := by
        with_unfolding_all rfl
      have one : toggleHandler.typeArguments = [togglePayload] := by with_unfolding_all rfl
      simp only [eventOfMember?, signature, Bool.not_true, Bool.false_eq_true, if_false, handled,
        ok_bind, eventOf, alone, one, name, payload, pure_eq]
      exact ⟨_, rfl, rfl⟩
    obtain ⟨event, read, given⟩ := toggled
    -- the other two members are no events
    have others : eventsOf [] toggleMembers = .ok [event] := by
      have before (m : Value) (hm : m ∈ toggleMembers.take 2) : eventOfMember? [] m = .ok none := by
        simp only [toggleMembers, List.take, List.mem_cons, List.not_mem_nil, or_false] at hm
        rcases hm with rfl | rfl <;> with_unfolding_all rfl
      rw [eventsOf, toggleMembers, filterMap_mapM_cons, before _ (by simp [toggleMembers]),
        ok_bind, filterMap_mapM_cons, before _ (by simp [toggleMembers]), ok_bind,
        filterMap_mapM_cons, read]
      rfl
    exact ⟨event, others, given⟩
  obtain ⟨scrollTo, flash, y, hcommands, params⟩ : ∃ scrollTo flash y,
      commandsOf [] scrollerCommands = .ok [scrollTo, flash] ∧ scrollTo.params = [y] :=
    ⟨_, _, _, by with_unfolding_all rfl, by with_unfolding_all rfl⟩
  refine ⟨⟨mode, labels, hprops, props _ hprops⟩,
    ⟨event, entries, hevents, given, events _ hevents event (by simp) entries given⟩,
    ⟨scrollTo, flash, y, hcommands, params, ?_⟩⟩
  exact commands _ hcommands scrollTo (by simp) y (by simp [params])

end ComponentSpec
