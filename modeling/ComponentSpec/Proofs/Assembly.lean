import ComponentSpec.Assembly
import ComponentSpec.Proofs.Queries

/-!
# Where the members of the props type go

A schema that comes out is assembled from the members of the props type (`Assembled`), and three
passes pick from the same list: the inherited groups, the props and the events. Flattening leaves
properties and references to types from elsewhere. The passes ask three different questions of them,
whose answers fit together: a member inherits exactly if it is a reference
(`isSome_of_inheritedGroup?_eq_ok`), and of the properties the one pass keeps those that the other
drops (`isEvent_of_eventOfMember?_eq_ok`, `isEvent_of_propOfMember?_eq_ok`).

* `Assembled` — what a schema is assembled from;
* `Value.isEventMember` — the properties that are events;
* `componentSchema_partitions_members` — every member goes to one place, in order.
-/

namespace ComponentSpec

open Checked

variable {tree member : Value} {schema : ComponentSchema} {blueprint : Blueprint}
  {types : Declarations} {members own : List Value}

/-! ### The steps of an assembly -/

/-- **What a schema is assembled from:** the outcomes of the steps. -/
structure Assembled (tree : Value) (schema : ComponentSchema) (blueprint : Blueprint)
    (types : Declarations) (members own : List Value) : Prop where
  located : Blueprint.locate tree = .ok blueprint
  declared : Declarations.ofTree tree = .ok types
  expanded : membersOf types (.str blueprint.propsType) = .ok members
  inherits : inheritedOf types members = .ok schema.inherited
  owns : withoutInherited types members = .ok own
  props : propsOf types own = .ok schema.props
  events : eventsOf types members = .ok schema.events

theorem ofExcept_eq {α : Type} (x : Checked α) : (MonadExcept.ofExcept x : Checked α) = x := by
  cases x <;> rfl

theorem assembled_of_componentSchema (h : componentSchema tree = .ok schema) :
    ∃ blueprint types members own, Assembled tree schema blueprint types members own := by
  simp only [componentSchema, assemble, ofExcept_eq, Resolver.standard, Value.key, ok_bind] at h
  obtain ⟨blueprint, located, h⟩ := bind_eq_ok.1 h
  obtain ⟨types, declared, h⟩ := bind_eq_ok.1 h
  obtain ⟨members, expanded, h⟩ := bind_eq_ok.1 h
  obtain ⟨commandOptions, -, h⟩ := bind_eq_ok.1 h
  obtain ⟨commandMembers, -, h⟩ := bind_eq_ok.1 h
  obtain ⟨inherited, inherits, h⟩ := bind_eq_ok.1 h
  obtain ⟨options, -, h⟩ := bind_eq_ok.1 h
  obtain ⟨own, owns, h⟩ := bind_eq_ok.1 h
  obtain ⟨props, hprops, h⟩ := bind_eq_ok.1 h
  obtain ⟨events, hevents, h⟩ := bind_eq_ok.1 h
  obtain ⟨commands, -, h⟩ := bind_eq_ok.1 h
  obtain ⟨state, -, h⟩ := bind_eq_ok.1 h
  -- the schema is put together from these, and the steps that are left out here do not touch them
  cases h
  exact ⟨blueprint, types, members, own,
    ⟨located, declared, expanded, inherits, owns, hprops, hevents⟩⟩

/-! ### The passes -/

/-- **A property that is an event.** -/
def Value.isEventMember (member : Value) : Bool :=
  match isEvent member with
  | .ok event => event
  | .error _ => false

theorem isEventMember_of_isEvent_eq_ok {event : Bool} (h : isEvent member = .ok event) :
    member.isEventMember = event := by
  rw [Value.isEventMember, h]

theorem isEvent_of_not_property (h : member.hasTag "TSPropertySignature" = false) :
    isEvent member = .ok false := by
  rw [isEvent, if_neg (by simp [h])]

theorem hasTag_of_isEventMember (h : member.isEventMember) :
    member.hasTag "TSPropertySignature" := by
  -- of anything else the answer is no
  by_contra other
  rw [isEventMember_of_isEvent_eq_ok (isEvent_of_not_property (by simpa using other))] at h
  cases h

theorem eventOfMember?_of_not_property (h : member.hasTag "TSPropertySignature" = false) :
    eventOfMember? types member = .ok none := by
  rw [eventOfMember?, if_pos (by simp [h])]
  rfl

/-- The pass for events keeps what is an event. -/
theorem isEvent_of_eventOfMember?_eq_ok {o : Option Event}
    (h : eventOfMember? types member = .ok o) : isEvent member = .ok o.isSome := by
  unfold eventOfMember? at h
  split at h
  · next other =>
    cases h
    exact isEvent_of_not_property (by simpa using other)
  · next property =>
    obtain ⟨handler, hhandler, h⟩ := bind_eq_ok.1 h
    rw [isEvent, if_pos (by simpa using property), hhandler, map_ok]
    cases handler with
    | none => cases h; rfl
    | some handler =>
      obtain ⟨event, -, h⟩ := bind_eq_ok.1 h
      cases h
      rfl

/-- The pass for props drops what is an event. -/
theorem isEvent_of_propOfMember?_eq_ok {o : Option (Entry SchemaType)}
    (h : propOfMember? types member = .ok o) : isEvent member = .ok !o.isSome := by
  obtain ⟨event, hevent, h⟩ := bind_eq_ok.1 h
  rw [hevent]
  cases event with
  | true => cases h; rfl
  | false =>
    obtain ⟨entry, -, h⟩ := bind_eq_ok.1 h
    cases h
    rfl

/-- A member that inherits is a reference to a type from elsewhere. -/
theorem isSome_of_inheritedGroup?_eq_ok {o : Option InheritedGroup}
    (left : member.hasTag "TSPropertySignature" ∨ member.hasTagIn Value.referenceTags ∧
      ∃ name, member.referenceName = .scalar name ∧ types.has name = false)
    (h : inheritedGroup? types member = .ok o) :
    o.isSome = member.hasTagIn Value.referenceTags := by
  unfold inheritedGroup? at h
  -- a property does not inherit, and a reference to a type from elsewhere does or fails
  rcases left with property | ⟨tag, name, named, undeclared⟩
  · have other : member.hasTagIn Value.referenceTags = false := by
      rw [Value.hasTagIn_of_hasTag property]
      rfl
    simp only [other, Bool.not_false, if_true, pure_eq, Except.ok.injEq] at h
    rw [← h, other]
    rfl
  · simp only [tag, Bool.not_true, Bool.false_eq_true, if_false, Declarations.declares, named,
      Value.key, ok_bind, undeclared, pure_eq] at h
    split at h
    · cases h
      exact tag.symm
    · cases h

/-! ### Names -/

theorem name_of_entryOf_eq_ok {withDefaults : Bool} {entry : Entry SchemaType}
    (h : entryOf types withDefaults member = .ok entry) : entry.name = member.keyName := by
  obtain ⟨site, sited, h⟩ := bind_eq_ok.1 h
  obtain ⟨type, -, h⟩ := bind_eq_ok.1 h
  cases h
  exact (readsMember_of_memberSite sited).named

/-- **What an event says of its member:** it has the member's name, and some payload. -/
structure EventOf (types : Declarations) (member : Value) (event : Event) : Prop where
  named : event.name = member.keyName
  payload : ∃ node, payloadOf types member.keyName node = .ok event.payload

/-- The payload of an event is an argument of its handler. -/
theorem exists_payload_of_eventOf_eq_ok {handler : Value} {bubbling : Bubbling} {event : Event}
    (h : eventOf types member handler bubbling = .ok event) : event.name = member.keyName ∧
      ∃ node ∈ handler.typeArguments, payloadOf types member.keyName node = .ok event.payload := by
  obtain ⟨⟨rest, nullable⟩, -, h⟩ := bind_eq_ok.1 h
  cases arguments : handler.typeArguments with
  | nil => simp [arguments] at h
  | cons payload more =>
    -- the branches only differ in the paper name
    have read {paperName : Checked (Option String)} (h : (paperName >>= fun paperName =>
        payloadOf types member.keyName payload >>= fun payload => .ok
          { name := member.keyName, optional := (member.get "optional").truthy || nullable,
            bubbling, paperName, payload }) = .ok event) : event.name = member.keyName ∧
        ∃ node ∈ payload :: more, payloadOf types member.keyName node = .ok event.payload := by
      obtain ⟨paperName, -, h⟩ := bind_eq_ok.1 h
      obtain ⟨entries, hentries, h⟩ := bind_eq_ok.1 h
      cases h
      exact ⟨rfl, payload, .head more, hentries⟩
    simp only [arguments] at h
    split at h
    · exact read h
    · split at h <;> exact read h

/-- An event has a handler, in the annotation of its member. -/
theorem exists_handler_of_eventOfMember? {event : Event}
    (h : eventOfMember? types member = .ok (some event)) :
    member.hasTag "TSPropertySignature" ∧ ∃ handler bubbling,
      eventHandler? member.memberType = .ok (some (handler, bubbling)) ∧
        eventOf types member handler bubbling = .ok event := by
  unfold eventOfMember? at h
  split at h
  · cases h
  · next property =>
    obtain ⟨handler, found, h⟩ := bind_eq_ok.1 h
    cases handler with
    | none => cases h
    | some handler =>
      obtain ⟨event', hevent, h⟩ := bind_eq_ok.1 h
      cases h
      exact ⟨by simpa using property, handler.1, handler.2, found, hevent⟩

theorem eventOfMember?_eq_ok {event : Event}
    (h : eventOfMember? types member = .ok (some event)) : EventOf types member event := by
  obtain ⟨-, handler, bubbling, -, read⟩ := exists_handler_of_eventOfMember? h
  obtain ⟨named, node, -, payload⟩ := exists_payload_of_eventOf_eq_ok read
  exact ⟨named, node, payload⟩

theorem entryOf_of_propOfMember?_eq_ok {entry : Entry SchemaType}
    (h : propOfMember? types member = .ok (some entry)) :
    entryOf types true member = .ok entry := by
  obtain ⟨event, -, h⟩ := bind_eq_ok.1 h
  cases event with
  | true => cases h
  | false =>
    obtain ⟨entry', hentry, h⟩ := bind_eq_ok.1 h
    cases h
    exact hentry

/-! ### The passes over the members -/

namespace Assembled

/-- Flattening leaves properties and references to types from elsewhere. -/
theorem left (h : Assembled tree schema blueprint types members own) :
    ∀ m ∈ members, m.hasTag "TSPropertySignature" ∨ m.hasTagIn Value.referenceTags ∧
      ∃ name, m.referenceName = .scalar name ∧ types.has name = false := by
  obtain ⟨d, listed, -, expands⟩ := membersOf_eq_ok.1 h.expanded
  exact expands.property_or_foreign

theorem apart (h : Assembled tree schema blueprint types members own) :
    ∀ m ∈ members, m.hasTagIn Value.referenceTags = !m.hasTag "TSPropertySignature" := by
  intro m hm
  rcases h.left m hm with property | ⟨reference, -⟩
  · rw [property, Value.hasTagIn_of_hasTag property]
    rfl
  · rw [reference, not_property_of_reference reference]
    rfl

/-- What is not inherited are the properties. -/
theorem own_eq (h : Assembled tree schema blueprint types members own) :
    own = members.filter fun m => m.hasTag "TSPropertySignature" := by
  refine eq_filter_of_filterM (fun m hm o ho => ?_) h.owns
  obtain ⟨group, hgroup, rfl⟩ := map_eq_ok.1 ho
  have inherits := isSome_of_inheritedGroup?_eq_ok (h.left m hm) hgroup
  rw [h.apart m hm] at inherits
  rw [← Bool.not_not (m.hasTag _), ← inherits]
  cases group <;> rfl

/-- The pass for events asks every member whether it is an event. -/
theorem decided (h : Assembled tree schema blueprint types members own) :
    ∀ m ∈ members, isEvent m = .ok m.isEventMember := by
  intro m hm
  obtain ⟨os, hos, -⟩ := map_eq_ok.1 h.events
  obtain ⟨o, ho⟩ := exists_of_mem_of_mapM_eq_ok hos hm
  have event := isEvent_of_eventOfMember?_eq_ok ho
  rw [event, isEventMember_of_isEvent_eq_ok event]

theorem inherits_forall₂ (h : Assembled tree schema blueprint types members own) :
    List.Forall₂ (fun m group => inheritedGroup? types m = .ok (some group))
      (members.filter (·.hasTagIn Value.referenceTags)) schema.inherited :=
  forall₂_filterMap (fun m hm _ ho => isSome_of_inheritedGroup?_eq_ok (h.left m hm) ho) h.inherits

theorem props_forall₂ (h : Assembled tree schema blueprint types members own) :
    List.Forall₂ (fun m entry => propOfMember? types m = .ok (some entry))
      (members.filter fun m => m.hasTag "TSPropertySignature" && !m.isEventMember)
      schema.props := by
  have kept := forall₂_filterMap (p := fun m => !m.isEventMember) (fun m _ o ho => by
    rw [isEventMember_of_isEvent_eq_ok (isEvent_of_propOfMember?_eq_ok ho), Bool.not_not])
    h.props
  -- the pass runs over what is not inherited, which are the properties
  rw [h.own_eq, List.filter_filter] at kept
  simpa only [Bool.and_comm] using kept

theorem events_forall₂ (h : Assembled tree schema blueprint types members own) :
    List.Forall₂ (fun m event => eventOfMember? types m = .ok (some event))
      (members.filter fun m => m.hasTag "TSPropertySignature" && m.isEventMember)
      schema.events := by
  have kept := forall₂_filterMap (p := Value.isEventMember) (fun m _ o ho =>
    (isEventMember_of_isEvent_eq_ok (isEvent_of_eventOfMember?_eq_ok ho)).symm) h.events
  -- only a property is an event
  have same : (members.filter fun m => m.hasTag "TSPropertySignature" && m.isEventMember) =
      members.filter Value.isEventMember := by
    refine List.filter_congr fun m _ => ?_
    cases event : m.isEventMember with
    | false => rw [Bool.and_false]
    | true => rw [hasTag_of_isEventMember event, Bool.and_self]
  rw [same]
  exact kept

/-- The pass for events finds the same in what is not inherited. -/
theorem eventsOf_own (h : Assembled tree schema blueprint types members own) :
    eventsOf types own = eventsOf types members := by
  rw [h.own_eq]
  exact filterMap_mapM_filter fun m _ => eventOfMember?_of_not_property

end Assembled

/-! ### The partition -/

/-- **The members of the props type, place by place:** the inherited groups are those of the
references, the events those of the properties that are events, and the props those of the other
properties, each list in the order of the members. -/
structure Placed (types : Declarations) (members : List Value) (schema : ComponentSchema) :
    Prop where
  left : ∀ m ∈ members, m.hasTag "TSPropertySignature" ∨ m.hasTagIn Value.referenceTags ∧
    ∃ name, m.referenceName = .scalar name ∧ types.has name = false
  decided : ∀ m ∈ members, m.hasTag "TSPropertySignature" → isEvent m = .ok m.isEventMember
  inherited : List.Forall₂ (fun m group => inheritedGroup? types m = .ok (some group))
    (members.filter (·.hasTagIn Value.referenceTags)) schema.inherited
  props : List.Forall₂ (fun m entry => entryOf types true m = .ok entry ∧ entry.name = m.keyName)
    (members.filter fun m => m.hasTag "TSPropertySignature" && !m.isEventMember) schema.props
  events : List.Forall₂
    (fun m event => eventOfMember? types m = .ok (some event) ∧ event.name = m.keyName)
    (members.filter fun m => m.hasTag "TSPropertySignature" && m.isEventMember) schema.events
  count : schema.inherited.length + schema.props.length + schema.events.length = members.length
  same_events : ∃ own, withoutInherited types members = .ok own ∧
    eventsOf types own = eventsOf types members

/-- Three kinds of members, apart from each other, are all the members. -/
theorem length_filter_add_add {α : Type} (reference property event : α → Bool) (l : List α)
    (apart : ∀ a ∈ l, reference a = !property a) :
    (l.filter reference).length + (l.filter fun a => property a && !event a).length +
      (l.filter fun a => property a && event a).length = l.length := by
  induction l with
  | nil => rfl
  | cons a l ih =>
    have rest := ih fun b hb => apart b (List.mem_cons_of_mem a hb)
    have here := apart a List.mem_cons_self
    cases hp : property a <;> cases he : event a <;>
      simp [here, hp, he] <;> omega

/-- **No member of the props type is lost,** and none is in two places. -/
theorem componentSchema_partitions_members (h : componentSchema tree = .ok schema) :
    ∃ blueprint types members, Blueprint.locate tree = .ok blueprint ∧
      Declarations.ofTree tree = .ok types ∧
      membersOf types (.str blueprint.propsType) = .ok members ∧ Placed types members schema := by
  obtain ⟨blueprint, types, members, own, assembled⟩ := assembled_of_componentSchema h
  refine ⟨blueprint, types, members, assembled.located, assembled.declared, assembled.expanded, ?_⟩
  have inherited := assembled.inherits_forall₂
  have props := assembled.props_forall₂
  have events := assembled.events_forall₂
  refine ⟨assembled.left, fun m hm _ => assembled.decided m hm, inherited, ?_, ?_, ?_, own,
    assembled.owns, assembled.eventsOf_own⟩
  · exact props.imp fun m entry h =>
      ⟨entryOf_of_propOfMember?_eq_ok h, name_of_entryOf_eq_ok (entryOf_of_propOfMember?_eq_ok h)⟩
  · exact events.imp fun m event h => ⟨h, (eventOfMember?_eq_ok h).named⟩
  · rw [← inherited.length_eq, ← props.length_eq, ← events.length_eq]
    exact length_filter_add_add _ _ _ members assembled.apart

/-- The members of a button's props: what it inherits, a prop and an event. -/
def Sample.buttonMembers : List Value :=
  [heritage "ViewProps", property "title" (keyword "TSStringKeyword"),
    property "onPress" (reference "DirectEventHandler" [keyword "TSNullKeyword"])]

def Sample.buttonProps : Value :=
  interfaceNamed "Props" [heritage "ViewProps"] (buttonMembers.drop 1)

open Sample in
theorem componentSchema_partitions_members_button :
    ∃ schema, componentSchema (file [buttonProps] "Button" "Props") = .ok schema ∧
      Placed (table [("Props", buttonProps)]) buttonMembers schema := by
  -- what the assembly reads off the file, evaluated; the members come from the rules
  have located : Blueprint.locate (file [buttonProps] "Button" "Props") =
      .ok ⟨"Button", "Props", "", none, none, none⟩ := by with_unfolding_all rfl
  have declared : Declarations.ofTree (file [buttonProps] "Button" "Props") =
      .ok (table [("Props", buttonProps)]) := by with_unfolding_all rfl
  have expands : Expands (table [("Props", buttonProps)]) buttonMembers
      (.keep (.keep (.keep .done))) buttonMembers :=
    .foreign rfl (referenceName_heritage _) rfl (.property rfl (.property rfl .nil))
  have expanded : membersOf (table [("Props", buttonProps)]) (.str "Props") = .ok buttonMembers :=
    membersOf_eq_ok.2 ⟨_, _, .ofInterface rfl rfl rfl rfl, expands⟩
  obtain ⟨schema, h⟩ :
      ∃ schema, componentSchema (file [buttonProps] "Button" "Props") = .ok schema := by
    simp only [componentSchema, assemble, ofExcept_eq, Resolver.standard, Value.key, located,
      declared, expanded, ok_bind]
    exact ⟨_, by with_unfolding_all rfl⟩
  obtain ⟨blueprint, types, members, located', declared', expanded', placed⟩ :=
    componentSchema_partitions_members h
  -- the theorem speaks of the same blueprint, table and members
  cases located.symm.trans located'
  cases declared.symm.trans declared'
  cases expanded.symm.trans expanded'
  exact ⟨schema, h, placed⟩

end ComponentSpec
