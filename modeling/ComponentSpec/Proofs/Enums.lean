import ComponentSpec.Proofs.DeclaredDefaults

/-!
# The options of enums

An enum is the type of a union of literals, and has their values for its options. They are texts or
integers, and `null` is none of them, since it is split off a union before the union is typed. What
is left then may be a union of nothing at all. None of its members fails to be a text, so it passes
for a union of texts, and its type is an enum without options.

No enum is without options for any other reason: what is typed then holds a union of nothing but
`null` and `undefined` (`emptiedBy_of_annotateTo`). An enum that has a default has it for one of its
options, so the types of props and state members are not concerned, but for the elements of arrays,
which can do without a default. Where no default is called for, such a union does become an enum
(`annotate_of_void_elements`, `memberEntry_of_void`).

* `SchemaType.options`, `SchemaType.Empty` — the options of an enum, and an enum that has none;
* `Value.Void`, `HoldsVoid` — a union of nothing but `null`, and where one is at hand;
* `SchemaType.EmptiedBy` — why an enum inside a type is without options;
* `enums_have_options` — the enums of props, state, events and commands.
-/

namespace ComponentSpec

open Checked

variable {types : Declarations} {slot : Slot} {path : List Scalar} {node member rest : Value}
  {type : SchemaType} {entries : List (Entry SchemaType)} {withDefaults : Bool}

/-! ### Options -/

/-- The options of an enum. -/
def SchemaType.options : SchemaType → List Value
  | .stringEnum texts _ => texts.map .str
  | .int32Enum ints _ => ints.map .int
  | _ => []

/-- **An enum without options.** -/
structure SchemaType.Empty (type : SchemaType) : Prop where
  enum : type.isEnum
  noOptions : type.options = []

/-- A union that has no members. -/
structure Value.EmptyUnion (node : Value) : Prop where
  tag : node.hasTag "TSUnionType"
  noMembers : (node.get "types").elements = .ok []

/-- **A union of nothing but `null` and `undefined`.** -/
structure Value.Void (node : Value) : Prop where
  tag : node.hasTag "TSUnionType"
  members : ∃ members, (node.get "types").elements = .ok members ∧
    ∀ m ∈ members, m.hasTagIn nullableTags

theorem Value.EmptyUnion.void (h : node.EmptyUnion) : node.Void :=
  ⟨h.tag, [], h.noMembers, nofun⟩

/-- Nothing is chosen from nothing only. -/
theorem eq_nil_of_mapM_eq_nil {α β : Type} {f : α → Option β} {xs : List α}
    (h : xs.mapM f = some []) : xs = [] := by
  cases xs with
  | nil => rfl
  | cons x xs =>
    simp only [List.mapM_cons, Option.bind_eq_bind, Option.bind_eq_some_iff] at h
    obtain ⟨b, -, bs, -, h⟩ := h
    cases h

/-- **Choices without any literals** are those of a union without members. -/
theorem emptyUnion_of_choices (h : choices node = .ok (some [])) : node.EmptyUnion := by
  rw [choices] at h
  split at h
  · next tag =>
    obtain ⟨members, listed, h⟩ := bind_eq_ok.1 h
    simp only [pure_eq, Except.ok.injEq] at h
    rw [eq_nil_of_mapM_eq_nil h] at listed
    exact ⟨tag, listed⟩
  -- a literal type is the only choice that it gives
  · simp only [pure_eq, ok_bind, Except.ok.injEq] at h
    cases eq_nil_of_mapM_eq_nil h

/-- **A union without members** is an enum without options, where no default is called for. -/
theorem Value.EmptyUnion.enumType_eq_ok (h : node.EmptyUnion) : enumType slot node = .ok type ↔
    slot.default = none ∧ slot.carriesDefault = false ∧ type = .stringEnum [] none := by
  have none : choices node = .ok (some []) := by
    rw [choices, h.tag, if_pos rfl, h.noMembers]
    rfl
  rw [enumType, none, ok_bind]
  cases given : slot.default with
  | some default => simp [enumOf, texts?]
  | none => cases slot.carriesDefault <;> simp [enumOf, texts?, eq_comm]

/-- **An enum without options** is the type of a union without members. -/
theorem SchemaType.Empty.of_enumType (empty : type.Empty) (h : enumType slot node = .ok type) :
    node.EmptyUnion ∧ type = .stringEnum [] none := by
  have union : node.EmptyUnion := by
    obtain ⟨options, listed, typed⟩ := bind_eq_ok.1 h
    cases options with
    | none => cases typed
    | some options =>
      obtain ⟨enum, offers, typed⟩ := bind_eq_ok.1 typed
      -- the options of the enum are the values of the literals
      have same : type.options = options := by
        have filled : ∃ default, type = enum default := by
          split at typed
          · split at typed <;> cases typed
            exact ⟨_, rfl⟩
          · split at typed <;> cases typed
            exact ⟨_, rfl⟩
        obtain ⟨default, rfl⟩ := filled
        rcases enumOf_eq_ok offers with ⟨texts, rfl, rfl⟩ | ⟨ints, rfl, rfl⟩ <;> rfl
      rw [same.symm.trans empty.noOptions] at listed
      exact emptyUnion_of_choices listed
  exact ⟨union, (union.enumType_eq_ok.1 h).2.2⟩

/-! ### What is left of a union of `null` -/

theorem Value.Void.splitNullable_eq (h : node.withoutParentheses.Void) :
    ∃ rest nullable, node.splitNullable = .ok (rest, nullable) ∧ rest.EmptyUnion := by
  obtain ⟨members, run, nullable⟩ := h.members
  have none : (members.filter fun t => !t.hasTagIn nullableTags) = [] :=
    List.filter_eq_nil_iff.2 fun m hm => by simp [nullable m hm]
  simp only [splitNullable, h.tag, run, ok_bind, none, Bool.not_true, Bool.false_eq_true, if_false]
  cases members with
  | nil => exact ⟨node.withoutParentheses, false, rfl, h.tag, run⟩
  | cons m members =>
    refine ⟨_, true, rfl, ?_, ?_⟩
    · rw [hasTag_iff, tag_put (by simp)]
      exact hasTag_iff.1 h.tag
    · rw [get_put (isObject_of_hasTag h.tag), elements_arr]

/-- **What is left of a union is void only if the union is.** -/
theorem Value.void_of_splitNullable {nullable : Bool}
    (split : node.splitNullable = .ok (rest, nullable)) (void : rest.Void) :
    ∃ u ∈ node.parts, u.Void := by
  have inside := withoutParentheses_mem_parts node
  cases splitsNullable split with
  | whole => exact ⟨_, inside, void⟩
  | @only members _ union listed mem others =>
    have rest_mem : rest ∈ (node.withoutParentheses.get "types").listOrEmpty := by
      rw [listed]
      exact mem
    exact ⟨rest, mem_parts_trans (mem_parts_of_mem_listOrEmpty_get rest_mem) _ inside, void⟩
  | @several members remaining union listed others =>
    -- what stands for no value has been split off, and so is all the rest
    obtain ⟨left, run, nullable⟩ := void.members
    rw [get_put (isObject_of_hasTag union), elements_arr] at run
    cases run
    refine ⟨_, inside, union, members, by rw [listed, elements_arr], fun m hm => ?_⟩
    rcases others m hm with kept | gone
    · exact nullable m kept
    · exact gone

/-! ### Where an enum without options comes from -/

/-- **A void union is at hand,** in a node or a declaration. -/
def HoldsVoid (types : Declarations) (node : Value) : Prop := ∃ u, Within types node u ∧ u.Void

theorem HoldsVoid.of_within {inner : Value} (within : Within types node inner)
    (h : HoldsVoid types inner) : HoldsVoid types node := by
  obtain ⟨u, inside, void⟩ := h
  exact ⟨u, within.trans inside, void⟩

/-- **An annotation in which a void union is at hand:** it is one itself, or it is no union. -/
inductive Hides (types : Declarations) (node : Value) : Prop where
  | void (void : node.Void)
  | inside (noUnion : ¬ node.hasTag "TSUnionType") (holds : HoldsVoid types node)

theorem Hides.holdsVoid (h : Hides types node) : HoldsVoid types node := by
  cases h with
  | void void => exact ⟨node, .inl (Value.mem_parts_self node), void⟩
  | inside _ holds => exact holds

/-- What is split off an annotation hides nothing. -/
theorem Hides.of_splitNullable {nullable : Bool} (h : Hides types rest)
    (split : node.splitNullable = .ok (rest, nullable)) : HoldsVoid types node := by
  cases h with
  | void void =>
    obtain ⟨u, part, void⟩ := Value.void_of_splitNullable split void
    exact ⟨u, .inl part, void⟩
  | inside noUnion holds =>
    have part := (Value.mem_parts_of_splitNullable split).resolve_right noUnion
    exact holds.of_within (.inl part)

theorem Hides.of_memberSite {site : Slot × Value} (h : Hides types site.2)
    (sited : memberSite withDefaults member = .ok site) : HoldsVoid types member := by
  obtain ⟨rest, nullable, split, typed⟩ := (readsMember_of_memberSite sited).typed
  have hides : Hides types rest := by
    rcases typed with same | ⟨default, typed⟩
    · exact same ▸ h
    · by_cases union : rest.hasTag "TSUnionType"
      · rw [splitDefault_of_union union] at typed
        cases typed
        exact h
      -- a default is declared by a reference, with the type as a part of it
      · exact .inside union (h.holdsVoid.of_within (.inl (mem_parts_of_splitDefault typed)))
  exact (hides.of_splitNullable split).of_within
    (.inl (Value.memberType_mem_parts (isObject_of_memberSite sited)))

/-- The elements of an array are at hand. -/
theorem Outlines.within_element {path' : List Scalar} {element : Value}
    (h : Outlines types path node (.array path' element)) : Within types node element := by
  cases h with
  | array tag => exact .inl (Value.get_tag_mem_parts tag _)
  | wrapper _ _ _ only =>
    exact .inl (Value.mem_parts_of_mem_typeArguments (only ▸ List.mem_singleton_self element))

/-- The members of an object are at hand, its own and inlined ones alike. -/
theorem Outlines.within_member {path' : List Scalar} {members : List Value}
    (h : Outlines types path node (.object path' members)) (mem : member ∈ members)
    (isObject : member.isObject) : Within types node member := by
  cases h with
  | literal _ lists flat =>
    obtain ⟨d, expands⟩ := expands_of_flatten _ _ _ _ flat
    exact expands.within (fun m hm hobj => .inl (mem_parts_of_lists_singleton lists hm hobj)) member
      mem isObject
  | interface _ _ _ _ _ expanded =>
    obtain ⟨d, listed, declares, expands⟩ := membersOf_eq_ok.1 expanded
    refine expands.within (fun m hm hobj => ?_) member mem isObject
    obtain ⟨declaration, found, part⟩ := declares.exists_mem_parts hm hobj
    exact .inr ⟨_, declaration, found, part⟩

/-- An enum is the type of a choice. -/
theorem enumType_of_formOutline (enum : type.isEnum)
    (h : formOutline types slot path node = .ok (.leaf type)) : enumType slot node = .ok type := by
  obtain ⟨form, -, h⟩ := bind_eq_ok.1 h
  cases form with
  | basic basic =>
    cases h
    cases enum
  | number | array | other => cases h
  | object =>
    obtain ⟨listed, -, h⟩ := bind_eq_ok.1 h
    obtain ⟨members, -, h⟩ := bind_eq_ok.1 h
    cases h
  | choice =>
    obtain ⟨type, typed, h⟩ := bind_eq_ok.1 h
    cases h
    exact typed
  | reference =>
    obtain ⟨name, -, h⟩ := bind_eq_ok.1 h
    split at h
    · cases h
      cases enum
    · cases h
      cases enum
    · cases h
      cases enum
    · split at h <;> cases h
    · split at h
      · split at h
        · cases h
        · obtain ⟨members, -, h⟩ := bind_eq_ok.1 h
          cases h
      · cases h

/-- A type in which an enum without options is such an enum of texts, without a default, and comes
from a void union. -/
def SchemaType.EmptiedBy (type : SchemaType) (source : Prop) : Prop :=
  ∀ t ∈ type.annotations, t.Empty → t = .stringEnum [] none ∧ source

theorem SchemaType.EmptiedBy.mono {source source' : Prop} (h : type.EmptiedBy source)
    (carry : source → source') : type.EmptiedBy source' :=
  fun t ht empty => (h t ht empty).imp_right carry

theorem SchemaType.not_empty_array (element : SchemaType) : ¬ (array element).Empty :=
  fun empty => nomatch empty.enum

theorem SchemaType.not_empty_object (entries : List (Entry SchemaType)) :
    ¬ (object entries).Empty :=
  fun empty => nomatch empty.enum

theorem SchemaType.emptiedBy_array {element : SchemaType} {source : Prop}
    (inside : element.EmptiedBy source) : (array element).EmptiedBy source :=
  List.forall_mem_cons.2 ⟨fun empty => absurd empty (not_empty_array element), inside⟩

theorem SchemaType.emptiedBy_object {source : Prop}
    (inside : ∀ e ∈ entries, e.type.EmptiedBy source) : (object entries).EmptiedBy source := by
  refine List.forall_mem_cons.2 ⟨fun empty => absurd empty (not_empty_object entries), ?_⟩
  intro t ht
  obtain ⟨e, he, below⟩ := mem_entryAnnotations.1 ht
  exact inside e he t below

/-- What a leaf is emptied by. -/
theorem SchemaType.emptiedBy_leaf (h : outline types slot path node = .ok (.leaf type)) :
    type.EmptiedBy (Hides types node) := by
  have bare : type.annotations = [type] := by
    cases leafOf_of_outline h with
    | basic | reserved | mixed => rfl
    | union typed => obtain ⟨-, ⟨texts, rfl⟩ | ⟨ints, rfl⟩⟩ := enumType_eq_ok typed <;> rfl
  rw [EmptiedBy, bare, List.forall_mem_singleton]
  intro empty
  obtain ⟨inner, aliases, ahead, formed⟩ := ahead_of_outline_eq_ok h
  obtain ⟨union, same⟩ := empty.of_enumType (enumType_of_formOutline empty.enum formed)
  refine ⟨same, ?_⟩
  by_cases tag : node.hasTag "TSUnionType"
  -- no alias stands in front of a union
  · rw [← (eq_of_resolveAlias_of_hasTag ahead.resolved tag (by simp)).1]
    exact .void union.void
  · exact .inside tag ⟨inner, (resolves_of_resolveAlias ahead.resolved).mem_parts, union.void⟩

/-- **Where an enum without options is, a void union is at hand.** The induction is on the depth. A
level hands down the annotations of elements and members, which are at hand, with what is split off
them; so a union that is void then is void already where it is at hand. -/
theorem emptiedBy_of_annotateTo (n : Nat) (h : annotateTo types n slot path node = .ok type) :
    type.EmptiedBy (Hides types node) := by
  induction n generalizing slot path node type with
  | zero => cases h
  | succ n ih =>
    rw [annotateTo_succ] at h
    obtain ⟨o, outlined, filled⟩ := bind_eq_ok.1 h
    -- what has something inside is no union, and what is inside comes from what is at hand
    have inside (noLeaf : ∀ t, o ≠ .leaf t) : ∃ inner aliases, Within types node inner ∧
        Outlines types (path ++ aliases) inner o ∧ (HoldsVoid types inner → Hides types node) := by
      obtain ⟨inner, aliases, ahead, outlines⟩ := outlines_of_outline_eq_ok outlined noLeaf
      have within : Within types node inner := (resolves_of_resolveAlias ahead.resolved).mem_parts
      have noUnion : ¬ node.hasTag "TSUnionType" := by
        intro tag
        obtain ⟨rfl, -⟩ := eq_of_resolveAlias_of_hasTag ahead.resolved tag (by simp)
        cases outlines with
        | array tag' | wrapper tag' | interface tag' => simp [Value.hasTag_of_hasTag tag] at tag'
        | literal tag' => simp [Value.hasTagIn_of_hasTag tag] at tag'
      exact ⟨inner, aliases, within, outlines,
        fun holds => .inside noUnion (holds.of_within within)⟩
    cases o with
    | leaf type =>
      cases filled
      exact SchemaType.emptiedBy_leaf outlined
    | array path' element =>
      obtain ⟨inner, aliases, -, outlines, up⟩ := inside nofun
      obtain ⟨site, element_type, sited, typed, rfl⟩ := fill_array_eq_ok.1 filled
      obtain ⟨-, nullable, split⟩ := elementSite_eq_ok sited
      refine SchemaType.emptiedBy_array ((ih typed).mono fun hides => up ?_)
      exact (hides.of_splitNullable split).of_within outlines.within_element
    | object path' members =>
      obtain ⟨inner, aliases, -, outlines, up⟩ := inside nofun
      obtain ⟨entries, rfl, items⟩ := fill_object_eq_ok.1 filled
      refine SchemaType.emptiedBy_object fun e he => ?_
      obtain ⟨member, mem, built⟩ := exists_mem_of_forall₂ items.flip he
      obtain ⟨site, member_type, sited, typed, rfl⟩ := memberEntry_eq_ok.1 built
      refine (ih typed).mono fun hides => up ?_
      exact (hides.of_memberSite sited).of_within
        (outlines.within_member mem (isObject_of_memberSite sited))

theorem emptiedBy_of_annotate (h : annotate types slot path node = .ok type) :
    type.EmptiedBy (HoldsVoid types node) :=
  (emptiedBy_of_annotateTo _ h).mono Hides.holdsVoid

theorem emptiedBy_of_entryOf {entry : Entry SchemaType}
    (h : entryOf types withDefaults member = .ok entry) :
    entry.type.EmptiedBy (HoldsVoid types member) := by
  obtain ⟨site, type, sited, typed, rfl⟩ := memberEntry_eq_ok.1 h
  exact (emptiedBy_of_annotateTo _ typed).mono fun hides => hides.of_memberSite sited

theorem emptiedBy_of_payload {event : Event} (h : eventOfMember? types member = .ok (some event))
    (payload : event.payload = some entries) :
    (SchemaType.object entries).EmptiedBy (HoldsVoid types member) := by
  obtain ⟨node, part, read⟩ := exists_mem_parts_of_eventOfMember? h
  rw [payload, payloadOf] at read
  split at read
  · cases read
  · obtain ⟨type, typed, read⟩ := bind_eq_ok.1 read
    split at read
    · cases read
      exact (emptiedBy_of_annotate typed).mono (HoldsVoid.of_within (.inl part))
    · cases read

/-! ### Where void unions are typed -/

/-- **The elements of an array can be typed by a void union,** unless a default is declared. -/
theorem annotate_of_void_elements (tag : node.hasTag "TSArrayType")
    (void : (node.get "elementType").withoutParentheses.Void) :
    annotate types slot path node = .ok type ↔
      slot.default = none ∧ type = .array (.stringEnum [] none) := by
  obtain ⟨rest, nullable, split, empty⟩ := void.splitNullable_eq
  have sited : elementSite slot (node.get "elementType") =
      .ok (⟨slot.name, slot.withDefaults, nullable, slot.default, true⟩, rest) := by
    rw [elementSite, split]
    rfl
  rw [annotate_of_array tag, fill_array_eq_ok]
  simp only [sited, Except.ok.injEq, exists_and_left, exists_eq_left', annotate_of_union empty.tag,
    empty.enumType_eq_ok, Slot.carriesDefault]
  constructor
  · rintro ⟨inner, ⟨none, -, rfl⟩, rfl⟩
    exact ⟨none, rfl⟩
  · rintro ⟨none, rfl⟩
    exact ⟨_, ⟨none, by simp, rfl⟩, rfl⟩

/-- **A member can be typed by a void union** where no defaults are called for. -/
theorem memberEntry_of_void (signature : member.hasTag "TSPropertySignature")
    (named : member.keyName.isNull = false) (void : member.memberType.withoutParentheses.Void) :
    (∃ optional, memberEntry (annotate types) withDefaults path member =
      .ok ⟨member.keyName, optional, .stringEnum [] none⟩) ↔ withDefaults = false := by
  obtain ⟨rest, nullable, split, empty⟩ := void.splitNullable_eq
  -- no default is split off a union
  have whole : (if withDefaults then splitDefault member.keyName rest else .ok (rest, none)) =
      .ok (rest, none) := by
    rw [splitDefault_of_union empty.tag, ite_self]
  simp only [memberEntry, memberSite_of_split signature named split, whole, ok_bind,
    annotate_of_union empty.tag]
  constructor
  · rintro ⟨optional, built⟩
    obtain ⟨type, typed, -⟩ := bind_eq_ok.1 built
    simpa [Slot.carriesDefault] using (empty.enumType_eq_ok.1 typed).2.1
  · rintro rfl
    refine ⟨(member.get "optional").truthy || nullable || false, ?_⟩
    rw [empty.enumType_eq_ok.2 ⟨rfl, rfl, rfl⟩]
    rfl

/-! ### The enums of the facets -/

/-- **How an enum leaves:** with its options, which are texts or integers by its tag. -/
structure SchemaType.LeavesWithOptions (type : SchemaType) : Prop where
  written : type.toValue.get "options" = .arr type.options
  kind : type.toValue.get "type" = "StringEnumTypeAnnotation" ∧
      (∀ o ∈ type.options, ∃ s, o = .str s) ∨
    type.toValue.get "type" = "Int32EnumTypeAnnotation" ∧ ∀ o ∈ type.options, ∃ n, o = .int n

theorem SchemaType.leavesWithOptions (enum : type.isEnum) : type.LeavesWithOptions := by
  cases type with
  | stringEnum texts default =>
    refine ⟨by simp [toValue, Value.record, Value.get, Table.find?_cons, options], .inl ⟨rfl, ?_⟩⟩
    simp [options]
  | int32Enum ints default =>
    refine ⟨by simp [toValue, Value.record, Value.get, Table.find?_cons, options], .inr ⟨rfl, ?_⟩⟩
    simp [options]
  | basic | reserved | mixed | array | object => cases enum

/-- The type of a member of props or state is no enum without options, since an enum has a default
there. -/
theorem not_empty_of_furnished {source : Prop}
    (furnished : ∀ e ∈ entries, e.type.Furnished (.member e.optional))
    (emptied : (SchemaType.object entries).EmptiedBy source) :
    ∀ e ∈ SchemaType.entryMembers entries, ¬ e.type.Empty := by
  intro e he empty
  have inside : e.type ∈ (SchemaType.object entries).annotations :=
    SchemaType.annotations_subset_of_mem_members he _ (SchemaType.mem_annotations_self e.type)
  have own := (SchemaType.Furnished.object .element furnished).inside.1 e he
  rw [(emptied _ inside empty).1] at own
  generalize e.optional = optional at own
  cases own

/-- There are no enums in the parameters of a command. -/
theorem ParamOf.not_isEnum {command param : Value} {entry : Entry SchemaType}
    (h : ParamOf types command param entry) : ∀ t ∈ entry.type.annotations, t.isEnum = false := by
  obtain ⟨basic, default, same | same⟩ := h.basic <;> rw [same]
  · exact List.forall_mem_singleton.2 rfl
  · exact List.forall_mem_cons.2 ⟨rfl, List.forall_mem_singleton.2 rfl⟩

/-- **Enums have options, unless a void union is at hand.** An enum in the props, the state or the
events of members has texts or integers for its options. If it has none, it is without a default,
and a union of nothing but `null` and `undefined` is at hand in the members; it is then not the type
of a prop or a state member, at no depth. In commands there are no enums. Conversely elements of
arrays and members that are such a union have an enum without options for their type exactly where
no default is declared or called for. -/
theorem enums_have_options (types : Declarations) (members : List Value) :
    (∀ entries, propsOf types members = .ok entries ∨ stateOf types members = .ok entries →
      (SchemaType.object entries).EmptiedBy (∃ member ∈ members, HoldsVoid types member) ∧
        ∀ e ∈ SchemaType.entryMembers entries, ¬ e.type.Empty) ∧
    (∀ events, eventsOf types members = .ok events → ∀ event ∈ events, ∀ entries,
      event.payload = some entries →
        (SchemaType.object entries).EmptiedBy (∃ member ∈ members, HoldsVoid types member)) ∧
    (∀ commands, commandsOf types members = .ok commands → ∀ command ∈ commands,
      ∀ param ∈ command.params, ∀ t ∈ param.type.annotations, t.isEnum = false) ∧
    (∀ type : SchemaType, type.isEnum → type.LeavesWithOptions) ∧
    (∀ slot path node type, node.hasTag "TSArrayType" →
      (node.get "elementType").withoutParentheses.Void →
        (annotate types slot path node = .ok type ↔
          slot.default = none ∧ type = .array (.stringEnum [] none))) ∧
    ∀ withDefaults path member, member.hasTag "TSPropertySignature" →
      member.keyName.isNull = false → member.memberType.withoutParentheses.Void →
        ((∃ optional, memberEntry (annotate types) withDefaults path member =
          .ok ⟨member.keyName, optional, .stringEnum [] none⟩) ↔ withDefaults = false) := by
  -- an entry of props or state is that of one of the members
  have ofMembers (entries : List (Entry SchemaType))
      (read : ∀ e ∈ entries, ∃ member ∈ members, entryOf types true member = .ok e) :
      (SchemaType.object entries).EmptiedBy (∃ member ∈ members, HoldsVoid types member) ∧
        ∀ e ∈ SchemaType.entryMembers entries, ¬ e.type.Empty := by
    have emptied : (SchemaType.object entries).EmptiedBy
        (∃ member ∈ members, HoldsVoid types member) := by
      refine SchemaType.emptiedBy_object fun e he => ?_
      obtain ⟨member, mem, built⟩ := read e he
      exact (emptiedBy_of_entryOf built).mono fun holds => ⟨member, mem, holds⟩
    refine ⟨emptied, not_empty_of_furnished (fun e he => ?_) emptied⟩
    obtain ⟨member, -, built⟩ := read e he
    exact furnished_of_entryOf_eq_ok built
  refine ⟨fun entries given => ofMembers entries fun e he => ?_,
    fun events given event he entries payload => ?_, fun commands given command hc param hp => ?_,
    fun type => SchemaType.leavesWithOptions, fun slot path node type => annotate_of_void_elements,
    fun withDefaults path member => memberEntry_of_void⟩
  · rcases given with props | state
    · obtain ⟨member, mem, built⟩ := exists_mem_of_filterMap_mapM props he
      exact ⟨member, mem, entryOf_of_propOfMember?_eq_ok built⟩
    · exact exists_mem_of_mem_mapM state he
  · obtain ⟨member, mem, built⟩ := exists_mem_of_filterMap_mapM given he
    exact (emptiedBy_of_payload built payload).mono fun holds => ⟨member, mem, holds⟩
  · obtain ⟨member, -, built⟩ := exists_mem_of_mem_mapM given hc
    obtain ⟨function, ref, params, -, -, -, entries⟩ := (commandOf_eq_ok built).params
    exact forall_mem_of_forall₂ entries (fun _ _ read => read.not_isEnum) param hp

namespace Sample

/-- A union of nothing but `null`. -/
def nothing : Value := unionWith [keyword "TSNullKeyword", keyword "TSUndefinedKeyword"]

/-- Marks, of which each is nothing. -/
def marks : Value :=
  property "marks" (arrayOf (Sample.node "TSParenthesizedType" [("typeAnnotation", nothing)]))

/-- What a press carries: a mark that is nothing. -/
def markPayload : Value := literal [property "mark" nothing]

def markedMember : Value := property "onMark" (reference "DirectEventHandler" [markPayload])

theorem void_nothing : nothing.Void := by
  refine ⟨rfl, _, rfl, List.forall_mem_cons.2 ⟨rfl, List.forall_mem_singleton.2 rfl⟩⟩

/-- The marks have an entry, in which they are an enum without options. -/
theorem propsOf_marks :
    propsOf [] [marks] = .ok [⟨"marks", false, .array (.stringEnum [] none)⟩] := by
  have noEvent : isEvent marks = .ok false := by with_unfolding_all rfl
  have sited : memberSite true marks =
      .ok (⟨"marks", true, false, none, false⟩, marks.memberType) := by with_unfolding_all rfl
  have elements : (marks.memberType.get "elementType").withoutParentheses = nothing := by
    with_unfolding_all rfl
  have typed : annotate [] ⟨"marks", true, false, none, false⟩ [] marks.memberType =
      .ok (.array (.stringEnum [] none)) :=
    (annotate_of_void_elements rfl (elements ▸ void_nothing)).2 ⟨rfl, rfl⟩
  have entry : entryOf [] true marks = .ok ⟨"marks", false, .array (.stringEnum [] none)⟩ :=
    memberEntry_eq_ok.2 ⟨_, _, sited, typed, rfl⟩
  simp only [propsOf, filterMap_mapM_cons, propOfMember?, noEvent, entry, ok_bind]
  rfl

/-- A payload with such a mark has an entry for it as well. -/
theorem eventsOf_markedMember : eventsOf [] [markedMember] =
    .ok [⟨"onMark", false, .direct, none, some [⟨"mark", true, .stringEnum [] none⟩]⟩] := by
  have sited : memberSite false (property "mark" nothing) =
      .ok (⟨"mark", false, true, none, false⟩, nothing.put "types" (.arr [])) := by
    with_unfolding_all rfl
  have outlined : outline [] ⟨"mark", false, true, none, false⟩ []
      (nothing.put "types" (.arr [])) = .ok (.leaf (.stringEnum [] none)) := by
    with_unfolding_all rfl
  have typed : annotate [] ⟨"onMark", false, false, none, false⟩ [] markPayload =
      .ok (.object [⟨"mark", true, .stringEnum [] none⟩]) := by
    rw [annotate_of_literal rfl rfl (by simp [property])]
    exact fill_object_eq_ok.2 ⟨_, rfl, .cons (memberEntry_of_leaf sited outlined) .nil⟩
  have payload : payloadOf [] "onMark" markPayload =
      .ok (some [⟨"mark", true, .stringEnum [] none⟩]) := by
    rw [payloadOf, if_neg (by simp [markPayload, literal]), typed]
    rfl
  have signature : markedMember.hasTag "TSPropertySignature" := by simp [markedMember, property]
  have name : markedMember.keyName = "onMark" := keyName_property _ _
  have handled : eventHandler? markedMember.memberType =
      .ok (some (markedMember.memberType, .direct)) := by with_unfolding_all rfl
  have alone : markedMember.memberType.splitNullable = .ok (markedMember.memberType, false) := by
    with_unfolding_all rfl
  have arguments : markedMember.memberType.typeArguments = [markPayload] := by
    with_unfolding_all rfl
  simp only [eventsOf, filterMap_mapM_cons, eventOfMember?, signature, handled, eventOf, alone,
    arguments, name, payload, ok_bind, pure_eq, Bool.not_true, Bool.false_eq_true, if_false]
  rfl

end Sample

open Sample in
/-- Marks that are nothing are typed by an enum without options, in props and in a payload. -/
theorem enums_have_options_marks :
    (SchemaType.object [⟨"marks", false, .array (.stringEnum [] none)⟩]).EmptiedBy
        (∃ member ∈ [marks], HoldsVoid [] member) ∧
      propsOf [] [marks] = .ok [⟨"marks", false, .array (.stringEnum [] none)⟩] ∧
    (SchemaType.object [⟨"mark", true, .stringEnum [] none⟩]).EmptiedBy
        (∃ member ∈ [markedMember], HoldsVoid [] member) ∧
    (∃ drawn, commandsOf [] scrollerCommands = .ok drawn ∧ drawn ≠ [] ∧
      ∀ command ∈ drawn, ∀ param ∈ command.params, ∀ t ∈ param.type.annotations,
        t.isEnum = false) ∧
    (SchemaType.stringEnum ["on", "off"] none).LeavesWithOptions ∧
    annotate [] ⟨"marks", true, false, none, false⟩ [] (arrayOf nothing) =
      .ok (.array (.stringEnum [] none)) ∧
    ∃ optional, memberEntry (annotate []) false [] (property "mark" nothing) =
      .ok ⟨"mark", optional, .stringEnum [] none⟩ := by
  obtain ⟨props, -, -, leaves, elements, member⟩ := enums_have_options [] [marks]
  obtain ⟨-, events, -⟩ := enums_have_options [] [markedMember]
  obtain ⟨-, -, commands, -⟩ := enums_have_options [] scrollerCommands
  have bare : nothing.withoutParentheses = nothing := withoutParentheses_unionWith _
  obtain ⟨first, rest, drawn⟩ :
      ∃ first rest, commandsOf [] scrollerCommands = .ok (first :: rest) :=
    ⟨_, _, by with_unfolding_all rfl⟩
  have name : (property "mark" nothing).keyName = "mark" := keyName_property _ _
  refine ⟨(props _ (.inl propsOf_marks)).1, propsOf_marks, ?_, ?_, leaves _ rfl, ?_, ?_⟩
  · exact events _ eventsOf_markedMember _ (.head _) _ rfl
  · exact ⟨_, drawn, List.cons_ne_nil _ _, commands _ drawn⟩
  · refine (elements _ [] (arrayOf nothing) _ rfl ?_).2 ⟨rfl, rfl⟩
    exact bare.symm ▸ void_nothing
  · rw [← name]
    refine (member false [] _ (by simp [property]) (by rw [name]; rfl) ?_).2 rfl
    exact bare.symm ▸ void_nothing

open Sample in
/-- An enum may be without options, in props and in the payload of an event. -/
theorem not_every_enum_has_options :
    ¬ (∀ types members entries, propsOf types members = .ok entries →
      ∀ t ∈ SchemaType.entryAnnotations entries, t.isEnum → t.options ≠ []) ∧
    ¬ ∀ types members events, eventsOf types members = .ok events → ∀ event ∈ events, ∀ entries,
      event.payload = some entries →
        ∀ t ∈ SchemaType.entryAnnotations entries, t.isEnum → t.options ≠ [] := by
  constructor
  · intro claim
    exact claim [] [marks] _ propsOf_marks (.stringEnum [] none) (.tail _ (.head _)) rfl rfl
  · intro claim
    exact claim [] [markedMember] _ eventsOf_markedMember _ (.head _) _ rfl (.stringEnum [] none)
      (.head _) rfl rfl

end ComponentSpec
