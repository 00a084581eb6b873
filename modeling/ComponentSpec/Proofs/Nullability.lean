import ComponentSpec.Proofs.Assembly
import ComponentSpec.Proofs.Circle
import ComponentSpec.Proofs.Levels

/-!
# Nullable members

A member can be made optional in two ways: its signature says so, or its annotation is a union with
`null` or `undefined` in it. What is left of such a union is its only other member, or the union of
the others (`Value.withoutNull`). The two ways come to the same. A member with a nullable union, and
the member marked optional with what is left of the union, have the same entry, or are refused for
the same cause at the same place (`optionality_however_spelled`). If they are events they are the
same event.

The comparison turns on one fact: what is left has nothing more to be split off. It can fail only
for a union whose members cannot be run through. Then the second member fails as it is read, and the
first as it is typed, and both for the same.

Nullability is read off the annotation as it is written, before any alias is followed. A union with
`null` behind an alias therefore comes to be typed with its `null` in it. It is taken for a choice
of literals, among which `null` is none, and it is refused (`nullable_alias_refused`).

* `Value.NullableUnion`, `Value.withoutNull`, `Value.LeavesPlain` — unions with `null`;
* `Value.OptionalTwin` — a member, and the member marked optional with another annotation;
* `Fault.unpinned` — a fault, whatever node it is made out to;
* `annotate_of_nullable_behind` — a union with `null` has no type.
-/

namespace ComponentSpec

open Checked

variable {types : Declarations} {slot : Slot} {path aliases : List Scalar}
  {node union member member' rest : Value} {withDefaults nullable : Bool} {f : Fault}

/-! ### Unions with `null` -/

namespace Value

/-- **A union with `null` or `undefined`** among its members. -/
structure NullableUnion (node : Value) : Prop where
  tag : node.hasTag "TSUnionType"
  nullable : ∃ t ∈ (node.get "types").listOrEmpty, t.hasTagIn nullableTags

/-- The members of a union that stand for a value. -/
def remaining (union : Value) : List Value :=
  (union.get "types").listOrEmpty.filter fun t => !t.hasTagIn nullableTags

/-- **What is left of a union** without `null`: its only other member, or the union of the
others. -/
def withoutNull (union : Value) : Value :=
  match union.remaining with
  | [only] => only
  | several => union.put "types" (.arr several)

/-- **Nothing more can be split off what is left** of a union: an only member stands in no
parentheses, and is no union with `null` again. -/
def LeavesPlain (union : Value) : Prop :=
  ∀ only, union.remaining = [only] →
    only.hasTag "TSParenthesizedType" = false ∧ ¬ only.NullableUnion

/-- The members of a union with `null` stand in a list. -/
theorem NullableUnion.listed (h : union.NullableUnion) :
    ∃ members, union.get "types" = .arr members ∧ ∃ t ∈ members, t.hasTagIn nullableTags := by
  obtain ⟨t, mem, tagged⟩ := h.nullable
  cases types : union.get "types" with
  | arr members =>
    rw [types] at mem
    exact ⟨members, rfl, t, mem, tagged⟩
  | scalar | obj =>
    rw [types] at mem
    cases mem

/-- **A union with `null` loses it.** -/
theorem splitNullable_of_nullableUnion (h : node.withoutParentheses.NullableUnion) :
    node.splitNullable = .ok (node.withoutParentheses.withoutNull, true) := by
  obtain ⟨members, listed, t, mem, tagged⟩ := h.listed
  have fewer : (members.filter fun t => !t.hasTagIn nullableTags).length ≠ members.length := by
    intro same
    have kept := List.length_filter_eq_length_iff.1 same t mem
    simp [tagged] at kept
  simp only [splitNullable, h.tag, Bool.not_true, Bool.false_eq_true, if_false, listed,
    elements_arr, ok_bind, fewer, withoutNull, remaining, listOrEmpty, list?, Option.getD_some]
  -- on both sides it only counts whether there is one member left
  generalize (members.filter fun t => !t.hasTagIn nullableTags) = kept
  rcases kept with _ | ⟨only, _ | _⟩ <;> rfl

/-- Where there is no union with `null` there is nothing to split off. A union whose members cannot
be run through fails here, as it does wherever it is read. -/
theorem splitNullable_of_plain (parentheses : node.hasTag "TSParenthesizedType" = false)
    (plain : ¬ node.NullableUnion) :
    node.splitNullable = .ok (node, false) ∨
      node.hasTag "TSUnionType" ∧ ∃ f, (node.get "types").elements = .error f ∧
        node.splitNullable = .error f := by
  have bare := withoutParentheses_of_not_tag parentheses
  cases tag : node.hasTag "TSUnionType" with
  | false => exact .inl (splitNullable_of_not_union parentheses tag)
  | true =>
    cases read : (node.get "types").elements with
    | error f => exact .inr ⟨rfl, f, rfl, by simp [splitNullable, bare, tag, read]⟩
    | ok members =>
      -- a member that stands for no value is a node, so it would stand in a list
      have none_nullable : ∀ t ∈ members, !t.hasTagIn nullableTags := by
        intro t mem
        by_contra tagged
        replace tagged : t.hasTagIn nullableTags := by simpa using tagged
        have listed :=
          eq_arr_of_mem_elements read mem (mem_parts_self t) (isObject_of_hasTagIn tagged)
        apply plain
        refine ⟨tag, t, ?_, tagged⟩
        rw [listed]
        exact mem
      left
      simp only [splitNullable, bare, tag, read, ok_bind, List.filter_eq_self.2 none_nullable,
        Bool.not_true, Bool.false_eq_true, if_false, if_true, pure_eq]

/-- **What is left of a union is plain.** -/
theorem NullableUnion.withoutNull_plain (h : union.NullableUnion) (plain : union.LeavesPlain) :
    union.withoutNull.hasTag "TSParenthesizedType" = false ∧ ¬ union.withoutNull.NullableUnion := by
  unfold withoutNull
  split
  · next only alone => exact plain only alone
  · have tag : (union.put "types" (.arr union.remaining)).hasTag "TSUnionType" := by
      rw [hasTag_iff, tag_put (by simp)]
      exact hasTag_iff.1 h.tag
    refine ⟨by simp [hasTag_of_hasTag tag], ?_⟩
    -- what stands for no value is gone from the members
    rintro ⟨-, t, mem, tagged⟩
    rw [get_put (isObject_of_hasTag h.tag)] at mem
    have kept := (List.mem_filter.1 mem).2
    simp [tagged] at kept

end Value

/-! ### Typing a union -/

theorem annotate_of_union_eq_error (tag : node.hasTag "TSUnionType")
    (refused : enumType slot node = .error f) : annotate types slot path node = .error f := by
  apply annotate_of_outline_eq_error
  rw [outline_of_hasTag tag (by simp), formOutline_of_union tag, refused, error_bind]

/-- A union is typed by its literals. -/
theorem annotate_of_union (tag : node.hasTag "TSUnionType") :
    annotate types slot path node = enumType slot node := by
  cases typed : enumType slot node with
  | error f => exact annotate_of_union_eq_error tag typed
  | ok type =>
    have outlined : outline types slot path node = .ok (.leaf type) := by
      rw [outline_of_hasTag tag (by simp), formOutline_of_union tag, typed, ok_bind]
    rw [annotate_of_outline outlined]
    rfl

/-- A union whose members cannot be run through has no type. -/
theorem annotate_of_unreadable (tag : node.hasTag "TSUnionType")
    (unreadable : (node.get "types").elements = .error f) :
    annotate types slot path node = .error f := by
  apply annotate_of_union_eq_error tag
  simp [enumType, choices, tag, unreadable]

/-! ### Two spellings of an optional member -/

/-- **A member, and the member marked optional** with another annotation. In all other fields the
two are the same. -/
structure Value.OptionalTwin (member member' type : Value) : Prop where
  optional : member'.get "optional" = .bool true
  typed : member'.memberType = type
  others : ∀ key, key ≠ "optional" → key ≠ "typeAnnotation" → member'.get key = member.get key

/-- A member marked optional, with another annotation. -/
def Value.asOptional (member type : Value) : Value :=
  (member.put "optional" (.bool true)).put "typeAnnotation"
    (.record [("type", "TSTypeAnnotation"), ("typeAnnotation", type)])

/-- Every member has a twin. -/
theorem Value.optionalTwin_asOptional (isObject : member.isObject) (type : Value) :
    member.OptionalTwin (member.asOptional type) type := by
  have marked : (member.put "optional" (.bool true)).isObject := by
    obtain ⟨entries, rfl⟩ := isObject_iff.1 isObject
    rfl
  refine ⟨?_, ?_, fun key unmarked untyped => ?_⟩
  · rw [asOptional, get_put_of_ne (by simp), get_put isObject]
  · rw [memberType, asOptional, get_put marked]
    rfl
  · rw [asOptional, get_put_of_ne untyped.symm, get_put_of_ne unmarked.symm]

/-- **A fault, whatever node it is made out to.** The node only gives a report its place: what the
report says stays the same without it (`Report.text_unpinned`). -/
def Fault.unpinned : Fault → Fault
  | .report r => .report { r with node := .null }
  | f => f

theorem Report.text_unpinned (r : Report) : { r with node := .null }.text = r.text := rfl

/-- The slot and the annotation of a member once `null` is split off. -/
theorem memberSite_of_split (signature : member.hasTag "TSPropertySignature")
    (named : member.keyName.isNull = false)
    (split : member.memberType.splitNullable = .ok (rest, nullable)) :
    memberSite withDefaults member =
      (if withDefaults then splitDefault member.keyName rest else .ok (rest, none)) >>= fun r =>
        .ok (⟨member.keyName, withDefaults,
          (member.get "optional").truthy || nullable || r.2.isSome, r.2, false⟩, r.1) := by
  simp only [memberSite, signature, named, Bool.not_true, Bool.or_self, Bool.false_eq_true,
    if_false, split, ok_bind]
  cases withDefaults <;> rfl

theorem memberSite_of_unnamed
    (unnamed : member.hasTag "TSPropertySignature" = false ∨ member.keyName.isNull) :
    memberSite withDefaults member = .error (.about (.memberUnnamed member.tag) member) := by
  rcases unnamed with other | nameless
  · simp [memberSite, other]
  · simp [memberSite, nameless]

namespace Value.OptionalTwin

variable {type : Value}

theorem tag (h : OptionalTwin member member' type) : member'.tag = member.tag :=
  h.others "type" (by simp) (by simp)

theorem hasTag (h : OptionalTwin member member' type) (tag : String) :
    member'.hasTag tag = member.hasTag tag := by
  rw [Value.hasTag, h.tag, Value.hasTag]

theorem keyName (h : OptionalTwin member member' type) : member'.keyName = member.keyName := by
  rw [Value.keyName, h.others "key" (by simp) (by simp), Value.keyName]

/-- **Both members start at the same place,** so a fault says the same of both. -/
theorem unpinned_about (h : OptionalTwin member member' type) (isObject : member.isObject)
    (cause : Cause) :
    (Fault.about cause member').unpinned = (Fault.about cause member).unpinned := by
  have isObject' : member'.isObject := by
    by_contra other
    have optional := h.optional
    rw [get_eq_null (by simpa using other)] at optional
    cases optional
  have loc : entryOrEmpty member' "loc" = entryOrEmpty member "loc" := by
    obtain ⟨entries, rfl⟩ := isObject_iff.1 isObject
    obtain ⟨entries', rfl⟩ := isObject_iff.1 isObject'
    simp only [entryOrEmpty, h.others "loc" (by simp) (by simp)]
  have place : Place.ofNode member' = Place.ofNode member := by
    rw [Place.ofNode, Place.ofNode, isObject, isObject', loc]
  rw [Fault.about, Fault.about, place]
  cases Place.ofNode member <;> rfl

end Value.OptionalTwin

/-- Once `null` is split off a member, its twin is read the same. -/
theorem memberSite_of_twin (signature : member.hasTag "TSPropertySignature")
    (named : member.keyName.isNull = false) (twin : member.OptionalTwin member' rest)
    (split : member.memberType.splitNullable = .ok (rest, true))
    (settled : rest.splitNullable = .ok (rest, false)) :
    memberSite withDefaults member' = memberSite withDefaults member := by
  have signature' : member'.hasTag "TSPropertySignature" := by rwa [twin.hasTag]
  have named' : member'.keyName.isNull = false := by rwa [twin.keyName]
  have split' : member'.memberType.splitNullable = .ok (rest, false) := by rwa [twin.typed]
  rw [memberSite_of_split signature named split, memberSite_of_split signature' named' split',
    twin.keyName, twin.optional]
  simp only [Value.truthy, Scalar.truthy, Bool.or_true, Bool.true_or]

theorem memberEntry_of_twin (twin : member.OptionalTwin member' rest)
    (split : member.memberType.splitNullable = .ok (rest, true))
    (parentheses : rest.hasTag "TSParenthesizedType" = false) (plain : ¬ rest.NullableUnion)
    (signature : member.hasTag "TSPropertySignature") (named : member.keyName.isNull = false) :
    memberEntry (annotate types) withDefaults path member' =
      memberEntry (annotate types) withDefaults path member := by
  rcases Value.splitNullable_of_plain parentheses plain with settled | ⟨tag, f, unreadable, fails⟩
  · rw [memberEntry, memberEntry, memberSite_of_twin signature named twin split settled]
  -- the twin fails as it is read, the member as its annotation is typed
  · have read : memberSite withDefaults member' = .error f := by
      rw [← twin.typed] at fails
      have named' : member'.keyName.isNull = false := by rwa [twin.keyName]
      have signature' : member'.hasTag "TSPropertySignature" := by rwa [twin.hasTag]
      simp [memberSite, named', signature', fails]
    have undeclared :
        (if withDefaults then splitDefault member.keyName rest else .ok (rest, none)) =
          .ok (rest, none) := by
      split
      · exact splitDefault_of_union tag
      · rfl
    rw [memberEntry, memberEntry, read, memberSite_of_split signature named split, undeclared]
    simp only [ok_bind, error_bind, annotate_of_unreadable tag unreadable]

theorem eventOfMember?_of_twin (twin : member.OptionalTwin member' rest)
    (split : member.memberType.splitNullable = .ok (rest, true))
    (parentheses : rest.hasTag "TSParenthesizedType" = false) (event : isEvent member = .ok true) :
    isEvent member' = .ok true ∧ eventOfMember? types member' = eventOfMember? types member := by
  have signature : member.hasTag "TSPropertySignature" := by
    cases signature : member.hasTag "TSPropertySignature" with
    | true => rfl
    | false => simp [isEvent, signature] at event
  -- a handler is a reference, so there is nothing to split off it
  have reference : rest.hasTag "TSTypeReference" := by
    cases reference : rest.hasTag "TSTypeReference" with
    | true => rfl
    | false => simp [isEvent, signature, eventHandler?, split, reference] at event
  have settled : member'.memberType.splitNullable = .ok (rest, false) := by
    rw [twin.typed]
    exact Value.splitNullable_of_not_union parentheses (by simp [Value.hasTag_of_hasTag reference])
  have handler : eventHandler? member'.memberType = eventHandler? member.memberType := by
    simp only [eventHandler?, split, settled, ok_bind]
  constructor
  · rw [← event, isEvent, isEvent, twin.hasTag, handler]
  · simp only [eventOfMember?, twin.hasTag, handler, eventOf, twin.keyName, split, settled, ok_bind,
      twin.optional, Value.truthy, Scalar.truthy, Bool.or_true, Bool.or_false]

/-- **Optionality is the same however it is spelled.** A member whose annotation is a union with
`null` has the entry of the member that is marked optional and has what is left of the union for its
annotation, or both are refused for the same cause at the same place; and if it is an event, both
are the same event. What is left of the union has to be plain. -/
theorem optionality_however_spelled (types : Declarations) {member member' : Value}
    (union : member.memberType.withoutParentheses.NullableUnion)
    (plain : member.memberType.withoutParentheses.LeavesPlain)
    (twin : member.OptionalTwin member' member.memberType.withoutParentheses.withoutNull) :
    (∀ withDefaults path,
      (memberEntry (annotate types) withDefaults path member').mapError Fault.unpinned =
        (memberEntry (annotate types) withDefaults path member).mapError Fault.unpinned) ∧
    (isEvent member = .ok true →
      isEvent member' = .ok true ∧ eventOfMember? types member' = eventOfMember? types member) := by
  have split := Value.splitNullable_of_nullableUnion union
  obtain ⟨parentheses, settled⟩ := union.withoutNull_plain plain
  refine ⟨fun withDefaults path => ?_, eventOfMember?_of_twin twin split parentheses⟩
  by_cases unnamed : member.hasTag "TSPropertySignature" = false ∨ member.keyName.isNull
  -- what is no named property is refused before its annotation is read
  · have unnamed' : member'.hasTag "TSPropertySignature" = false ∨ member'.keyName.isNull := by
      rwa [twin.hasTag, twin.keyName]
    have isObject : member.isObject := by
      by_contra other
      have tag := union.tag
      rw [Value.memberType, Value.get_eq_null (by simpa using other)] at tag
      revert tag
      with_unfolding_all decide
    rw [memberEntry, memberEntry, memberSite_of_unnamed unnamed, memberSite_of_unnamed unnamed',
      twin.tag]
    exact congrArg Except.error (twin.unpinned_about isObject _)
  · simp only [not_or, Bool.not_eq_false, Bool.not_eq_true] at unnamed
    rw [memberEntry_of_twin twin split parentheses settled unnamed.1 unnamed.2]

namespace Sample

/-- A mode that may be missing. -/
def modeMember : Value :=
  property "mode" (unionWith [keyword "TSNullKeyword", literalType "StringLiteral" "on",
    keyword "TSUndefinedKeyword", literalType "StringLiteral" "off"])

/-- A handler that may be missing. -/
def pressMember : Value :=
  property "onPress" (unionWith [reference "DirectEventHandler" [keyword "TSNullKeyword"],
    keyword "TSNullKeyword"])

/-- What is left of the union that a member has for its annotation. -/
def leftOf (member : Value) : Value := member.memberType.withoutParentheses.withoutNull

theorem withoutParentheses_unionWith (members : List Value) :
    (unionWith members).withoutParentheses = unionWith members :=
  Value.withoutParentheses_of_not_tag rfl

theorem nullableUnion_unionWith {members : List Value}
    (nullable : ∃ t ∈ members, t.hasTagIn nullableTags) : (unionWith members).NullableUnion :=
  ⟨rfl, nullable⟩

theorem nullableUnion_property {name : String} {members : List Value}
    (nullable : ∃ t ∈ members, t.hasTagIn nullableTags) :
    (property name (unionWith members)).memberType.withoutParentheses.NullableUnion := by
  rw [memberType_property, withoutParentheses_unionWith]
  exact nullableUnion_unionWith nullable

/-- There are two modes left, so none is the only one. -/
theorem leavesPlain_modeMember : modeMember.memberType.withoutParentheses.LeavesPlain := by
  rw [modeMember, memberType_property, withoutParentheses_unionWith]
  intro only alone
  cases alone

theorem leavesPlain_pressMember : pressMember.memberType.withoutParentheses.LeavesPlain := by
  rw [pressMember, memberType_property, withoutParentheses_unionWith]
  intro only alone
  cases alone
  exact ⟨rfl, fun union => nomatch union.tag⟩

end Sample

open Sample in
/-- A mode is read as the mode marked optional, and a handler as the handler marked optional. -/
theorem optionality_however_spelled_press :
    (memberEntry (annotate []) false [] (modeMember.asOptional (leftOf modeMember))).mapError
        Fault.unpinned =
      (memberEntry (annotate []) false [] modeMember).mapError Fault.unpinned ∧
    memberEntry (annotate []) false [] modeMember =
      .ok ⟨"mode", true, .stringEnum ["on", "off"] none⟩ ∧
    isEvent (pressMember.asOptional (leftOf pressMember)) = .ok true ∧
    eventOfMember? [] (pressMember.asOptional (leftOf pressMember)) =
      eventOfMember? [] pressMember := by
  have modeUnion : modeMember.memberType.withoutParentheses.NullableUnion :=
    nullableUnion_property ⟨keyword "TSNullKeyword", .head _, rfl⟩
  have pressUnion : pressMember.memberType.withoutParentheses.NullableUnion :=
    nullableUnion_property ⟨keyword "TSNullKeyword", .tail _ (.head _), rfl⟩
  have event : isEvent pressMember = .ok true := by with_unfolding_all rfl
  have mode := optionality_however_spelled [] modeUnion leavesPlain_modeMember
    (Value.optionalTwin_asOptional rfl (leftOf modeMember))
  have press := optionality_however_spelled [] pressUnion leavesPlain_pressMember
    (Value.optionalTwin_asOptional rfl (leftOf pressMember))
  -- the mode has an entry, so the equation says more than that both fail
  have sited : memberSite false modeMember =
      .ok (⟨"mode", false, true, none, false⟩, leftOf modeMember) := by with_unfolding_all rfl
  have outlined : outline [] ⟨"mode", false, true, none, false⟩ [] (leftOf modeMember) =
      .ok (.leaf (.stringEnum ["on", "off"] none)) := by with_unfolding_all rfl
  exact ⟨mode.1 false [], memberEntry_of_leaf sited outlined, press.2 event⟩

/-! ### `null` behind an alias -/

/-- No choice of literals has `null` among them. -/
theorem choices_of_nullableUnion (h : union.NullableUnion) : choices union = .ok none := by
  obtain ⟨members, listed, t, mem, tagged⟩ := h.listed
  simp only [choices, h.tag, if_true, listed, Value.elements_arr, ok_bind, pure_eq, Except.ok.injEq]
  by_contra some
  obtain ⟨options, given⟩ := Option.ne_none_iff_exists'.1 some
  have literal := isSome_of_mapM_eq_some given t mem
  -- what stands for no value is the literal `null`, or none at all
  obtain ⟨tag, among, tagged⟩ := Value.hasTagIn_iff.1 tagged
  simp only [nullableTags, List.mem_cons, List.not_mem_nil, or_false] at among
  rcases among with rfl | rfl
  · simp [Value.typeLiteral?, tagged, Value.isNull] at literal
  · simp [Value.typeLiteral?, Value.hasTag_of_hasTag tagged] at literal

/-- The fault of a union with `null` behind aliases. An alias that is on the path already is
reported before the union is read. -/
def aliasRefusal (path aliases : List Scalar) (name union : Value) : Fault :=
  match aliases.find? (onPath path) with
  | some back => .about (.recursiveType (.scalar back) name) union
  | none => .about (.unionKind name) union

theorem aliasRefusal_nil (aliases : List Scalar) (name union : Value) :
    aliasRefusal [] aliases name union = .about (.unionKind name) union := by
  have fresh : aliases.find? (onPath []) = none := List.find?_eq_none.2 fun a _ => by simp [onPath]
  rw [aliasRefusal, fresh]

/-- **A union with `null` has no type,** in any slot and behind any aliases. -/
theorem annotate_of_nullable_behind (resolved : resolveAlias types node = .ok (union, aliases))
    (nullable : union.NullableUnion) :
    annotate types slot path node = .error (aliasRefusal path aliases slot.name union) := by
  apply annotate_of_outline_eq_error
  rw [outline, resolved, ok_bind, aliasRefusal]
  cases back : aliases.find? (onPath path) with
  | some name => simp only [back, throw_eq, error_bind]
  | none =>
    have refused : enumType slot union = .error (.about (.unionKind slot.name) union) := by
      rw [enumType, choices_of_nullableUnion nullable]
      rfl
    simp only [back, formOutline_of_union nullable.tag, refused, error_bind]

theorem memberEntry_of_nullable_behind (signature : member.hasTag "TSPropertySignature")
    (named : member.keyName.isNull = false) (reference : member.memberType.hasTag "TSTypeReference")
    (undeclared : withDefaults → member.memberType.referenceName.isText "WithDefault" = false)
    (resolved : resolveAlias types member.memberType = .ok (union, aliases))
    (nullable : union.NullableUnion) :
    memberEntry (annotate types) withDefaults path member =
      .error (aliasRefusal path aliases member.keyName union) := by
  -- nothing is split off a reference, neither `null` nor a default
  have whole : member.memberType.splitNullable = .ok (member.memberType, false) := by
    apply Value.splitNullable_of_not_union <;> simp [Value.hasTag_of_hasTag reference]
  have without : (if withDefaults then splitDefault member.keyName member.memberType
      else .ok (member.memberType, none)) = .ok (member.memberType, none) := by
    split
    · next looked => simp [splitDefault, undeclared looked]
    · rfl
  rw [memberEntry, memberSite_of_split signature named whole, without]
  simp only [ok_bind, annotate_of_nullable_behind resolved nullable, error_bind]

/-- **A union with `null` behind an alias is refused.** A property whose annotation refers to a
local alias, behind which, directly or after more aliases, a union with `null` stands, has no entry.
In props and state, and wherever no alias of the chain is on the path, the union is reported as one
that is not supported. The same holds of every other annotation with such a union behind it, that of
an element or a payload. -/
theorem nullable_alias_refused (types : Declarations) {node union : Value} {aliases : List Scalar}
    (reference : node.hasTag "TSTypeReference")
    (resolved : resolveAlias types node = .ok (union, aliases)) (nullable : union.NullableUnion) :
    (∀ (withDefaults : Bool) path member, member.hasTag "TSPropertySignature" →
      member.keyName.isNull = false → member.memberType = node →
      (withDefaults → node.referenceName.isText "WithDefault" = false) →
      memberEntry (annotate types) withDefaults path member =
          .error (aliasRefusal path aliases member.keyName union) ∧
        entryOf types withDefaults member =
          .error (.about (.unionKind member.keyName) union)) ∧
    ∀ slot path, annotate types slot path node =
      .error (aliasRefusal path aliases slot.name union) := by
  refine ⟨?_, fun slot path => annotate_of_nullable_behind resolved nullable⟩
  intro withDefaults path member signature named typed undeclared
  subst typed
  have refused (path : List Scalar) : memberEntry (annotate types) withDefaults path member =
      .error (aliasRefusal path aliases member.keyName union) :=
    memberEntry_of_nullable_behind signature named reference undeclared resolved nullable
  refine ⟨refused path, ?_⟩
  rw [entryOf, refused, aliasRefusal_nil]

namespace Sample

/-- A text that may be missing. -/
def textOrNull : Value := unionWith [keyword "TSStringKeyword", keyword "TSNullKeyword"]

/-- A title that is a label, and a label that is a text or `null`. -/
def labels : Declarations := table [
  ("Title", aliasNamed "Title" (reference "Label" [])),
  ("Label", aliasNamed "Label" textOrNull)]

theorem nullableUnion_textOrNull : textOrNull.NullableUnion :=
  nullableUnion_unionWith ⟨keyword "TSNullKeyword", .tail _ (.head _), rfl⟩

theorem resolveAlias_label :
    resolveAlias labels (reference "Label" []) = .ok (textOrNull, [.str "Label"]) := by
  with_unfolding_all rfl

end Sample

open Sample in
theorem nullable_alias_refused_title :
    resolveAlias labels (reference "Title" []) =
      .ok (textOrNull, [.str "Title", .str "Label"]) ∧
    entryOf labels true (property "title" (reference "Title" [])) =
      .error (.about (.unionKind (.str "title")) textOrNull) := by
  have resolved : resolveAlias labels (reference "Title" []) =
      .ok (textOrNull, [.str "Title", .str "Label"]) := by with_unfolding_all rfl
  have title : (property "title" (reference "Title" [])).keyName = .str "title" := by
    with_unfolding_all rfl
  have refused := (nullable_alias_refused labels rfl resolved nullableUnion_textOrNull).1 true []
    (property "title" (reference "Title" [])) rfl (by rw [title]; rfl) rfl
    fun _ => by rw [referenceName_reference]; rfl
  rw [title] at refused
  exact ⟨resolved, refused.2⟩

open Sample in
/-- What a union with `null` is where it is written, it is not behind an alias. -/
theorem not_nullable_through_alias : ¬ ∀ (types : Declarations) (withDefaults : Bool)
    (member inline declaration : Value) (name : Scalar) (entry : Entry SchemaType),
    types.find? name = some declaration → declaration.hasTag "TSTypeAliasDeclaration" →
    (declaration.get "typeAnnotation").NullableUnion →
    member.memberType.hasTag "TSTypeReference" → member.memberType.referenceName = .scalar name →
    inline.memberType = declaration.get "typeAnnotation" →
    (∀ key, key ≠ "typeAnnotation" → inline.get key = member.get key) →
    entryOf types withDefaults inline = .ok entry →
    entryOf types withDefaults member = .ok entry := by
  intro claim
  have sited : memberSite true (property "title" textOrNull) =
      .ok (⟨"title", true, true, none, false⟩, keyword "TSStringKeyword") := by
    with_unfolding_all rfl
  have outlined : outline labels ⟨"title", true, true, none, false⟩ [] (keyword "TSStringKeyword") =
      .ok (.leaf (.basic .string (some .null))) := by with_unfolding_all rfl
  have read := claim labels true (property "title" (reference "Label" []))
    (property "title" textOrNull) (aliasNamed "Label" textOrNull) (.str "Label") _ rfl rfl
    nullableUnion_textOrNull rfl (referenceName_reference _ _) rfl ?_
    (memberEntry_of_leaf sited outlined)
  · have refused : entryOf labels true (property "title" (reference "Label" [])) = .error _ :=
      memberEntry_of_nullable_behind rfl (by with_unfolding_all rfl) rfl
        (fun _ => by with_unfolding_all rfl) resolveAlias_label nullableUnion_textOrNull
    rw [refused] at read
    cases read
  · intro key other
    simp [property, Sample.node, Value.record, Value.get, Table.find?_cons, other.symm]

end ComponentSpec
