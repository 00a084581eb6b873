import ComponentSpec.Proofs.Levels
import ComponentSpec.Proofs.Stages

/-!
# Counterparts

Two tables are counterparts if they declare the same names, and what the one has for the members of
a name, the other has as well: the same members, or in the place of a reference another reference to
the same type. Nothing that is done with members looks at more of a reference than the name. So
flattening keeps up, and if typing a single annotation keeps up too, then so does every facet, and a
schema of the one table is a schema of the other (`KeepsUp.schemaOf_carries`).

* `Value.StandsFor` — a member in the place of another;
* `Counterparts`, `Counterparts.flatten_carries` — members of declared types;
* `Counterparts.formOutline_carries`, `fill_carries` — one level of an annotation;
* `KeepsUp` — counterparts for which typing keeps up, facet by facet.
-/

namespace ComponentSpec

open Checked

variable {types types' : Declarations} {name : Scalar} {path : List Scalar}
  {member member' : Value} {members members' : List Value}

/-! ### Members in the place of others -/

/-- **A member that stands for another:** the same one, or a reference to the same type. -/
def Value.StandsFor (member member' : Value) : Prop :=
  member = member' ∨ member.hasTagIn referenceTags ∧ member'.hasTagIn referenceTags ∧
    member.referenceName = member'.referenceName

namespace Value.StandsFor

theorem refl (member : Value) : member.StandsFor member := Or.inl rfl

theorem symm (h : member.StandsFor member') : member'.StandsFor member := by
  rcases h with rfl | ⟨tag, tag', same⟩
  · exact .refl member
  · exact Or.inr ⟨tag', tag, same.symm⟩

/-- Of the two, one is a reference exactly if the other is. -/
theorem hasTagIn_eq (h : member.StandsFor member') :
    member.hasTagIn referenceTags = member'.hasTagIn referenceTags := by
  rcases h with rfl | ⟨tag, tag', -⟩
  · rfl
  · rw [tag, tag']

/-- They refer to the same name. -/
theorem referenceName_eq (h : member.StandsFor member') :
    member.referenceName = member'.referenceName := by
  rcases h with rfl | ⟨-, -, same⟩
  · rfl
  · exact same

/-- A property is only stood for by itself. -/
theorem eq_of_property (h : member.StandsFor member')
    (property : member.hasTag "TSPropertySignature") : member = member' := by
  rcases h with same | ⟨tag, -, -⟩
  · exact same
  · rw [not_property_of_reference tag] at property
    cases property

end Value.StandsFor

theorem standsFor_refl (members : List Value) : List.Forall₂ Value.StandsFor members members :=
  List.forall₂_same.2 fun m _ => .refl m

theorem standsFor_symm (h : List.Forall₂ Value.StandsFor members members') :
    List.Forall₂ Value.StandsFor members' members := by
  induction h with
  | nil => exact .nil
  | cons head _ ih => exact .cons head.symm ih

/-! ### Declared types -/

/-- **Tables of the same names,** whose members in the second stand for those in the first. -/
structure Counterparts (types types' : Declarations) : Prop where
  has_eq : ∀ name, types.has name = types'.has name
  declared : ∀ name, Carries (List.Forall₂ Value.StandsFor) (membersDeclared types name)
    (membersDeclared types' name)

namespace Counterparts

/-- **Flattening keeps up,** on the same path. -/
theorem flatten_carries (h : Counterparts types types') (path : List Scalar)
    (stands : List.Forall₂ Value.StandsFor members members') :
    Carries (List.Forall₂ Value.StandsFor) (flatten types path members)
      (flatten types' path members') := by
  -- along the recursion: the roles of two members are the same, since references have the same name
  induction path, members using flatten.induct types generalizing members' with
  | case1 path =>
    cases stands
    rw [flatten_nil, flatten_nil]
    exact .ok .nil
  | case2 path member members tag ih =>
    cases stands with
    | cons head tail =>
      obtain rfl := head.eq_of_property tag
      rw [flatten_cons_property tag, flatten_cons_property tag]
      exact (ih tail).map fun _ _ rest => .cons head rest
  | case3 path member members _ tag ihInner ihRest =>
    cases stands with
    | @cons _ member' _ members' head tail =>
      have tag' : member'.hasTagIn Value.referenceTags := head.hasTagIn_eq ▸ tag
      have rest := ihRest tail
      cases role types member with
      | property prop => rw [not_property_of_reference tag] at prop; cases prop
      | unnamed _ unnamed =>
        rw [flatten_cons_unnamed tag unnamed]
        exact follows_error _ _
      | foreign _ name named undeclared =>
        have named' := head.referenceName_eq.symm.trans named
        have undeclared' := (h.has_eq name).symm.trans undeclared
        rw [flatten_cons_foreign tag named undeclared, flatten_cons_foreign tag' named' undeclared']
        exact rest.map fun _ _ tail => .cons head tail
      | declared _ name named declared =>
        have named' := head.referenceName_eq.symm.trans named
        have declared' := (h.has_eq name).symm.trans declared
        cases back : onPath path name with
        | true =>
          rw [flatten_cons_back tag named declared back]
          exact follows_error _ _
        | false =>
          rw [flatten_cons_declared tag named declared back,
            flatten_cons_declared tag' named' declared' back]
          refine (h.declared name).bind fun inner inner' _ stands => ?_
          refine (ihInner name declared (by simp [back]) inner stands).bind fun l l' _ inlined => ?_
          exact rest.map fun _ _ tail => List.rel_append inlined tail
      | other _ noReference => rw [tag] at noReference; cases noReference
  | case4 path member members noProperty noReference =>
    rw [flatten_cons_other (by simpa using noProperty) (by simpa using noReference)]
    exact follows_error _ _

/-- A type has members in the second table if it has them in the first. -/
theorem membersOf_carries (h : Counterparts types types') (name : Scalar) :
    Carries (List.Forall₂ Value.StandsFor) (membersOf types name) (membersOf types' name) :=
  (h.declared name).bind fun _ _ _ stands => h.flatten_carries [name] stands

/-- Which group is inherited is read off the name, and so off either of the two. -/
theorem inheritedGroup?_carries (h : Counterparts types types')
    (stands : member.StandsFor member') :
    Carries (· = ·) (inheritedGroup? types member) (inheritedGroup? types' member') := by
  have declares : types.declares member'.referenceName = types'.declares member'.referenceName := by
    simp only [Declarations.declares, h.has_eq]
  simp only [inheritedGroup?, stands.hasTagIn_eq, stands.referenceName_eq, declares]
  split
  · exact .ok rfl
  · refine .bind_same fun declared _ => ?_
    split
    · exact .ok rfl
    · split
      · exact .ok rfl
      · exact follows_error _ _

theorem inheritedOf_carries (h : Counterparts types types')
    (stands : List.Forall₂ Value.StandsFor members members') :
    Carries (· = ·) (inheritedOf types members) (inheritedOf types' members') := by
  refine (Follows.mapM_eq stands fun _ _ _ stands => h.inheritedGroup?_carries stands).map ?_
  exact fun _ _ same => congrArg _ same

/-- The members that are left stand for each other still. -/
theorem withoutInherited_carries (h : Counterparts types types')
    (stands : List.Forall₂ Value.StandsFor members members') :
    Carries (List.Forall₂ Value.StandsFor) (withoutInherited types members)
      (withoutInherited types' members') := by
  refine Follows.filterM_forall₂ stands fun _ _ stands => ?_
  exact (h.inheritedGroup?_carries stands).map fun _ _ same => congrArg _ same

end Counterparts

/-! ### One level -/

/-- An outline with members in the place of others. -/
inductive Outline.StandsFor : Outline → Outline → Prop where
  | leaf (type : SchemaType) : StandsFor (.leaf type) (.leaf type)
  | array (path : List Scalar) (element : Value) :
      StandsFor (.array path element) (.array path element)
  | object {members members' : List Value} (path : List Scalar)
      (stands : List.Forall₂ Value.StandsFor members members') :
      StandsFor (.object path members) (.object path members')

/-- An outline is read alike, if a reference finds the same declaration. -/
theorem Counterparts.formOutline_carries (h : Counterparts types types') (slot : Slot)
    (path : List Scalar) {node : Value}
    (same : ∀ name, node.hasTag "TSTypeReference" → node.referenceName = .scalar name →
      types.find? name = types'.find? name) :
    Carries Outline.StandsFor (formOutline types slot path node)
      (formOutline types' slot path node) := by
  refine .bind_same fun form hform => ?_
  have tag := Value.form_eq_ok hform
  cases form with
  | basic => exact .ok (.leaf _)
  | number | other => exact follows_error _ _
  | array => exact .ok (.array _ _)
  | object =>
    refine .bind_same fun listed _ => ?_
    exact (h.flatten_carries path (standsFor_refl listed)).bind fun _ _ _ stands =>
      .ok (.object path stands)
  | choice => exact .bind_same fun _ _ => .ok (.leaf _)
  | reference =>
    refine .bind_same fun name named => ?_
    rw [same name tag (Value.key_eq_ok.1 named)]
    generalize libraryType? name = library
    match library with
    | some (.basic _) | some (.reserved _) | some .mixed => exact .ok (.leaf _)
    | some .array =>
      simp only
      split
      · exact .ok (.array _ _)
      · exact follows_error _ _
    | none =>
      simp only
      split
      · split
        · exact follows_error _ _
        · exact (h.membersOf_carries name).bind fun _ _ _ stands => .ok (.object _ stands)
      · exact follows_error _ _

/-- What can be filled is only stood for by itself, since a reference has no type. -/
theorem Outline.StandsFor.eq_of_fill {o o' : Outline} {inside : Annotator} {slot : Slot}
    {type : SchemaType} (h : o.StandsFor o') (filled : o.fill inside slot = .ok type) : o' = o := by
  cases h with
  | leaf | array => rfl
  | @object members members' path stands =>
    obtain ⟨entries, -, hentries⟩ := fill_object_eq_ok.1 filled
    congr 1
    clear filled
    induction stands generalizing entries with
    | nil => rfl
    | cons head _ ih =>
      cases hentries with
      | cons entry tail =>
        obtain ⟨site, type, sited, -, -⟩ := memberEntry_eq_ok.1 entry
        rw [head.eq_of_property (readsMember_of_memberSite sited).property, ih _ tail]

/-- **A level is filled alike,** if what is inside is typed alike. What is inside is smaller. -/
theorem fill_carries {o : Outline} {inside inside' : Annotator} {slot : Slot} {type : SchemaType}
    (filled : o.fill inside slot = .ok type)
    (carry : ∀ asked t, o.Asks slot asked → asked.answer inside = .ok t → t.extent < type.extent →
      asked.answer inside' = .ok t) : o.fill inside' slot = .ok type := by
  cases o with
  | leaf => exact filled
  | array path element =>
    obtain ⟨site, inner, sited, typed, rfl⟩ := fill_array_eq_ok.1 filled
    refine fill_array_eq_ok.2 ⟨site, inner, sited, ?_, rfl⟩
    exact carry _ inner (.element sited) typed inner.extent_lt_array
  | object path members =>
    obtain ⟨entries, rfl, hentries⟩ := fill_object_eq_ok.1 filled
    refine fill_object_eq_ok.2 ⟨entries, rfl, mapM_eq_ok.1 ?_⟩
    refine mapM_eq_ok_of_mapM_eq_ok (mapM_eq_ok.2 hentries) fun m hm e he entry => ?_
    obtain ⟨site, t, sited, typed, rfl⟩ := memberEntry_eq_ok.1 entry
    refine memberEntry_eq_ok.2 ⟨site, t, sited, ?_, rfl⟩
    exact carry _ t (.member hm sited) typed (SchemaType.extent_lt_object he)

/-! ### Facets -/

/-- **Counterparts for which typing keeps up.** -/
structure KeepsUp (types types' : Declarations) : Prop extends Counterparts types types' where
  typed : ∀ slot node, Carries (· = ·) (annotate types slot [] node) (annotate types' slot [] node)

namespace KeepsUp

/-- Only a property has an entry. -/
theorem entryOf_carries (h : KeepsUp types types') (withDefaults : Bool)
    (stands : member.StandsFor member') :
    Carries (· = ·) (entryOf types withDefaults member) (entryOf types' withDefaults member') := by
  cases property : member.hasTag "TSPropertySignature" with
  | false =>
    simp only [entryOf, memberEntry, memberSite, property, Bool.not_false, Bool.true_or, if_true]
    exact follows_error _ _
  | true =>
    obtain rfl := stands.eq_of_property property
    refine .bind_same fun site _ => ?_
    refine (h.typed site.1 site.2).bind fun type type' _ same => ?_
    subst same
    exact .ok rfl

/-- A reference is no event, and a property stands for itself. -/
theorem propOfMember?_carries (h : KeepsUp types types') (stands : member.StandsFor member') :
    Carries (· = ·) (propOfMember? types member) (propOfMember? types' member') := by
  have same : isEvent member = isEvent member' := by
    rcases stands with rfl | ⟨tag, tag', -⟩
    · rfl
    · rw [isEvent_of_not_property (not_property_of_reference tag),
        isEvent_of_not_property (not_property_of_reference tag')]
  rw [propOfMember?, propOfMember?, same]
  refine .bind_same fun event _ => ?_
  split
  · exact .ok rfl
  · exact (h.entryOf_carries true stands).bind fun _ _ _ same => .ok (congrArg some same)

theorem propsOf_carries (h : KeepsUp types types')
    (stands : List.Forall₂ Value.StandsFor members members') :
    Carries (· = ·) (propsOf types members) (propsOf types' members') :=
  (Follows.mapM_eq stands fun _ _ _ stands => h.propOfMember?_carries stands).map
    fun _ _ same => congrArg _ same

theorem stateOf_carries (h : KeepsUp types types')
    (stands : List.Forall₂ Value.StandsFor members members') :
    Carries (· = ·) (stateOf types members) (stateOf types' members') :=
  Follows.mapM_eq stands fun _ _ _ stands => h.entryOf_carries true stands

/-- What typing keeps up with, payloads do. -/
theorem payloadOf_carries (h : KeepsUp types types') (name node : Value) :
    Carries (· = ·) (payloadOf types name node) (payloadOf types' name node) := by
  rw [payloadOf, payloadOf]
  split
  · exact .ok rfl
  · refine (h.typed _ node).bind fun type type' _ same => ?_
    subst same
    split
    · exact .ok rfl
    · exact follows_error _ _

/-- The payload is all that is typed of an event. -/
theorem eventOf_carries (h : KeepsUp types types') (member handler : Value) (bubbling : Bubbling) :
    Carries (· = ·) (eventOf types member handler bubbling)
      (eventOf types' member handler bubbling) := by
  refine .bind_same fun split _ => ?_
  cases handler.typeArguments with
  | nil => exact follows_error _ _
  | cons payload more =>
    have rest (paperName : Option String) := (h.payloadOf_carries member.keyName payload).bind
      (S := fun a b : Event => a = b)
      (f := fun payload => .ok ⟨member.keyName, (member.get "optional").truthy || split.2, bubbling,
        paperName, payload⟩)
      (g := fun payload => .ok ⟨member.keyName, (member.get "optional").truthy || split.2, bubbling,
        paperName, payload⟩) fun _ _ _ same => .ok (by rw [same])
    cases more with
    | nil => exact rest none
    | cons literal more =>
      simp only
      split
      · exact rest _
      · exact follows_error _ _

/-- **An event of the one table is an event of the other,** since only properties are events. -/
theorem eventOfMember?_carries (h : KeepsUp types types') (stands : member.StandsFor member') :
    Carries (· = ·) (eventOfMember? types member) (eventOfMember? types' member') := by
  cases property : member.hasTag "TSPropertySignature" with
  | false =>
    have property' : member'.hasTag "TSPropertySignature" = false := by
      by_contra other
      obtain rfl := stands.symm.eq_of_property (by simpa using other)
      exact other property
    rw [eventOfMember?_of_not_property property, eventOfMember?_of_not_property property']
    exact .ok rfl
  | true =>
    obtain rfl := stands.eq_of_property property
    simp only [eventOfMember?, property, Bool.not_true, Bool.false_eq_true, if_false]
    refine .bind_same fun handler _ => ?_
    cases handler with
    | none => exact .ok rfl
    | some handler =>
      exact (h.eventOf_carries member handler.1 handler.2).bind fun _ _ _ same =>
        .ok (congrArg some same)

theorem eventsOf_carries (h : KeepsUp types types')
    (stands : List.Forall₂ Value.StandsFor members members') :
    Carries (· = ·) (eventsOf types members) (eventsOf types' members') :=
  (Follows.mapM_eq stands fun _ _ _ stands => h.eventOfMember?_carries stands).map
    fun _ _ same => congrArg _ same

/-- The type decides whether a parameter is allowed, and it is the same. -/
theorem paramOf_carries (h : KeepsUp types types') (command param : Value) :
    Carries (· = ·) (paramOf types command param) (paramOf types' command param) := by
  refine .bind_same fun name _ => .bind_same fun node _ => ?_
  refine (h.typed _ node).bind fun type type' _ same => ?_
  subst same
  split
  · exact .ok rfl
  · exact follows_error _ _

/-- **A command of the one table is a command of the other.** Its members are not flattened, so
there is nothing in the place of another. -/
theorem commandOf_carries (h : KeepsUp types types') (member : Value) :
    Carries (· = ·) (commandOf types member) (commandOf types' member) := by
  refine .bind_same fun function _ => ?_
  obtain ⟨parameters, returns⟩ := signature function
  refine .bind_same fun params _ => ?_
  cases params with
  | none => exact follows_error _ _
  | some params =>
    have entries := Follows.mapM_same fun param (_ : param ∈ params) =>
      h.paramOf_carries member.keyName param
    simp only
    split
    · exact follows_error _ _
    · exact entries.bind fun _ _ _ same => .ok (by rw [same])

theorem commandsOf_carries (h : KeepsUp types types') (members : List Value) :
    Carries (· = ·) (commandsOf types members) (commandsOf types' members) :=
  Follows.mapM_same fun member _ => h.commandOf_carries member

/-- The state, where one is asked for, has the members of its type and is typed like the props. -/
theorem assembleState_carries (h : KeepsUp types types') (stateType : String) :
    Carries (· = ·) (assembleState Resolver.standard types stateType)
      (assembleState Resolver.standard types' stateType) := by
  rw [assembleState, assembleState]
  split
  · exact .ok rfl
  · refine (h.membersOf_carries (.str stateType)).bind fun members members' _ stands => ?_
    exact (h.stateOf_carries stands).bind fun _ _ _ same => .ok (congrArg some same)

/-- **A schema of the one table is a schema of the other,** if both find the same commands. -/
theorem schemaOf_carries (h : KeepsUp types types') {blueprint : Blueprint}
    (commands : types.find blueprint.commandsName = types'.find blueprint.commandsName) :
    Carries (· = ·) (schemaOf blueprint types) (schemaOf blueprint types') := by
  have commandMembers_eq (options : Option CommandOptions) :
      commandMembers types blueprint.commandsName options =
        commandMembers types' blueprint.commandsName options := by
    rw [commandMembers, commandMembers, commands]
  refine (h.membersOf_carries (.str blueprint.propsType)).bind fun members members' _ stands => ?_
  refine .bind_same fun options _ => ?_
  rw [commandMembers_eq]
  refine .bind_same fun commandMembers _ => ?_
  refine (h.inheritedOf_carries stands).bind fun inherited inherited' _ same => ?_
  subst same
  refine .bind_same fun componentOptions _ => ?_
  refine (h.withoutInherited_carries stands).bind fun own own' _ owns => ?_
  refine (h.propsOf_carries owns).bind fun props props' _ same => ?_
  subst same
  refine (h.eventsOf_carries stands).bind fun events events' _ same => ?_
  subst same
  refine (h.commandsOf_carries commandMembers).bind fun commands commands' _ same => ?_
  subst same
  refine (h.assembleState_carries blueprint.stateType).bind fun state state' _ same => ?_
  subst same
  exact .ok rfl

end KeepsUp

end ComponentSpec
