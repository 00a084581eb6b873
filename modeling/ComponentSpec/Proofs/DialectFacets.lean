import ComponentSpec.Facet.Event
import ComponentSpec.Facet.Inherited
import ComponentSpec.Facet.Options
import ComponentSpec.Proofs.DialectTypes

/-!
# Facets in two dialects

The members of a type and their rewritings give the same groups, props, events, commands and state,
and option literals give the same options; or both fail for a reason of the same kind.

* `inheritedOf_alike`, `withoutInherited_alike` — inherited groups;
* `eventsOf_alike`, `propsOf_alike`, `stateOf_alike` — events, props and state;
* `commandsOf_alike` — commands;
* `componentOptions_alike`, `commandOptions_alike` — options.
-/

namespace ComponentSpec.Dialect

open Checked

variable {d : Dialect} {node node' member member' : Value} {types types' : Declarations}
  {members members' : List Value}

/-! ### Inherited groups -/

namespace Tables

/-- **The group that a member inherits.** An extends clause may change its tag, but stays a
reference, and the same names are declared in both tables. -/
theorem inheritedGroup?_alike (h : d.Tables types types') (twins : d.Twins member member') :
    Alike (· = ·) (inheritedGroup? types member) (inheritedGroup? types' member') := by
  simp only [inheritedGroup?, twins.hasTagIn Value.referenceTags rfl, twins.referenceName]
  split
  · exact .ok rfl
  · have declares : types'.declares member.referenceName = types.declares member.referenceName := by
      simp only [Declarations.declares, h.has]
    rw [declares]
    refine Alike.bind_eq (.of_eq rfl) fun declared => ?_
    split
    · exact .ok rfl
    · split
      · exact .ok rfl
      · exact .error (twins.about rfl)

/-- The members are asked one by one, so the groups come in the same order. -/
theorem inheritedOf_alike (h : d.Tables types types')
    (twins : List.Forall₂ d.Twins members members') :
    Alike (· = ·) (inheritedOf types members) (inheritedOf types' members') := by
  have groups := Alike.mapM_eq twins fun _ _ _ twins => h.inheritedGroup?_alike twins
  exact groups.map fun _ _ same => congrArg _ same

/-- What is left are the same members, each as its dialect writes it. -/
theorem withoutInherited_alike (h : d.Tables types types')
    (twins : List.Forall₂ d.Twins members members') :
    Alike (List.Forall₂ d.Twins) (withoutInherited types members)
      (withoutInherited types' members') :=
  Alike.filterM twins fun _ _ twins =>
    (h.inheritedGroup?_alike twins).map fun _ _ same => congrArg _ same

end Tables

/-! ### Events, props and state -/

/-- A property has its type under the same key in every dialect, since only functions move theirs.
-/
theorem Twins.memberType_of_property (h : d.Twins member member')
    (property : member.hasTag "TSPropertySignature") :
    d.Writes member.memberType member'.memberType :=
  h.memberType (signs_of_hasTag property rfl)

/-- **The handler of an event.** It is recognised by its name, which no dialect touches; the
reference itself may hold its arguments under the other key. -/
theorem Twins.eventHandler?_alike (h : d.Twins node node') :
    Alike (Option.Rel d.Remarked) (eventHandler? node) (eventHandler? node') := by
  refine h.splitNullable_alike.bind_fst fun inner inner' nullable inside => ?_
  simp only [inside.hasTag "TSTypeReference" rfl, inside.referenceName]
  split
  · refine Alike.bind_eq (.of_eq rfl) fun name => ?_
    cases handlerKind? name with
    | none => exact .ok .none
    | some kind => exact .ok (.some ⟨inside, rfl⟩)
  · exact .ok .none

/-- The same members are events. -/
theorem Twins.isEvent_alike (h : d.Twins member member') :
    Alike (· = ·) (isEvent member) (isEvent member') := by
  rw [isEvent, isEvent, h.hasTag "TSPropertySignature" rfl]
  split
  · next property =>
    refine (h.memberType_of_property property).twins.eventHandler?_alike.map fun o o' related => ?_
    cases related <;> rfl
  · exact .ok rfl

namespace Tables

/-- A payload is typed like any annotation, and the faults that it adds are at the annotation. -/
theorem payloadOf_alike (h : d.Tables types types') (twins : d.Twins node node') (name : Value) :
    Alike (· = ·) (payloadOf types name node) (payloadOf types' name node') := by
  rw [payloadOf, payloadOf, twins.hasTag "TSNullKeyword" rfl]
  split
  · exact .ok rfl
  · refine (h.annotate_typed _ _ _ _ twins).bind_eq fun type => ?_
    cases type with
    | object properties => exact .ok rfl
    | _ => exact .error (twins.about rfl)

/-- **An event and its rewriting.** The payload and the paper name are the type arguments of the
handler, so this is where the key of the arguments matters. -/
theorem eventOf_alike (h : d.Tables types types') (twins : d.Twins member member')
    (property : member.hasTag "TSPropertySignature") {handler handler' : Value}
    (handlers : d.Twins handler handler') (bubbling : Bubbling) :
    Alike (· = ·) (eventOf types member handler bubbling)
      (eventOf types' member' handler' bubbling) := by
  simp only [eventOf, twins.keyName, (twins.get "optional" rfl).truthy]
  have type := (twins.memberType_of_property property).twins
  refine type.splitNullable_alike.bind_fst fun _ _ nullable _ => ?_
  have arguments := handlers.typeArguments
  generalize handler.typeArguments = as, handler'.typeArguments = as' at arguments ⊢
  cases arguments with
  | nil => exact .error (handlers.about rfl)
  | cons payload more =>
    cases more with
    | nil => exact (h.payloadOf_alike payload.twins _).bind_eq fun _ => .ok rfl
    | cons literal _ =>
      simp only [literal.twins.typeLiteral?]
      split
      · exact (h.payloadOf_alike payload.twins _).bind_eq fun _ => .ok rfl
      · exact .error (literal.twins.about rfl)

/-- A member that is an event in one dialect is the same event in the other. -/
theorem eventOfMember?_alike (h : d.Tables types types') (twins : d.Twins member member') :
    Alike (· = ·) (eventOfMember? types member) (eventOfMember? types' member') := by
  simp only [eventOfMember?, twins.hasTag "TSPropertySignature" rfl]
  split
  · exact .ok rfl
  · next property =>
    replace property : member.hasTag "TSPropertySignature" := by simpa using property
    have type := (twins.memberType_of_property property).twins
    refine type.eventHandler?_alike.bind fun o o' _ related => ?_
    cases related with
    | none => exact .ok rfl
    | @some r r' related =>
      obtain ⟨handler, bubbling⟩ := r
      obtain ⟨handler', bubbling'⟩ := r'
      obtain ⟨handlers, same⟩ := related
      subst same
      exact (h.eventOf_alike twins property handlers bubbling).bind_eq fun _ => .ok rfl

theorem eventsOf_alike (h : d.Tables types types') (twins : List.Forall₂ d.Twins members members') :
    Alike (· = ·) (eventsOf types members) (eventsOf types' members') := by
  have events := Alike.mapM_eq twins fun _ _ _ twins => h.eventOfMember?_alike twins
  exact events.map fun _ _ same => congrArg _ same

/-- What is no event in either dialect is the same prop. -/
theorem propOfMember?_alike (h : d.Tables types types') (twins : d.Twins member member') :
    Alike (· = ·) (propOfMember? types member) (propOfMember? types' member') := by
  refine twins.isEvent_alike.bind_eq fun event => ?_
  cases event with
  | true => exact .ok rfl
  | false => exact (h.entryOf_alike true twins).bind_eq fun _ => .ok rfl

theorem propsOf_alike (h : d.Tables types types') (twins : List.Forall₂ d.Twins members members') :
    Alike (· = ·) (propsOf types members) (propsOf types' members') := by
  have props := Alike.mapM_eq twins fun _ _ _ twins => h.propOfMember?_alike twins
  exact props.map fun _ _ same => congrArg _ same

theorem stateOf_alike (h : d.Tables types types') (twins : List.Forall₂ d.Twins members members') :
    Alike (· = ·) (stateOf types members) (stateOf types' members') :=
  Alike.mapM_eq twins fun _ _ _ twins => h.entryOf_alike true twins

end Tables

/-! ### Commands -/

/-- A parameter, which has its type under the same key. -/
def Parameters (d : Dialect) (param param' : Value) : Prop :=
  d.signs param = false ∧ d.Twins param param'

/-- **The function of a command.** A property holds it in its type, where it stands the same; a
method is the function itself, and its parameters may have moved. -/
theorem Twins.commandFunction_alike (h : d.Twins member member') :
    Alike (fun f f' => d.Writes f f' ∧ f.isFunction) (commandFunction member)
      (commandFunction member') := by
  have function {f f' : Value} (twins : d.Twins f f') :
      Alike (fun f f' => d.Writes f f' ∧ f.isFunction)
        (if f.hasTagIn ["TSMethodSignature", "TSFunctionType"] then pure f
          else throw (.about (.commandNoFunction member.keyName) member))
        (if f'.hasTagIn ["TSMethodSignature", "TSFunctionType"] then pure f'
          else throw (.about (.commandNoFunction member.keyName) member')) := by
    rw [twins.hasTagIn ["TSMethodSignature", "TSFunctionType"] rfl]
    split
    · next tag => exact .ok ⟨twins.writes_of_isObject (Value.isObject_of_hasTagIn tag), tag⟩
    · exact .error (h.about rfl)
  simp only [commandFunction, h.hasTag "TSMethodSignature" rfl,
    h.hasTag "TSPropertySignature" rfl, h.keyName]
  split
  · exact function h
  · split
    · next property =>
      have type := (h.memberType_of_property property).twins
      have inside : Alike d.Twins (Prod.fst <$> member.memberType.splitNullable)
          (Prod.fst <$> member'.memberType.splitNullable) :=
        type.splitNullable_alike.map fun _ _ remarked => remarked.1
      exact inside.bind fun _ _ _ twins => function twins
    · exact function (Writes.scalar .null).twins

/-- A parameter is no function, so its type stands under the same key. -/
theorem Parameters.typeOfParam_alike {param param' : Value} (h : d.Parameters param param') :
    Alike d.Writes (typeOfParam param) (typeOfParam param') := by
  rw [typeOfParam, typeOfParam, Value.entry, Value.entry, h.2.isObject]
  split
  · exact .ok (h.2.getType h.1).withoutWrapper
  · exact .error rfl

/-- The reference to the component is told by its name and the number of its arguments. -/
theorem Parameters.isRefParam_alike {param param' : Value} (h : d.Parameters param param') :
    Alike (· = ·) (isRefParam param) (isRefParam param') := by
  refine h.typeOfParam_alike.bind fun type type' _ written => .ok ?_
  rw [written.twins.hasTag "TSTypeReference" rfl,
    (written.twins.get "typeName" rfl).twins.qualifiedName,
    written.twins.typeArguments.length_eq]

/-- The first of a list is one of its items, and that of a text a scalar. -/
theorem mem_or_isScalar_of_first {v first : Value} (h : v.first = .ok first) :
    first ∈ v.listOrEmpty ∨ first.isScalar := by
  unfold Value.first at h
  split at h
  · cases h; exact Or.inl List.mem_cons_self
  · cases h
  · cases h
  · split at h <;> cases h
    exact Or.inr rfl
  · cases h

/-- **The parameters after the reference to the component.** -/
theorem paramsAfterRef?_alike {parameters parameters' : Value} (h : d.Writes parameters parameters')
    (own : ∀ param ∈ parameters.listOrEmpty, d.signs param = false) :
    Alike (Option.Rel (List.Forall₂ d.Parameters)) (paramsAfterRef? parameters)
      (paramsAfterRef? parameters') := by
  simp only [paramsAfterRef?, h.truthy]
  split
  · exact .ok .none
  · refine h.first_alike.bind fun param param' read twins => ?_
    have plain : d.signs param = false := by
      rcases mem_or_isScalar_of_first read with mem | scalar
      · exact own param mem
      · obtain ⟨s, rfl⟩ := Value.isScalar_iff.1 scalar
        exact d.signs_scalar s
    have first : d.Parameters param param' := ⟨plain, twins⟩
    have listed : List.Forall₂ d.Parameters parameters.listOrEmpty parameters'.listOrEmpty :=
      (List.forall₂_and_left _ _).2 ⟨own, h.listOrEmpty.imp fun _ _ => .written⟩
    refine first.isRefParam_alike.bind_eq fun ref => ?_
    split
    · exact .ok (.some (List.forall₂_drop 1 listed))
    · exact .ok .none

namespace Tables

/-- The entry of a parameter is that of its rewriting, or the types of both are refused alike. -/
theorem paramOf_alike (h : d.Tables types types') (command : Value) {param param' : Value}
    (params : d.Parameters param param') :
    Alike (· = ·) (paramOf types command param) (paramOf types' command param') := by
  have named : Alike (· = ·) (param.entry "name") (param'.entry "name") := by
    rw [Value.entry, Value.entry, params.2.isObject, params.2.get_name]
    exact .of_eq rfl
  refine named.bind_eq fun name => params.typeOfParam_alike.bind fun type type' _ written => ?_
  refine (h.annotate_typed _ _ _ _ written.twins).bind_eq fun type => ?_
  rw [(params.2.get "optional" rfl).truthy]
  split
  · exact .ok rfl
  · exact .error (params.2.about rfl)

/-- **A command and its rewriting.** `signature` finds the parameters and the return type under
either pair of keys. -/
theorem commandOf_alike (h : d.Tables types types') (twins : d.Twins member member') :
    Alike (· = ·) (commandOf types member) (commandOf types' member') := by
  rw [commandOf, commandOf, twins.keyName]
  refine twins.commandFunction_alike.bind fun function function' _ found => ?_
  obtain ⟨written, isFunction⟩ := found
  have own (param : Value) (mem : param ∈ (signature function).1.listOrEmpty) :
      d.signs param = false :=
    signs_of_mem_parameters written.proper isFunction mem
  have parts := written.signature
  generalize signature function = s, signature function' = s' at own parts ⊢
  obtain ⟨parameters, returns⟩ := parts
  refine (paramsAfterRef?_alike parameters own).bind fun o o' _ params => ?_
  cases params with
  | none => exact .error (twins.about rfl)
  | some params =>
    simp only [returns.twins.hasTag "TSVoidKeyword" rfl]
    split
    · exact .error (twins.about rfl)
    · have entries := Alike.mapM_eq params fun _ _ _ params => h.paramOf_alike member.keyName params
      exact entries.bind_eq fun _ => .ok rfl

theorem commandsOf_alike (h : d.Tables types types')
    (twins : List.Forall₂ d.Twins members members') :
    Alike (· = ·) (commandsOf types members) (commandsOf types' members') :=
  Alike.mapM_eq twins fun _ _ _ twins => h.commandOf_alike twins

end Tables

/-! ### Options -/

/-- A key, and a value and its rewriting. -/
abbrev Keyed (d : Dialect) (p p' : Value × Value) : Prop := p.1 = p'.1 ∧ d.Writes p.2 p'.2

/-- Object literals are expressions, which every dialect writes the same but for what is inside
them. -/
theorem Twins.objectProperty_alike (h : d.Twins node node') (cause : Cause) :
    Alike d.Keyed (objectProperty cause node) (objectProperty cause node') := by
  simp only [objectProperty, h.keyName, h.hasTagIn ["ObjectProperty", "Property"] rfl]
  split
  · exact .error (h.about rfl)
  · exact .ok ⟨rfl, h.get "value" rfl⟩

theorem Twins.objectProperties_alike (h : d.Twins node node') (cause : Cause) :
    Alike (List.Forall₂ d.Keyed) (objectProperties cause node) (objectProperties cause node') := by
  simp only [objectProperties, h.hasTag "ObjectExpression" rfl]
  split
  · exact .error (h.about rfl)
  · exact (h.get "properties" rfl).elements_alike.bind fun _ _ _ properties =>
      Alike.mapM properties fun _ _ _ property => property.objectProperty_alike cause

/-- The literals among the elements of a list. -/
theorem map_literal? {elements elements' : List Value}
    (twins : List.Forall₂ d.Twins elements elements') :
    (elements.map fun e => Value.ofOption e.literal?) =
      elements'.map fun e => Value.ofOption e.literal? := by
  induction twins with
  | nil => rfl
  | cons head _ ih => rw [List.map_cons, List.map_cons, ih, head.literal?]

theorem Twins.elementValues_alike (h : d.Twins node node') :
    Alike (· = ·) (elementValues node) (elementValues node') := by
  exact (h.get "elements" rfl).elements_alike.bind fun _ _ _ elements => .ok (map_literal? elements)

/-- An option is a literal or a list of literals, and literals are the same in every dialect. -/
theorem Twins.optionValue_alike (h : d.Twins node node') :
    Alike (· = ·) (optionValue node) (optionValue node') := by
  simp only [optionValue, h.hasTag "ArrayExpression" rfl, h.literal?]
  split
  · exact h.elementValues_alike.bind_eq fun _ => .ok rfl
  · split
    · exact .ok rfl
    · exact .error (h.about rfl)

/-- **The table of options,** given how to read the value of one. -/
theorem foldlM_set_alike {value : Value → Checked Value}
    (alike : ∀ v v', d.Writes v v' → Alike (· = ·) (value v) (value v'))
    {properties properties' : List (Value × Value)}
    (keyed : List.Forall₂ d.Keyed properties properties') :
    Alike (· = ·)
      (properties.foldlM (fun (options : Table Value) (name, v) => do
        let v ← value v
        return options.set (← name.key) v) [])
      (properties'.foldlM (fun (options : Table Value) (name, v) => do
        let v ← value v
        return options.set (← name.key) v) []) := by
  refine Alike.foldlM keyed (fun options options' p p' same keyed => ?_) rfl
  subst same
  obtain ⟨name, v⟩ := p
  obtain ⟨name', v'⟩ := p'
  obtain ⟨same, written⟩ := keyed
  cases same
  exact (alike v v' written).bind_eq fun _ => .of_eq rfl

/-- **The options of the component call.** -/
theorem Writes.componentOptions_alike (h : d.Writes node node') :
    Alike (· = ·) (componentOptions node) (componentOptions node') := by
  simp only [componentOptions, h.isNull]
  split
  · exact .ok rfl
  · refine (h.twins.objectProperties_alike _).bind fun properties properties' _ keyed => ?_
    have options := foldlM_set_alike (fun _ _ h => h.twins.optionValue_alike) keyed
    refine options.bind_eq fun options => ?_
    split
    · exact .error (h.twins.about rfl)
    · exact .ok rfl

/-- A list of command names holds the same texts. -/
theorem Twins.commandOptionValue_alike (h : d.Twins node node') :
    Alike (· = ·) (commandOptionValue node) (commandOptionValue node') := by
  simp only [commandOptionValue, h.hasTag "ArrayExpression" rfl]
  split
  · exact .ok rfl
  · refine h.elementValues_alike.bind_eq fun values => ?_
    split
    · exact .ok rfl
    · exact .error (h.about rfl)

/-- **The options of the commands call.** -/
theorem Writes.commandOptions_alike (h : d.Writes node node') :
    Alike (· = ·) (commandOptions node) (commandOptions node') := by
  simp only [commandOptions, h.isNull]
  split
  · exact .ok rfl
  · refine (h.twins.objectProperties_alike _).bind fun properties properties' _ keyed => ?_
    have options := foldlM_set_alike (fun _ _ h => h.twins.commandOptionValue_alike) keyed
    exact options.bind_eq fun options => .of_eq rfl

end ComponentSpec.Dialect
