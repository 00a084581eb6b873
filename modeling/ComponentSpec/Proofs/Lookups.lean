import ComponentSpec.Proofs.Acyclic
import ComponentSpec.Proofs.Assembly

/-!
# What is looked up

The declared types are used through look-ups alone, and only the names that a file mentions are ever
looked up. So two tables that agree on these names make the same of every node: `Agree` says what
has to be agreed on, and each step, from the members of a type to the schema of a component, has one
lemma that it comes out the same, be it a result or a fault.

The names at hand are closed under looking up: what a node mentions is known, and a declaration
mentions only known names. Nodes come from the documents at hand, so this goes down with the
recursion. The one new node, a union without its `null`, is an end and looks nothing up.

* `Agree` — two tables that agree on the names at hand;
* `Agree.flatten_eq`, `Agree.outline_eq`, `Agree.annotate_eq` — expanding and typing;
* `Agree.propsOf_eq`, `Agree.eventsOf_eq`, `Agree.commandsOf_eq`, … — the facets.
-/

namespace ComponentSpec

open Checked

variable {known : Scalar → Prop} {types types' : Declarations} {name : Scalar} {path : List Scalar}
  {node inner member : Value} {members : List Value}

/-! ### Names at hand -/

/-- **A node that mentions known names only.** -/
def Value.MentionsOnly (node : Value) (known : Scalar → Prop) : Prop :=
  ∀ s, node.Mentions s → known s

/-- What stands inside a node mentions no more than the node. -/
theorem Value.MentionsOnly.of_mem_parts {part : Value} (h : node.MentionsOnly known)
    (below : part ∈ node.parts) : part.MentionsOnly known :=
  fun s hs => h s (hs.of_mem_parts below)

/-- The name of a reference is one that it mentions. -/
theorem Value.MentionsOnly.typeReference (h : node.MentionsOnly known)
    (tag : node.hasTag "TSTypeReference") (named : node.referenceName = .scalar name) :
    known name :=
  h name (mentions_of_typeReference tag named)

/-- **Two tables that agree on the names at hand.** What the first declares mentions no others. -/
structure Agree (known : Scalar → Prop) (types types' : Declarations) : Prop where
  same : ∀ name, known name → types.find? name = types'.find? name
  closed : ∀ name declaration, types.find? name = some declaration → declaration.MentionsOnly known

/-! ### Where handlers and parameters stand -/

/-- A handler stands in the annotation, perhaps inside parentheses or next to a `null`. -/
theorem mem_parts_of_eventHandler? {handler : Value} {bubbling : Bubbling}
    (h : eventHandler? node = .ok (some (handler, bubbling))) : handler ∈ node.parts := by
  obtain ⟨⟨rest, nullable⟩, split, h⟩ := bind_eq_ok.1 h
  simp only at h
  split at h
  · next reference =>
    obtain ⟨name, -, h⟩ := bind_eq_ok.1 h
    obtain ⟨kind, -, same⟩ := Option.map_eq_some_iff.1 (Except.ok.inj h)
    cases same
    -- a handler is a reference, and so no union
    refine (Value.mem_parts_of_splitNullable split).resolve_right fun union => ?_
    exact Value.not_hasTag_of_hasTag reference (by simp) union
  · cases h

/-- The payload of an event stands inside its member. -/
theorem exists_mem_parts_of_eventOfMember? {event : Event}
    (h : eventOfMember? types member = .ok (some event)) :
    ∃ node ∈ member.parts, payloadOf types member.keyName node = .ok event.payload := by
  obtain ⟨property, handler, bubbling, found, read⟩ := exists_handler_of_eventOfMember? h
  obtain ⟨-, node, argument, payload⟩ := exists_payload_of_eventOf_eq_ok read
  refine ⟨node, ?_, payload⟩
  have inside : node ∈ handler.parts := Value.mem_parts_of_mem_typeArguments argument
  have annotation : member.memberType ∈ member.parts :=
    Value.memberType_mem_parts (Value.isObject_of_hasTag property)
  exact Value.mem_parts_trans (Value.mem_parts_trans inside _ (mem_parts_of_eventHandler? found)) _
    annotation

/-- The function of a member is a method, the member itself, or the type of a property. -/
theorem commandFunction_eq_ok {function : Value} (h : commandFunction member = .ok function) :
    function.hasTagIn ["TSMethodSignature", "TSFunctionType"] ∧
      (function = member ∨ member.hasTag "TSPropertySignature" ∧
        ∃ nullable, member.memberType.splitNullable = .ok (function, nullable)) := by
  -- whatever is looked at, it comes out if it has one of the two tags
  have checked {f : Value} {fault : Fault}
      (h : (if f.hasTagIn ["TSMethodSignature", "TSFunctionType"] then .ok f
        else .error fault : Checked Value) = .ok function) :
      f = function ∧ function.hasTagIn ["TSMethodSignature", "TSFunctionType"] := by
    split at h
    · next tag => cases h; exact ⟨rfl, tag⟩
    · cases h
  simp only [commandFunction] at h
  split at h
  · obtain ⟨rfl, tag⟩ := checked h
    exact ⟨tag, Or.inl rfl⟩
  · split at h
    · next property =>
      obtain ⟨f, hf, h⟩ := bind_eq_ok.1 h
      obtain ⟨⟨rest, nullable⟩, split, rfl⟩ := map_eq_ok.1 hf
      obtain ⟨rfl, tag⟩ := checked h
      exact ⟨tag, Or.inr ⟨property, nullable, split⟩⟩
    · simp only [pure_eq, ok_bind] at h
      obtain ⟨rfl, tag⟩ := checked h
      cases Value.isObject_of_hasTagIn tag

/-- The function of a member stands inside the member. -/
theorem mem_parts_of_commandFunction {function : Value}
    (h : commandFunction member = .ok function) : function ∈ member.parts := by
  obtain ⟨tag, rfl | ⟨property, nullable, split⟩⟩ := commandFunction_eq_ok h
  · exact Value.mem_parts_self function
  · have inside : function ∈ member.memberType.parts := by
      -- a function is no union either
      refine (Value.mem_parts_of_splitNullable split).resolve_right fun union => ?_
      rw [Value.hasTagIn_of_hasTag union] at tag
      cases tag
    exact Value.mem_parts_trans inside _
      (Value.memberType_mem_parts (Value.isObject_of_hasTag property))

theorem Value.entry_eq_ok {key : String} (h : node.entry key = .ok inner) :
    node.isObject ∧ inner = node.get key := by
  rw [entry] at h
  split at h
  · next hobj =>
    cases h
    exact ⟨hobj, rfl⟩
  · cases h

/-- Only an object has an annotation to look at. -/
theorem isObject_of_isRefParam {param : Value} {isRef : Bool}
    (h : isRefParam param = .ok isRef) : param.isObject := by
  obtain ⟨type, htype, -⟩ := bind_eq_ok.1 h
  obtain ⟨wrapped, annotated, -⟩ := map_eq_ok.1 htype
  exact (Value.entry_eq_ok annotated).1

/-- What is left of the parameters are those of a list behind its first, which is the reference. -/
theorem paramsAfterRef?_eq_ok {parameters : Value} {params : List Value}
    (h : paramsAfterRef? parameters = .ok (some params)) :
    ∃ ref, parameters = .arr (ref :: params) ∧ isRefParam ref = .ok true := by
  rw [paramsAfterRef?] at h
  split at h
  · cases h
  obtain ⟨first, hfirst, h⟩ := bind_eq_ok.1 h
  obtain ⟨isRef, hisRef, h⟩ := bind_eq_ok.1 h
  split at h
  · next ref =>
    cases h
    rw [ref] at hisRef
    cases parameters with
    | obj entries => cases hfirst
    | arr items =>
      cases items with
      | nil => cases hfirst
      | cons ref params =>
        cases hfirst
        exact ⟨_, rfl, hisRef⟩
    | scalar s =>
      cases s with
      | str s =>
        -- the first of a text is a character, which has no annotation
        rw [Value.first] at hfirst
        split at hfirst <;> cases hfirst
        cases isObject_of_isRefParam hisRef
      | null | bool | int | float => cases hfirst
  · cases h

/-- So do its parameters. -/
theorem mem_parts_of_paramsAfterRef? {function param : Value} {params : List Value}
    (hfunction : commandFunction member = .ok function)
    (h : paramsAfterRef? (signature function).1 = .ok (some params)) (hparam : param ∈ params) :
    param ∈ member.parts := by
  refine Value.mem_parts_trans ?_ _ (mem_parts_of_commandFunction hfunction)
  obtain ⟨ref, listed, -⟩ := paramsAfterRef?_eq_ok h
  replace listed : param ∈ (signature function).1.listOrEmpty := by
    rw [listed]
    exact List.mem_cons_of_mem ref hparam
  simp only [signature] at listed
  split at listed <;> exact Value.mem_parts_of_mem_listOrEmpty_get listed

theorem mem_parts_of_typeOfParam {param : Value} (h : typeOfParam param = .ok node) :
    node ∈ param.parts := by
  obtain ⟨wrapped, entry, rfl⟩ := map_eq_ok.1 h
  obtain ⟨hobj, rfl⟩ := Value.entry_eq_ok entry
  exact Value.memberType_mem_parts hobj

namespace Agree

/-- The same names at hand are declared. -/
theorem has_eq (h : Agree known types types') (hname : known name) :
    types.has name = types'.has name := by
  rw [← Table.isSome_find?, ← Table.isSome_find?, h.same name hname]

/-! ### Members -/

/-- A name at hand stands for the same members. -/
theorem membersDeclared_eq (h : Agree known types types') (hname : known name) :
    membersDeclared types name = membersDeclared types' name := by
  simp only [membersDeclared, h.same name hname]

/-- What a declaration lists was written in the declaration, and so mentions known names. -/
theorem mentionsOnly_of_declares (h : Agree known types types')
    (declares : Declares types name members) :
    ∀ m ∈ members, m.isObject → m.MentionsOnly known := by
  intro m hm hobj
  obtain ⟨declaration, found, below⟩ := declares.exists_mem_parts hm hobj
  exact (h.closed name declaration found).of_mem_parts below

/-- The same holds after flattening, which only replaces members by those of other declarations. -/
theorem mentionsOnly_of_membersOf (h : Agree known types types')
    (expanded : membersOf types name = .ok members) :
    ∀ m ∈ members, m.isObject → m.MentionsOnly known := by
  obtain ⟨d, listed, declares, expands⟩ := membersOf_eq_ok.1 expanded
  refine expands.forall_mem (fun reference name inner _ _ _ declares => ?_)
    (h.mentionsOnly_of_declares declares)
  exact h.mentionsOnly_of_declares declares

/-- **Members are flattened alike.** Every name that is met was mentioned by a member at hand or by
a declaration. -/
theorem flatten_eq (h : Agree known types types') (path : List Scalar) (members : List Value)
    (all : ∀ m ∈ members, m.isObject → m.MentionsOnly known) :
    flatten types path members = flatten types' path members := by
  refine flatten_congr (fun member name only tag named => ?_)
    (fun member name inner _ _ _ declares => h.mentionsOnly_of_declares declares) path members all
  have hname := only (Value.isObject_of_hasTagIn tag) name (mentions_of_reference tag named)
  exact ⟨h.has_eq hname, h.membersDeclared_eq hname⟩

theorem membersOf_eq (h : Agree known types types') (hname : known name) :
    membersOf types name = membersOf types' name := by
  rw [membersOf, membersOf, ← h.membersDeclared_eq hname]
  refine bind_congr_ok fun members hmembers => ?_
  exact h.flatten_eq _ _ (h.mentionsOnly_of_declares (membersDeclared_eq_ok.1 hmembers))

/-! ### Annotations -/

/-- An annotation at hand refers to the same alias, or to none. -/
theorem aliasOf_eq (h : Agree known types types') (hnode : node.MentionsOnly known) :
    aliasOf types node = aliasOf types' node := by
  cases tag : node.hasTag "TSTypeReference" with
  | false => rw [aliasOf_of_not_reference tag, aliasOf_of_not_reference tag]
  | true =>
    cases named : node.referenceName with
    | arr | obj => simp [aliasOf, tag, named, Value.key]
    | scalar name =>
      have found := h.same name (hnode.typeReference tag named)
      simp [aliasOf, tag, named, Value.key, found]

/-- **The same aliases are followed,** to the same annotation behind them. -/
theorem resolveAliasFrom_eq (h : Agree known types types') (followed : List Scalar) (node : Value)
    (hnode : node.MentionsOnly known) :
    resolveAliasFrom types followed node = resolveAliasFrom types' followed node := by
  -- along the recursion, which goes on with what stands in the declaration of an alias
  induction followed, node using resolveAliasFrom.induct types with
  | case1 followed node inner f stop | case2 followed node inner stop =>
    have stop' := h.aliasOf_eq (hnode.of_mem_parts (Value.withoutReadonly_mem_parts node))
    rw [ComponentSpec.resolveAliasFrom_eq types, ComponentSpec.resolveAliasFrom_eq types', ← stop',
      stop]
    rfl
  | case3 followed node inner name declaration refers back =>
    have refers' := h.aliasOf_eq (hnode.of_mem_parts (Value.withoutReadonly_mem_parts node))
    rw [ComponentSpec.resolveAliasFrom_eq types, ComponentSpec.resolveAliasFrom_eq types',
      ← refers', refers, ok_bind, ok_bind]
    simp only [back, if_true]
  | case4 followed node inner name declaration refers fresh ih =>
    have refers' := h.aliasOf_eq (hnode.of_mem_parts (Value.withoutReadonly_mem_parts node))
    have behind := aliasOf_eq_some.1 refers
    have inside : (declaration.get "typeAnnotation").MentionsOnly known :=
      (h.closed name declaration behind.found).of_mem_parts
        (Value.get_tag_mem_parts behind.isAlias _)
    rw [ComponentSpec.resolveAliasFrom_eq types, ComponentSpec.resolveAliasFrom_eq types',
      ← refers', refers, ok_bind, ok_bind]
    simp only [fresh]
    exact ih inside

/-- Behind the aliases stands a part of the annotation or of a declaration. -/
theorem mentionsOnly_of_resolveAlias (h : Agree known types types')
    (hnode : node.MentionsOnly known) {aliases : List Scalar}
    (resolved : resolveAlias types node = .ok (inner, aliases)) : inner.MentionsOnly known := by
  rcases (resolves_of_resolveAlias resolved).mem_parts with below | ⟨s, declaration, found, below⟩
  · exact hnode.of_mem_parts below
  · exact (h.closed s declaration found).of_mem_parts below

/-- A reference is looked up once, and its members if it is an interface. -/
theorem referenceOutline_eq (h : Agree known types types') (slot : Slot) (path : List Scalar)
    (tag : node.hasTag "TSTypeReference") (hnode : node.MentionsOnly known) :
    referenceOutline types slot path node = referenceOutline types' slot path node := by
  rw [referenceOutline, referenceOutline]
  refine bind_congr_ok fun name named => ?_
  have hname : known name := hnode.typeReference tag (Value.key_eq_ok.1 named)
  rw [h.same name hname, h.membersOf_eq hname]

/-- Only object types and references look anything up. -/
theorem formOutline_eq (h : Agree known types types') (slot : Slot) (path : List Scalar)
    (hnode : node.MentionsOnly known) :
    formOutline types slot path node = formOutline types' slot path node := by
  rw [formOutline, formOutline]
  refine bind_congr_ok fun form hform => ?_
  have tag := Value.form_eq_ok hform
  cases form with
  | basic | number | array | choice | other => simp only
  | object =>
    refine bind_congr_ok fun listed hlisted => ?_
    have lists := typeMembers_eq_ok.1 hlisted
    have flat := h.flatten_eq path listed fun m hm hobj =>
      hnode.of_mem_parts (mem_parts_of_lists_singleton lists hm hobj)
    rw [flat]
  | reference => exact h.referenceOutline_eq slot path tag hnode

/-- **One level of an annotation at hand.** A union that was made smaller is no part of any
document, but it has no name to look up either. -/
theorem outline_eq (h : Agree known types types') (slot : Slot) (path : List Scalar)
    (hnode : node.MentionsOnly known ∨ node.hasTag "TSUnionType") :
    outline types slot path node = outline types' slot path node := by
  rcases hnode with hnode | union
  · have resolved : resolveAlias types node = resolveAlias types' node :=
      h.resolveAliasFrom_eq [] node hnode
    rw [outline, outline, ← resolved]
    refine bind_congr_ok ?_
    rintro ⟨inner, aliases⟩ hinner
    have inside := h.formOutline_eq slot (path ++ aliases)
      (h.mentionsOnly_of_resolveAlias hnode hinner)
    simp only [inside]
  -- no alias stands in front of a union, and its outline is read off the union itself
  · rw [outline_of_hasTag union (by simp), outline_of_hasTag union (by simp),
      formOutline_of_union union, formOutline_of_union union]

/-- **Typing to a depth.** What a level asks for is at hand again, so the induction goes through. -/
theorem annotateTo_eq (h : Agree known types types') (n : Nat) (slot : Slot) (path : List Scalar)
    (node : Value) (hnode : node.MentionsOnly known ∨ node.hasTag "TSUnionType") :
    annotateTo types n slot path node = annotateTo types' n slot path node := by
  induction n generalizing slot path node with
  | zero => rfl
  | succ n ih =>
    -- the queries of a level are about nodes at hand, which the induction hypothesis answers alike
    have answers (asked : Query) (hasked : Asks types ⟨slot, path, node⟩ asked) :
        asked.answer (annotateTo types n) = asked.answer (annotateTo types' n) := by
      refine ih _ _ _ ?_
      rcases hnode with hnode | union
      · refine (asks_within hasked).imp_left ?_
        rintro (below | ⟨name, declaration, found, below⟩)
        · exact hnode.of_mem_parts below
        · exact (h.closed name declaration found).of_mem_parts below
      · exact absurd hasked (not_asks_of_union union)
    calc annotateTo types (n + 1) slot path node
        = step types (annotateTo types n) slot path node := by rw [annotateTo_succ]
      _ = step types (annotateTo types' n) slot path node := step_congr answers
      _ = step types' (annotateTo types' n) slot path node := by
          rw [step, step, h.outline_eq slot path hnode]
      _ = annotateTo types' (n + 1) slot path node := by rw [annotateTo_succ]

/-- **Typing looks up nothing but the names at hand.** -/
theorem annotate_eq (h : Agree known types types') (slot : Slot) (path : List Scalar)
    (node : Value) (hnode : node.MentionsOnly known ∨ node.hasTag "TSUnionType") :
    annotate types slot path node = annotate types' slot path node := by
  -- the tables may bound the depth differently, so both are taken to a depth that suffices for both
  let query : Query := ⟨slot, path, node⟩
  let n := max (depthBound types node.weight) (depthBound types' node.weight)
  have deep : query.answer (annotateTo types n) = query.answer (annotate types) :=
    annotateTo_eq_annotate (Nat.le_max_left _ _)
  have deep' : query.answer (annotateTo types' n) = query.answer (annotate types') :=
    annotateTo_eq_annotate (Nat.le_max_right _ _)
  calc annotate types slot path node
      = annotateTo types n slot path node := deep.symm
    _ = annotateTo types' n slot path node := h.annotateTo_eq n slot path node hnode
    _ = annotate types' slot path node := deep'

/-! ### Props, state and inherited groups -/

/-- A member is typed by the annotation in it. -/
theorem entryOf_eq (h : Agree known types types') (withDefaults : Bool)
    (hmember : member.isObject → member.MentionsOnly known) :
    entryOf types withDefaults member = entryOf types' withDefaults member := by
  rw [entryOf, entryOf, memberEntry, memberEntry]
  refine bind_congr_ok ?_
  rintro ⟨slot, node⟩ sited
  have hobj := isObject_of_memberSite sited
  have hnode := (mem_parts_of_memberSite sited).imp_left
    ((hmember hobj).of_mem_parts (Value.memberType_mem_parts hobj)).of_mem_parts
  simp only [h.annotate_eq slot [] node hnode]

theorem propsOf_eq (h : Agree known types types')
    (all : ∀ m ∈ members, m.isObject → m.MentionsOnly known) :
    propsOf types members = propsOf types' members := by
  rw [propsOf, propsOf, mapM_congr fun m hm => ?_]
  rw [propOfMember?, propOfMember?, h.entryOf_eq true (all m hm)]

theorem stateOf_eq (h : Agree known types types')
    (all : ∀ m ∈ members, m.isObject → m.MentionsOnly known) :
    stateOf types members = stateOf types' members :=
  mapM_congr fun m hm => h.entryOf_eq true (all m hm)

/-- Whether a reference is inherited turns on whether its name is declared. -/
theorem inheritedGroup?_eq (h : Agree known types types')
    (hmember : member.isObject → member.MentionsOnly known) :
    inheritedGroup? types member = inheritedGroup? types' member := by
  rw [inheritedGroup?, inheritedGroup?]
  cases tag : member.hasTagIn Value.referenceTags with
  | false => rfl
  | true =>
    have declares : types.declares member.referenceName = types'.declares member.referenceName := by
      cases named : member.referenceName with
      | arr | obj => rfl
      | scalar name =>
        have hname := hmember (Value.isObject_of_hasTagIn tag) name
          (mentions_of_reference tag named)
        simp only [Declarations.declares, Value.key, ok_bind, h.has_eq hname]
    simp only [declares]

theorem inheritedOf_eq (h : Agree known types types')
    (all : ∀ m ∈ members, m.isObject → m.MentionsOnly known) :
    inheritedOf types members = inheritedOf types' members := by
  rw [inheritedOf, inheritedOf, mapM_congr fun m hm => h.inheritedGroup?_eq (all m hm)]

theorem withoutInherited_eq (h : Agree known types types')
    (all : ∀ m ∈ members, m.isObject → m.MentionsOnly known) :
    withoutInherited types members = withoutInherited types' members := by
  rw [withoutInherited, withoutInherited]
  exact filterM_congr fun m hm => by rw [h.inheritedGroup?_eq (all m hm)]

/-! ### Events -/

/-- A payload is typed like any other annotation. -/
theorem payloadOf_eq (h : Agree known types types') (name : Value)
    (hnode : node.MentionsOnly known) : payloadOf types name node = payloadOf types' name node := by
  rw [payloadOf, payloadOf, h.annotate_eq _ _ node (Or.inl hnode)]

/-- The payload is the first type argument of the handler. -/
theorem eventOf_eq (h : Agree known types types') {handler : Value} (bubbling : Bubbling)
    (hhandler : handler.MentionsOnly known) :
    eventOf types member handler bubbling = eventOf types' member handler bubbling := by
  rw [eventOf, eventOf]
  refine bind_congr_ok ?_
  rintro ⟨rest, nullable⟩ -
  cases arguments : handler.typeArguments with
  | nil => rfl
  | cons payload more =>
    have hpayload : payload.MentionsOnly known :=
      hhandler.of_mem_parts (Value.mem_parts_of_mem_typeArguments (by simp [arguments]))
    simp only [h.payloadOf_eq member.keyName hpayload]

/-- The handler is found without a look-up, and then its payload is typed. -/
theorem eventOfMember?_eq (h : Agree known types types')
    (hmember : member.isObject → member.MentionsOnly known) :
    eventOfMember? types member = eventOfMember? types' member := by
  rw [eventOfMember?, eventOfMember?]
  cases property : member.hasTag "TSPropertySignature" with
  | false => simp only [Bool.not_false, if_true]
  | true =>
    have hobj := Value.isObject_of_hasTag property
    have htype := (hmember hobj).of_mem_parts (Value.memberType_mem_parts hobj)
    simp only [Bool.not_true, Bool.false_eq_true, if_false]
    refine bind_congr_ok fun found hfound => ?_
    cases found with
    | none => simp only
    | some found =>
      obtain ⟨handler, bubbling⟩ := found
      have hhandler := htype.of_mem_parts (mem_parts_of_eventHandler? hfound)
      simp only [h.eventOf_eq bubbling hhandler]

theorem eventsOf_eq (h : Agree known types types')
    (all : ∀ m ∈ members, m.isObject → m.MentionsOnly known) :
    eventsOf types members = eventsOf types' members := by
  rw [eventsOf, eventsOf, mapM_congr fun m hm => h.eventOfMember?_eq (all m hm)]

/-! ### Commands -/

/-- A parameter is typed by the annotation in it. -/
theorem paramOf_eq (h : Agree known types types') (command : Value) {param : Value}
    (hparam : param.MentionsOnly known) :
    paramOf types command param = paramOf types' command param := by
  rw [paramOf, paramOf]
  refine bind_congr_ok fun name _ => ?_
  refine bind_congr_ok fun node htype => ?_
  rw [h.annotate_eq _ _ node (Or.inl (hparam.of_mem_parts (mem_parts_of_typeOfParam htype)))]

/-- The parameters of a command are parts of its member. -/
theorem commandOf_eq (h : Agree known types types') (hmember : member.MentionsOnly known) :
    commandOf types member = commandOf types' member := by
  rw [commandOf, commandOf]
  refine bind_congr_ok fun function hfunction => ?_
  refine bind_congr_ok fun params hparams => ?_
  cases params with
  | none => rfl
  | some params =>
    have entries : params.mapM (paramOf types member.keyName) =
        params.mapM (paramOf types' member.keyName) := by
      refine mapM_congr fun param hparam => h.paramOf_eq _ ?_
      exact hmember.of_mem_parts (mem_parts_of_paramsAfterRef? hfunction hparams hparam)
    simp only [entries]

theorem commandsOf_eq (h : Agree known types types')
    (all : ∀ m ∈ members, m.MentionsOnly known) :
    commandsOf types members = commandsOf types' members :=
  mapM_congr fun m hm => h.commandOf_eq (all m hm)

end Agree

end ComponentSpec
