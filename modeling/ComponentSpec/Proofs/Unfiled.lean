import ComponentSpec.Proofs.Stages

/-!
# Faults before they are filed

A report can name a file, and some faults are about files and texts. Nothing that looks at a tree
knows which file the tree is from, so no report that leaves the assembly names one, and no fault
that leaves it is about a file (`unfiled_componentSchema`): every name is put there by whoever read
the file. A report is also made out in one go, so the place that it gives is that of its node.

The steps are gone through from the reading of a node to the whole assembly, each by what its own
faults are and by the steps it takes. What a chain of steps avoids is what its steps avoid, and so
`simp` takes a chain apart.

* `Fault.Filed` — a fault that has to do with a file, or was not made out to its node;
* `Unfiled` — a step without such faults;
* `unfiled_annotate`, `unfiled_componentSchema` — the typing of annotations, and the assembly.
-/

namespace ComponentSpec

open Checked

/-! ### What a chain of steps avoids -/

namespace Checked

variable {α β : Type} {bad : Fault → Prop} {x y : Checked α}

/-- **A chain avoids** what its first step avoids, and its second step on every outcome of the
first. -/
@[simp] theorem avoids_bind {f : α → Checked β} :
    Avoids bad (x >>= f) ↔ Avoids bad x ∧ ∀ a, x = .ok a → Avoids bad (f a) := by
  constructor
  · intro h
    refine ⟨fun e he => h e (bind_eq_error.2 (.inl he)), ?_⟩
    rintro a rfl
    exact h
  · rintro ⟨hx, hf⟩
    exact hx.bind hf

/-- Working an outcome over adds no fault. -/
@[simp] theorem avoids_map {f : α → β} : Avoids bad (f <$> x) ↔ Avoids bad x := by
  constructor
  · exact fun h e he => h e (map_eq_error.2 he)
  · exact fun h => h.map

/-- A choice avoids what the branch that is taken avoids. -/
@[simp] theorem avoids_ite {c : Prop} [Decidable c] :
    Avoids bad (if c then x else y) ↔ (c → Avoids bad x) ∧ (¬ c → Avoids bad y) := by
  by_cases h : c <;> simp [h]

/-- A loop avoids what every round of it avoids, whatever it has gathered by then. -/
theorem Avoids.foldlM {f : β → α → Checked β} {xs : List α} (hf : ∀ b, ∀ a ∈ xs, Avoids bad (f b a))
    (b : β) : Avoids bad (xs.foldlM f b) := by
  induction xs generalizing b with
  | nil => exact avoids_ok b
  | cons a xs ih =>
    rw [List.foldlM_cons]
    exact (hf b a List.mem_cons_self).bind fun b' _ =>
      ih (fun b a ha => hf b a (List.mem_cons_of_mem _ ha)) b'

/-- A filter avoids what its test avoids. -/
theorem Avoids.filterM {test : α → Checked Bool} {xs : List α} (h : ∀ a ∈ xs, Avoids bad (test a)) :
    Avoids bad (xs.filterM test) := by
  have aux (acc : List α) : Avoids bad (xs.filterAuxM test acc) := by
    induction xs generalizing acc with
    | nil => exact avoids_ok acc
    | cons a xs ih =>
      exact (h a List.mem_cons_self).bind fun _ _ =>
        ih (fun a ha => h a (List.mem_cons_of_mem _ ha)) _
  exact (aux []).bind fun _ _ => avoids_ok _

end Checked

/-! ### Faults that have to do with a file -/

/-- **A fault that has to do with a file:** a report that names one or gives a place other than that
of its node, and whatever is wrong with a text, a file or what is written to one. -/
def Fault.Filed : Fault → Prop
  | .report r => r.file.isSome ∨ Place.ofNode r.node ≠ .ok r.place
  | .misfit _ | .invalid _ | .endless => False
  | _ => True

namespace Fault

/-- What is made out to a node gives the place of that node, and no file. -/
@[simp] theorem not_filed_about (cause : Cause) (node : Value) : ¬ (about cause node).Filed := by
  rw [about]
  split
  · next place found => simp [Filed, found]
  · simp [Filed]

/-- The same holds where there is no node: what is no node starts at an unknown place. -/
@[simp] theorem not_filed_bare (cause : Cause) : ¬ (bare cause).Filed := by
  have nowhere : Place.ofNode .null = .ok .unknown := rfl
  simp [bare, Filed, nowhere]

@[simp] theorem not_filed_misfit (m : Misfit) : ¬ (misfit m).Filed := id

@[simp] theorem not_filed_invalid (problems : List Invalid) : ¬ (invalid problems).Filed := id

@[simp] theorem not_filed_endless : ¬ endless.Filed := id

end Fault

/-- **A step none of whose faults has to do with a file.** -/
abbrev Unfiled {α : Type} (x : Checked α) : Prop := Avoids Fault.Filed x

variable (types : Declarations)

/-! ### Nodes, the blueprint and the declared types -/

/-- Whatever is read off a single node can only be a misfit, and a misfit has nothing to do with a
file. -/
@[simp] theorem unfiled_elements (v : Value) : Unfiled v.elements := by
  unfold Value.elements
  split
  · simp
  · split <;> simp

@[simp] theorem unfiled_first (v : Value) : Unfiled v.first := by
  unfold Value.first
  repeat' split
  all_goals simp

@[simp] theorem unfiled_key (v : Value) : Unfiled v.key := by
  unfold Value.key
  split <;> simp

@[simp] theorem unfiled_entry (v : Value) (key : String) : Unfiled (v.entry key) := by
  simp [Value.entry]

/-- A probe matches or does not; all it can stumble over is the first of the declared variables. -/
theorem unfiled_commandsCall? (statement : Value) : Unfiled (commandsCall? statement) := by
  simp [commandsCall?]

/-- What is wrong with the arguments of a commands call is made out to the call. -/
theorem unfiled_commandsOfCall (call : Value) : Unfiled (commandsOfCall call) := by
  unfold commandsOfCall
  split
  · split <;> simp
  · simp

/-- Only matched calls are checked, so these are the faults of the probe and of the check. -/
theorem unfiled_commandsAmong (statements : List Value) : Unfiled (commandsAmong statements) := by
  refine .map (.mapM fun statement _ => ?_)
  refine (unfiled_commandsCall? statement).bind fun call _ => ?_
  split
  · simp [unfiled_commandsOfCall]
  · simp

/-- The mark is looked for in whatever stands in the place of the name, which can only be a misfit.
-/
theorem unfiled_stateName? (declaration : Value) : Unfiled (stateName? declaration) := by
  have marks (name : Value) : Unfiled (marksState name) := by
    unfold marksState
    split <;> simp
  simp [stateName?, marks]

/-- Exported and local declarations are gone through one after the other. -/
theorem unfiled_stateTypeNames (statements : List Value) : Unfiled (stateTypeNames statements) := by
  refine (Avoids.mapM fun statement _ => ?_).bind fun _ _ =>
    (Avoids.mapM fun statement _ => ?_).bind fun _ _ => ?_
  all_goals simp [unfiled_stateName?]

/-- Fields of the wrong type are told by their names. -/
theorem unfiled_ofParts (component : ComponentCall) (stateType : Value)
    (commands : Option (Value × Value)) :
    Unfiled (Blueprint.ofParts component stateType commands) := by
  unfold Blueprint.ofParts
  dsimp only
  split <;> simp

/-- **The blueprint.** A file with too many components, commands calls or states is refused as a
whole, and the report is made out to no node. -/
theorem unfiled_locate (tree : Value) : Unfiled (Blueprint.locate tree) := by
  unfold Blueprint.locate
  dsimp only
  split <;> simp [unfiled_commandsAmong, unfiled_stateTypeNames, unfiled_ofParts]

/-- A declaration is stumbled over only where its name is no key. -/
theorem unfiled_ofTree (tree : Value) : Unfiled (Declarations.ofTree tree) := by
  refine .foldlM (fun types statement _ => ?_) _
  unfold Declarations.addStatement
  split <;> simp

@[simp] theorem unfiled_find (name : Value) : Unfiled (Declarations.find types name) := by
  simp [Declarations.find]

/-! ### Members -/

/-- Along the parts of an intersection: an annotation that has no members is reported at the
annotation that is left without its wrappers. -/
theorem unfiled_typeMembers (typeName node : Value) : Unfiled (typeMembers typeName node) := by
  induction node using typeMembers.induct with
  | case1 node inner literal =>
    rw [typeMembers_eq, if_pos literal]
    exact unfiled_elements _
  | case2 node inner noLiteral meets f failed =>
    rw [typeMembers_eq, if_neg noLiteral, if_pos meets]
    exact (unfiled_elements _).bind fun parts given => by simp [inner, failed] at given
  | case3 node inner noLiteral meets parts given ih =>
    rw [typeMembers_eq, if_neg noLiteral, if_pos meets, given, ok_bind]
    exact (Avoids.mapM ih).map
  | case4 node inner noLiteral apart reference =>
    rw [typeMembers_eq, if_neg noLiteral, if_neg apart, if_pos reference]
    exact avoids_ok _
  | case5 node inner noLiteral apart noReference =>
    rw [typeMembers_eq, if_neg noLiteral, if_neg apart, if_neg noReference]
    simp

/-- A name without a declaration is reported without a node; everything else is made out to the
declaration. -/
@[simp] theorem unfiled_membersDeclared (name : Scalar) : Unfiled (membersDeclared types name) := by
  have declared (name declaration : Value) : Unfiled (declaredMembers name declaration) := by
    unfold declaredMembers
    split
    · split <;> simp
    · simp [unfiled_typeMembers]
  simp [membersDeclared, declared]

/-- Along the expansion of names: a circle and a member of the wrong kind are reported at the
member. -/
theorem unfiled_flatten (path : List Scalar) (members : List Value) :
    Unfiled (flatten types path members) := by
  induction path, members using flatten.induct types with
  | case1 path =>
    rw [flatten_nil]
    exact avoids_ok _
  | case2 path member members tag ih =>
    rw [flatten_cons_property tag]
    exact ih.map
  | case3 path member members noProperty tag ihInner ihRest =>
    rw [flatten, if_neg noProperty, if_pos tag]
    refine (unfiled_key _).bind fun name _ => ?_
    split
    · next declared =>
      split
      · simp
      · next fresh =>
        refine (unfiled_membersDeclared types name).bind fun inner _ => ?_
        exact (ihInner name declared fresh inner).bind fun _ _ => ihRest.map
    · exact ihRest.map
  | case4 path member members noProperty noReference =>
    rw [flatten, if_neg noProperty, if_neg noReference]
    simp

@[simp] theorem unfiled_membersOf (name : Scalar) : Unfiled (membersOf types name) := by
  simp [membersOf, unfiled_flatten]

/-! ### Annotations -/

@[simp] theorem unfiled_splitNullable (node : Value) : Unfiled node.splitNullable := by
  unfold Value.splitNullable
  simp only [avoids_ite, avoids_bind, pure_eq, avoids_ok, implies_true, true_and,
    unfiled_elements]
  intro _ members _ _
  split <;> simp

/-- A wrong use of `WithDefault` is reported at the wrapper or at the default in it. -/
@[simp] theorem unfiled_splitDefault (name node : Value) : Unfiled (splitDefault name node) := by
  unfold splitDefault
  repeat' split
  all_goals simp

@[simp] theorem unfiled_aliasOf (node : Value) : Unfiled (aliasOf types node) := by
  simp [aliasOf]

/-- Along the chain of aliases, which ends quietly where it comes back to itself. -/
theorem unfiled_resolveAliasFrom (followed : List Scalar) (node : Value) :
    Unfiled (resolveAliasFrom types followed node) := by
  induction followed, node using resolveAliasFrom.induct types with
  | case1 followed node inner f failed =>
    rw [resolveAliasFrom_eq, failed]
    exact avoids_error.2 (unfiled_aliasOf types inner f failed)
  | case2 followed node inner none =>
    rw [resolveAliasFrom_eq, none]
    exact avoids_ok _
  | case3 followed node inner name declaration here back =>
    rw [resolveAliasFrom_eq, here, ok_bind]
    simp [back]
  | case4 followed node inner name declaration here fresh ih =>
    rw [resolveAliasFrom_eq, here, ok_bind]
    simpa [fresh] using ih

/-- A union that is no enum, or an enum whose default is missing or none of its options, is reported
at the union. -/
@[simp] theorem unfiled_enumType (slot : Slot) (node : Value) : Unfiled (enumType slot node) := by
  have read : Unfiled (choices node) := by simp [choices]
  have enum (options : List Value) : Unfiled (enumOf slot node options) := by
    unfold enumOf
    split
    · simp
    · split <;> simp
  refine read.bind fun options _ => ?_
  split
  · simp
  · refine (enum _).bind fun _ _ => ?_
    split <;> simp

/-- A reference that means nothing, or that leads back, is reported where it stands. -/
theorem unfiled_referenceOutline (slot : Slot) (path : List Scalar) (node : Value) :
    Unfiled (referenceOutline types slot path node) := by
  refine (unfiled_key _).bind fun reference _ => ?_
  split
  · simp
  · simp
  · simp
  · split <;> simp
  · simp

theorem unfiled_formOutline (slot : Slot) (path : List Scalar) (node : Value) :
    Unfiled (formOutline types slot path node) := by
  have form : Unfiled node.form := by
    refine (unfiled_key _).bind fun tag _ => ?_
    split <;> simp
  refine form.bind fun form _ => ?_
  cases form <;> simp [unfiled_typeMembers, unfiled_flatten, unfiled_referenceOutline]

/-- One level of an annotation. A circle through aliases is reported at the annotation behind them.
-/
theorem unfiled_outline (slot : Slot) (path : List Scalar) (node : Value) :
    Unfiled (outline types slot path node) := by
  refine (unfiled_resolveAliasFrom types [] node).bind fun ⟨node, aliases⟩ _ => ?_
  dsimp only
  split
  · simp
  · exact unfiled_formOutline types slot (path ++ aliases) node

section

variable {inside : Annotator} (typed : ∀ slot path node, Unfiled (inside slot path node))
include typed

/-- A member adds the faults of its name, its nullability and its default to those of the type. -/
theorem unfiled_memberEntry (withDefaults : Bool) (path : List Scalar) (member : Value) :
    Unfiled (memberEntry inside withDefaults path member) := by
  have site : Unfiled (memberSite withDefaults member) := by
    simp [memberSite]
  exact site.bind fun found _ => (typed found.1 path found.2).bind fun _ _ => avoids_ok _

/-- The inside of an array or an object is typed by `inside`, which is unfiled itself. -/
theorem unfiled_fill (slot : Slot) (outline : Outline) : Unfiled (outline.fill inside slot) := by
  cases outline with
  | leaf type => simp [Outline.fill]
  | array path element =>
    have site : Unfiled (elementSite slot element) := by simp [elementSite]
    exact site.bind fun found _ => (typed found.1 path found.2).bind fun _ _ => avoids_ok _
  | object path members =>
    exact (Avoids.mapM fun member _ => unfiled_memberEntry typed _ path member).bind
      fun _ _ => avoids_ok _

end

/-- **Typing to a depth.** At the bound there is `Fault.endless`, which concerns no file, and above
it a level at a time. -/
theorem unfiled_annotateTo (depth : Nat) (slot : Slot) (path : List Scalar) (node : Value) :
    Unfiled (annotateTo types depth slot path node) := by
  induction depth generalizing slot path node with
  | zero => simp
  | succ depth ih =>
    rw [annotateTo_succ]
    exact (unfiled_outline types slot path node).bind fun outline _ => unfiled_fill ih slot outline

@[simp] theorem unfiled_annotate (slot : Slot) (path : List Scalar) (node : Value) :
    Unfiled (annotate types slot path node) :=
  unfiled_annotateTo types _ slot path node

@[simp] theorem unfiled_entryOf (withDefaults : Bool) (member : Value) :
    Unfiled (entryOf types withDefaults member) :=
  unfiled_memberEntry (unfiled_annotate types) withDefaults [] member

/-! ### Facets -/

/-- A spread that is no core view is reported at the reference. -/
theorem unfiled_inheritedGroup? (member : Value) :
    Unfiled (inheritedGroup? types member) := by
  simp [inheritedGroup?, Declarations.declares]

@[simp] theorem unfiled_eventHandler? (node : Value) : Unfiled (eventHandler? node) := by
  simp [eventHandler?]

/-- A handler without a payload, a name that is no text and a payload that is no object are each
reported at the node concerned. -/
theorem unfiled_eventOf (member handler : Value) (bubbling : Bubbling) :
    Unfiled (eventOf types member handler bubbling) := by
  have payload (name type : Value) : Unfiled (payloadOf types name type) := by
    unfold payloadOf
    simp only [avoids_ite, avoids_bind, unfiled_annotate, pure_eq, avoids_ok, implies_true,
      true_and]
    intro _ type _
    split <;> simp
  refine (unfiled_splitNullable _).bind fun _ _ => ?_
  dsimp only
  split
  · simp
  · split
    · simp [payload]
    · split <;> simp [payload]

theorem unfiled_eventOfMember? (member : Value) : Unfiled (eventOfMember? types member) := by
  simp only [eventOfMember?, avoids_ite, avoids_bind, unfiled_eventHandler?, pure_eq, avoids_ok,
    implies_true, true_and]
  intro _ handler _
  split
  · exact (unfiled_eventOf types _ _ _).bind fun _ _ => avoids_ok _
  · exact avoids_ok _

theorem unfiled_propOfMember? (member : Value) : Unfiled (propOfMember? types member) := by
  simp [propOfMember?, isEvent]

/-- A parameter of a type that is not allowed is reported at the parameter. -/
theorem unfiled_paramOf (command param : Value) : Unfiled (paramOf types command param) := by
  simp [paramOf, typeOfParam]

/-- What keeps a member from being a command is reported at the member. -/
theorem unfiled_commandOf (member : Value) : Unfiled (commandOf types member) := by
  have function : Unfiled (commandFunction member) := by simp [commandFunction]
  have params (parameters : Value) : Unfiled (paramsAfterRef? parameters) := by
    simp [paramsAfterRef?, isRefParam, typeOfParam]
  refine function.bind fun function _ => ?_
  dsimp only
  refine (params _).bind fun params _ => ?_
  split
  · simp
  · have typed := fun params => Avoids.mapM fun param (_ : param ∈ params) =>
      unfiled_paramOf types member.keyName param
    simp [typed]

/-! ### Options -/

/-- Options are refused at the property or at the whole expression, for the cause that the caller
gives. -/
theorem unfiled_objectProperties (cause : Cause) (expression : Value) :
    Unfiled (objectProperties cause expression) := by
  have property (property : Value) : Unfiled (objectProperty cause property) := by
    simp [objectProperty]
  have all (properties : List Value) := Avoids.mapM fun p (_ : p ∈ properties) => property p
  simp [objectProperties, all]

theorem unfiled_elementValues (list : Value) : Unfiled (elementValues list) := by
  simp [elementValues]

/-- The values are read into a table in order, and two names for the old renderer are refused at the
end. -/
theorem unfiled_componentOptions (expression : Value) : Unfiled (componentOptions expression) := by
  have value (value : Value) : Unfiled (optionValue value) := by
    unfold optionValue
    simp only [avoids_ite, avoids_bind, unfiled_elementValues, pure_eq, avoids_ok, implies_true,
      true_and]
    intro _
    split <;> simp
  simp only [componentOptions, avoids_ite, avoids_bind, unfiled_objectProperties, pure_eq,
    avoids_ok, implies_true, true_and]
  intro _ properties _
  refine ⟨.foldlM (fun options property _ => ?_) [], ?_⟩
  · simp [value]
  · simp

/-- The list of names, once it is read, is validated like a record. -/
theorem unfiled_commandOptions (expression : Value) : Unfiled (commandOptions expression) := by
  have value (value : Value) : Unfiled (commandOptionValue value) := by
    simp [commandOptionValue, unfiled_elementValues]
  have key (k : Scalar) : Unfiled (textKey k) := by
    unfold textKey
    split <;> simp
  have fields (fields : List (String × Value)) : Unfiled (CommandOptions.ofFields fields) := by
    unfold CommandOptions.ofFields
    extract_lets key others
    split
    · simp
    · split
      · simp
      · split <;> simp
  simp only [commandOptions, avoids_ite, avoids_bind, unfiled_objectProperties, pure_eq, avoids_ok,
    implies_true, true_and, fields, and_true]
  intro _ properties _
  refine ⟨.foldlM (fun options property _ => ?_) [], fun options _ => .mapM fun option _ => ?_⟩
  · simp [value]
  · simp [key]

/-! ### The assembly -/

/-- A missing interface is reported without a node, and everything else about it at its declaration.
-/
theorem unfiled_commandMembers (typeName : Value) (options : Option CommandOptions) :
    Unfiled (commandMembers types typeName options) := by
  have texts (names : List Value) : Unfiled (asTexts names) := by
    refine .mapM fun name _ => ?_
    split <;> simp
  have keys (names : List Value) : Unfiled (asKeys names) := .mapM fun name _ => unfiled_key name
  simp only [commandMembers, avoids_ite, avoids_bind, unfiled_find, pure_eq, throw_eq, avoids_ok,
    avoids_error, implies_true, true_and, Fault.not_filed_bare, Fault.not_filed_about,
    not_false_eq_true, reduceCtorEq, false_implies]
  intro _ declaration _ _ _
  split
  · simp
  · split
    · simp
    · simp [namesAgree, texts, keys]

/-- **No step of the assembly speaks of a file.** Each of its steps is one of those above, and the
assembly adds no fault of its own. -/
theorem unfiled_componentSchema (tree : Value) : Unfiled (componentSchema tree) := by
  rw [componentSchema_eq]
  refine (unfiled_locate tree).bind fun blueprint _ => (unfiled_ofTree tree).bind fun types _ => ?_
  have inherited (members : List Value) : Unfiled (inheritedOf types members) :=
    .map (.mapM fun member _ => unfiled_inheritedGroup? types member)
  have own (members : List Value) : Unfiled (withoutInherited types members) :=
    .filterM fun member _ => .map (unfiled_inheritedGroup? types member)
  have props (members : List Value) : Unfiled (propsOf types members) :=
    .map (.mapM fun member _ => unfiled_propOfMember? types member)
  have events (members : List Value) : Unfiled (eventsOf types members) :=
    .map (.mapM fun member _ => unfiled_eventOfMember? types member)
  have commands (members : List Value) : Unfiled (commandsOf types members) :=
    .mapM fun member _ => unfiled_commandOf types member
  have typed (members : List Value) : Unfiled (stateOf types members) :=
    .mapM fun member _ => unfiled_entryOf types true member
  have state : Unfiled (assembleState Resolver.standard types blueprint.stateType) := by
    simp [assembleState, Resolver.standard, typed]
  simp [schemaOf, unfiled_commandOptions, unfiled_commandMembers, unfiled_componentOptions,
    inherited, own, props, events, commands, state]

end ComponentSpec
