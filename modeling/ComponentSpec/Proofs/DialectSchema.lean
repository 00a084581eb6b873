import ComponentSpec.Proofs.DialectFacets
import ComponentSpec.Proofs.Sample
import ComponentSpec.Proofs.Stages

/-!
# Schemas in two dialects

A file and its rewriting have the same blueprint, up to the rewriting of the two option literals,
and the same types, up to the rewriting of the declarations. So they have the same schema, or
neither has one, for a reason of the same kind (`componentSchema_writeFile`).

* `locate_alike`, `ofTree_alike` — what is read off a file;
* `schemaOf_alike` — the steps of an assembly;
* `componentSchema_writeFile` — the schema of a file in another dialect;
* `not_componentSchema_writeFile` — two files that do not survive the rewriting.
-/

namespace ComponentSpec

open Checked

namespace Dialect

variable {d : Dialect} {node node' statement statement' : Value} {types types' : Declarations}
  {statements statements' : List Value}

/-! ### The component call -/

/-- Component calls that are alike. -/
structure Calls (d : Dialect) (call call' : ComponentCall) : Prop where
  propsType : call'.propsType = call.propsType
  name : call'.name = call.name
  options : d.Writes (.ofOption call.options) (.ofOption call'.options)

/-- Two runs that are let through alike. -/
theorem rel_guard {α β : Type} {R : α → β → Prop} {x : Option α} {y : Option β} {p q : Bool}
    (same : q = p) (h : Option.Rel R x y) :
    Option.Rel R (guard (p = true) >>= fun _ => x) (guard (q = true) >>= fun _ => y) := by
  subst same
  cases q with
  | true => exact h
  | false => exact .none

/-- **The component call.** Its type arguments are where the dialects differ; the names in it are
the same. -/
theorem Twins.componentCall?_rel (h : d.Twins statement statement') :
    Option.Rel d.Calls (componentCall? statement) (componentCall? statement') := by
  have call := (h.get "declaration" rfl).twins.withoutCast
  rw [componentCall?, componentCall?]
  refine rel_guard (h.hasTag _ rfl) (rel_guard (congrArg (Value.isText _) call.calleeName) ?_)
  generalize (statement.get "declaration").withoutCast = c,
    (statement'.get "declaration").withoutCast = c' at call ⊢
  have types := call.typeArguments
  have arguments := call.callArguments
  generalize c.typeArguments = ts, c'.typeArguments = ts' at types ⊢
  generalize c.callArguments = as, c'.callArguments = as' at arguments ⊢
  cases types with
  | nil => exact .none
  | cons type _ =>
    cases arguments with
    | nil => exact .none
    | cons literal more =>
      have named := (type.twins.get "typeName" rfl).twins.identifierName
      dsimp only
      rw [literal.twins.literal?]
      split
      · refine rel_guard (congrArg (!·.isNull) named) (.some ⟨named, rfl, ?_⟩)
        cases more with
        | nil => exact .scalar .null
        | cons options _ => exact options
      · exact .none

/-! ### The commands call -/

/-- A statement exports a commands call in both dialects or in neither. -/
theorem Twins.commandsCall?_alike (h : d.Twins statement statement') :
    Alike (Option.Rel d.Twins) (commandsCall? statement) (commandsCall? statement') := by
  have declaration := (h.get "declaration" rfl).twins
  have declared := declaration.get "declarations" rfl
  simp only [commandsCall?, h.hasTag "ExportNamedDeclaration" rfl,
    declaration.hasTag "VariableDeclaration" rfl, declared.truthy]
  split
  · exact .ok .none
  · split
    · exact .ok .none
    · split
      · exact .ok .none
      · refine declared.first_alike.bind fun _ _ _ twins => ?_
        have call := (twins.get "init" rfl).twins
        rw [call.calleeName]
        split
        · exact .ok (.some call)
        · exact .ok .none

/-- The call names the same type, with the options rewritten. -/
theorem Twins.commandsOfCall_alike (h : d.Twins node node') :
    Alike d.Keyed (commandsOfCall node) (commandsOfCall node') := by
  have types := h.typeArguments
  have arguments := h.callArguments
  simp only [commandsOfCall]
  generalize node.typeArguments = ts, node'.typeArguments = ts' at types ⊢
  generalize node.callArguments = as, node'.callArguments = as' at arguments ⊢
  match arguments with
  | .cons options .nil =>
    match types with
    | .cons type .nil =>
      simp only [type.twins.hasTag "TSTypeReference" rfl,
        (type.twins.get "typeName" rfl).twins.identifierName]
      split
      · exact .ok ⟨rfl, options⟩
      · exact .error (h.about rfl)
    | .nil | .cons _ (.cons _ _) => exact .error (h.about rfl)
  | .nil | .cons _ (.cons _ _) => exact .error (h.about rfl)

theorem commandsAmong_alike (h : List.Forall₂ d.Writes statements statements') :
    Alike (List.Forall₂ d.Keyed) (commandsAmong statements) (commandsAmong statements') := by
  refine Alike.map (R := List.Forall₂ (Option.Rel d.Keyed)) ?_ fun _ _ related =>
    List.rel_filterMap (fun _ _ related => related) related
  refine Alike.mapM h fun statement statement' _ written => ?_
  refine written.twins.commandsCall?_alike.bind fun o o' _ related => ?_
  cases related with
  | none => exact .ok .none
  | some twins => exact twins.commandsOfCall_alike.bind fun _ _ _ keyed => .ok (.some keyed)

/-! ### The state type -/

/-- A state type is told by its name. -/
theorem Twins.stateName?_alike (h : d.Twins node node') :
    Alike (· = ·) (stateName? node) (stateName? node') := by
  rw [stateName?, stateName?, h.declarationName]
  exact .of_eq rfl

theorem stateTypeNames_alike (h : List.Forall₂ d.Writes statements statements') :
    Alike (· = ·) (stateTypeNames statements) (stateTypeNames statements') := by
  have exported : Alike (· = ·)
      (statements.mapM fun statement =>
        if statement.hasTag "ExportNamedDeclaration" then stateName? (statement.get "declaration")
        else pure none)
      (statements'.mapM fun statement =>
        if statement.hasTag "ExportNamedDeclaration" then stateName? (statement.get "declaration")
        else pure none) := by
    refine Alike.mapM_eq h fun statement statement' _ written => ?_
    rw [written.twins.hasTag "ExportNamedDeclaration" rfl]
    split
    · exact (written.twins.get "declaration" rfl).twins.stateName?_alike
    · exact .ok rfl
  have unexported : Alike (· = ·)
      (statements.mapM fun statement =>
        if statement.hasTag "TSInterfaceDeclaration" then stateName? statement else pure none)
      (statements'.mapM fun statement =>
        if statement.hasTag "TSInterfaceDeclaration" then stateName? statement else pure none) := by
    refine Alike.mapM_eq h fun statement statement' _ written => ?_
    rw [written.twins.hasTag "TSInterfaceDeclaration" rfl]
    split
    · exact written.twins.stateName?_alike
    · exact .ok rfl
  exact exported.bind_eq fun _ => unexported.bind_eq fun _ => .ok rfl

/-! ### The blueprint -/

/-- **Blueprints that are alike.** -/
structure Blueprints (d : Dialect) (blueprint blueprint' : Blueprint) : Prop where
  componentName : blueprint'.componentName = blueprint.componentName
  propsType : blueprint'.propsType = blueprint.propsType
  stateType : blueprint'.stateType = blueprint.stateType
  commandsType : blueprint'.commandsType = blueprint.commandsType
  commandOptions :
    d.Writes (tableValue blueprint.commandOptions) (tableValue blueprint'.commandOptions)
  options : d.Writes (tableValue blueprint.options) (tableValue blueprint'.options)

/-- A field for an object reads the same problems off an expression and its rewriting. -/
theorem tableOrNull_writes (field : String) (h : d.Writes node node') :
    (Blueprint.tableOrNull field node').2 = (Blueprint.tableOrNull field node).2 ∧
      d.Writes (tableValue (Blueprint.tableOrNull field node).1)
        (tableValue (Blueprint.tableOrNull field node').1) := by
  rw [h.eq]
  cases node with
  | scalar s =>
    rw [write_scalar]
    refine ⟨rfl, ?_⟩
    cases s <;> exact .scalar .null
  | arr items =>
    rw [write_arr]
    exact ⟨rfl, .scalar .null⟩
  | obj es =>
    refine ⟨by rw [write_obj]; rfl, ?_⟩
    have written := h
    rw [h.eq, write_obj] at written
    rw [write_obj]
    exact written

/-- A blueprint has the names as they are and the options rewritten, and the same fields are of the
wrong type. -/
theorem ofParts_alike {component component' : ComponentCall} (calls : d.Calls component component')
    (stateType : Value) {commands commands' : Option (Value × Value)}
    (h : Option.Rel d.Keyed commands commands') :
    Alike d.Blueprints (Blueprint.ofParts component stateType commands)
      (Blueprint.ofParts component' stateType commands') := by
  have names : Value.ofOption (commands'.map Prod.fst) = .ofOption (commands.map Prod.fst) := by
    cases h with
    | none => rfl
    | some keyed => exact keyed.1.symm
  have literals : d.Writes (.ofOption (commands.map Prod.snd))
      (.ofOption (commands'.map Prod.snd)) := by
    cases h with
    | none => exact .scalar .null
    | some keyed => exact keyed.2
  obtain ⟨problems, written⟩ := tableOrNull_writes "command_options_expression" literals
  obtain ⟨problems', written'⟩ := tableOrNull_writes "options_expression" calls.options
  simp only [Blueprint.ofParts, names, calls.propsType, problems, problems', calls.name]
  split
  · exact .ok ⟨rfl, rfl, rfl, rfl, written, written'⟩
  · exact .error rfl

/-- The statements of a file and of its rewriting. -/
theorem programBody_writeFile {tree : Value} (proper : d.Proper tree) :
    List.Forall₂ d.Writes tree.programBody (d.writeFile tree).programBody := by
  have written : d.Writes tree (d.write tree) := ⟨proper, rfl⟩
  rw [writeFile]
  split
  · next bare =>
    simp only [Bool.and_eq_true] at bare
    have program : d.Writes (tree.get "program") (d.write (tree.get "program")) :=
      ⟨proper.get _, rfl⟩
    have noFile : (d.write (tree.get "program")).hasTag "File" = false := by
      rw [program.twins.hasTag "File" rfl, Value.hasTag_of_hasTag bare.2]
      rfl
    rw [Value.programBody, Value.programBody, bare.1.2, noFile]
    exact (program.twins.get "body" rfl).listOrEmpty
  · rw [Value.programBody, Value.programBody, written.twins.hasTag "File" rfl]
    split
    · exact ((written.twins.get "program" rfl).twins.get "body" rfl).listOrEmpty
    · exact (written.twins.get "body" rfl).listOrEmpty

/-- **The blueprint,** found alike among the statements of the two programs. -/
theorem locate_alike {tree tree' : Value}
    (statements : List.Forall₂ d.Writes tree.programBody tree'.programBody) :
    Alike d.Blueprints (Blueprint.locate tree) (Blueprint.locate tree') := by
  have components : List.Forall₂ d.Calls (tree.programBody.filterMap componentCall?)
      (tree'.programBody.filterMap componentCall?) :=
    List.rel_filterMap (fun _ _ written => written.twins.componentCall?_rel) statements
  simp only [Blueprint.locate]
  generalize tree.programBody.filterMap componentCall? = cs,
    tree'.programBody.filterMap componentCall? = cs' at components ⊢
  match components with
  | .nil | .cons _ (.cons _ _) => exact .error rfl
  | .cons component .nil =>
    simp only
    refine (commandsAmong_alike statements).bind fun commands commands' _ keyed => ?_
    have first : Option.Rel d.Keyed commands.head? commands'.head? := by
      cases keyed with
      | nil => exact .none
      | cons keyed _ => exact .some keyed
    rw [← keyed.length_eq]
    split
    · exact .error rfl
    · refine (stateTypeNames_alike statements).bind_eq fun states => ?_
      split
      · exact .error rfl
      · exact ofParts_alike component _ first

/-! ### Declared types -/

theorem Twins.declared?_rel (h : d.Twins statement statement') :
    Option.Rel d.Writes (Declarations.declared? statement) (Declarations.declared? statement') := by
  have declaration : d.Twins
      (if statement.hasTag "ExportNamedDeclaration" then statement.get "declaration" else statement)
      (if statement.hasTag "ExportNamedDeclaration" then statement'.get "declaration"
        else statement') := by
    split
    · exact (h.get "declaration" rfl).twins
    · exact h
  simp only [Declarations.declared?, h.hasTag "ExportNamedDeclaration" rfl, declaration.hasTagIn
    ["TSTypeAliasDeclaration", "TSInterfaceDeclaration", "TSEnumDeclaration"] rfl]
  generalize (if statement.hasTag "ExportNamedDeclaration" then statement.get "declaration"
    else statement) = node, (if statement.hasTag "ExportNamedDeclaration" then
    statement'.get "declaration" else statement') = node' at declaration ⊢
  split
  · next tag => exact .some (declaration.writes_of_isObject (Value.isObject_of_hasTagIn tag))
  · exact .none

/-- One more declaration leaves the tables rewritings of each other. -/
theorem Tables.addStatement_alike (h : d.Tables types types')
    (twins : d.Twins statement statement') :
    Alike d.Tables (types.addStatement statement) (types'.addStatement statement') := by
  have declared := twins.declared?_rel
  rw [Declarations.addStatement, Declarations.addStatement]
  generalize Declarations.declared? statement = o, Declarations.declared? statement' = o'
    at declared ⊢
  cases declared with
  | none => exact .ok h
  | some written =>
    simp only [written.twins.declarationName]
    split
    · exact Alike.bind_eq (.of_eq rfl) fun name => .ok (h.set name written)
    · exact .ok h

theorem ofTree_alike {tree tree' : Value}
    (statements : List.Forall₂ d.Writes tree.programBody tree'.programBody) :
    Alike d.Tables (Declarations.ofTree tree) (Declarations.ofTree tree') :=
  Alike.foldlM statements (fun _ _ _ _ h written => h.addStatement_alike written.twins) .nil

/-! ### The assembly -/

/-- The members of an interface keep their names. -/
theorem map_keyName {members members' : List Value} (h : List.Forall₂ d.Writes members members') :
    members'.map Value.keyName = members.map Value.keyName := by
  induction h with
  | nil => rfl
  | cons head _ ih => rw [List.map_cons, List.map_cons, ih, head.twins.keyName]

/-- **The check of the command names,** which reads nothing but names. -/
theorem Tables.commandMembers_alike (h : d.Tables types types') (typeName : Value)
    (options : Option CommandOptions) :
    Alike (List.Forall₂ d.Twins) (commandMembers types typeName options)
      (commandMembers types' typeName options) := by
  simp only [commandMembers]
  split
  · exact .ok .nil
  · have found : Alike d.Writes (types.find typeName) (types'.find typeName) :=
      Alike.bind_eq (.of_eq rfl) fun name => .ok (h.declaration name)
    refine found.bind fun declaration declaration' _ written => ?_
    rw [written.isNull, written.twins.hasTag "TSInterfaceDeclaration" rfl]
    split
    · exact .error rfl
    · split
      · exact .error (written.twins.about rfl)
      · have listed := written.twins.interfaceMembers
        generalize declaration.interfaceMembers = o, declaration'.interfaceMembers = o' at listed ⊢
        cases listed with
        | none => exact .error (written.twins.about rfl)
        | some members =>
          simp only [map_keyName members]
          cases options.bind CommandOptions.supported with
          | none => exact .error (written.twins.about rfl)
          | some listed =>
            refine Alike.bind_eq (.of_eq rfl) fun agree => ?_
            split
            · exact .ok (members.imp fun _ _ => .written)
            · exact Alike.bind_eq (.of_eq rfl) fun _ => .error (written.twins.about rfl)

theorem Tables.assembleState_alike (h : d.Tables types types') (stateType : String) :
    Alike (· = ·) (assembleState Resolver.standard types stateType)
      (assembleState Resolver.standard types' stateType) := by
  simp only [assembleState]
  split
  · exact .ok rfl
  · exact (h.membersOf_alike _).bind fun _ _ _ members =>
      (h.stateOf_alike members).bind_eq fun _ => .ok rfl

/-- **The steps of an assembly.** -/
theorem Tables.schemaOf_alike (h : d.Tables types types') {blueprint blueprint' : Blueprint}
    (blueprints : d.Blueprints blueprint blueprint') :
    Alike (· = ·) (schemaOf blueprint types) (schemaOf blueprint' types') := by
  have commandsName : blueprint'.commandsName = blueprint.commandsName := by
    rw [Blueprint.commandsName, Blueprint.commandsName, blueprints.commandsType]
  simp only [schemaOf, blueprints.propsType, blueprints.stateType, blueprints.componentName,
    commandsName]
  refine (h.membersOf_alike _).bind fun members members' _ twins => ?_
  refine blueprints.commandOptions.commandOptions_alike.bind_eq fun commandOptions => ?_
  refine (h.commandMembers_alike _ commandOptions).bind fun commands commands' _ commandTwins => ?_
  refine (h.inheritedOf_alike twins).bind_eq fun inherited => ?_
  refine blueprints.options.componentOptions_alike.bind_eq fun options => ?_
  refine (h.withoutInherited_alike twins).bind fun own own' _ ownTwins => ?_
  refine (h.propsOf_alike ownTwins).bind_eq fun props => ?_
  refine (h.eventsOf_alike twins).bind_eq fun events => ?_
  refine (h.commandsOf_alike commandTwins).bind_eq fun commands => ?_
  exact (h.assembleState_alike _).bind_eq fun state => .ok rfl

end Dialect

/-- Everything written in the newer way. -/
def Dialect.newer : Dialect := ⟨true, true, true, true⟩

/-- **A file in another dialect** has the same schema, or neither has one, for a reason of the same
kind. -/
theorem componentSchema_writeFile (d : Dialect) {tree : Value} (proper : d.Proper tree) :
    Alike (· = ·) (componentSchema tree) (componentSchema (d.writeFile tree)) := by
  have statements := Dialect.programBody_writeFile proper
  rw [componentSchema_eq, componentSchema_eq]
  refine (Dialect.locate_alike statements).bind fun blueprint blueprint' _ blueprints => ?_
  exact (Dialect.ofTree_alike statements).bind fun types types' _ h => h.schemaOf_alike blueprints

namespace Sample

/-- The declared types of a file with props and commands. -/
def fieldTypes (props commands : Value) : Declarations :=
  table [("Props", props), ("Commands", commands)]

/-- What is read off a file whose only command is `focus`. -/
def LocatesFocus (tree : Value) (given : Table Value) : Prop :=
  Blueprint.locate tree = .ok ⟨"Field", "Props", "", some "Commands", some given, none⟩ ∧
    commandOptions (tableValue (some given)) = .ok (some ⟨some ["focus"], []⟩)

def fieldProps : Value :=
  interfaceNamed "Props" [heritage "ViewProps"]
    [property "values" (reference "ReadonlyArray" [reference "Int32" []])]

def fieldInterface : Value :=
  interfaceNamed "Commands" []
    [property "focus" (commandType [parameter "index" (reference "Int32" [])])]

/-- A file with an extends clause, type arguments and a function. -/
def fieldFile : Value :=
  file [fieldProps, fieldInterface, commandsExport "Commands" ["focus"]] "Field" "Props"

theorem exists_componentSchema_fieldFile : ∃ schema, componentSchema fieldFile = .ok schema := by
  obtain ⟨given, located, options⟩ : ∃ given, LocatesFocus fieldFile given :=
    ⟨_, by with_unfolding_all rfl, by with_unfolding_all rfl⟩
  have declared : Declarations.ofTree fieldFile = .ok (fieldTypes fieldProps fieldInterface) := by
    with_unfolding_all rfl
  have expanded : membersOf (fieldTypes fieldProps fieldInterface) (.str "Props") = .ok
      [heritage "ViewProps",
        property "values" (reference "ReadonlyArray" [reference "Int32" []])] :=
    membersOf_eq_ok.2 ⟨_, _, .ofInterface rfl rfl rfl rfl,
      .foreign rfl (referenceName_heritage _) rfl (.property rfl .nil)⟩
  simp only [componentSchema_eq, located, declared, ok_bind, schemaOf, expanded, options]
  exact ⟨_, by with_unfolding_all rfl⟩

end Sample

open Sample in
theorem componentSchema_writeFile_field : ∃ schema, componentSchema fieldFile = .ok schema ∧
    componentSchema (Dialect.newer.writeFile fieldFile) = .ok schema := by
  have proper : Dialect.newer.Proper fieldFile := ⟨by decide +kernel, by decide +kernel⟩
  obtain ⟨schema, h⟩ := exists_componentSchema_fieldFile
  have alike := componentSchema_writeFile Dialect.newer proper
  refine ⟨schema, h, ?_⟩
  rw [h] at alike
  generalize componentSchema (Dialect.newer.writeFile fieldFile) = outcome at alike
  cases alike with
  | ok same => rw [same]

/-! ### Functions out of place -/

namespace Sample

/-- A parameter that is a function itself, and returns what the parameter's type should be. -/
def functionParameter : Value :=
  node "TSFunctionType" [("name", .str "viewRef"), ("parameters", .arr []), ("typeAnnotation",
    node "TSTypeAnnotation" [("typeAnnotation", reference "ElementRef" [reference "View" []])])]

/-- A commands interface with such a function for a parameter. -/
def misplacedParameter : Value :=
  interfaceNamed "Commands" [] [property "focus" (node "TSFunctionType" [
    ("parameters", .arr [functionParameter]),
    ("typeAnnotation", node "TSTypeAnnotation" [("typeAnnotation", keyword "TSVoidKeyword")])])]

/-- A file with a function in the place of a parameter. -/
def misplacedParameterFile : Value :=
  file [interfaceNamed "Props" [] [], misplacedParameter, commandsExport "Commands" ["focus"]]
    "Field" "Props"

theorem exists_componentSchema_misplacedParameterFile :
    ∃ schema, componentSchema misplacedParameterFile = .ok schema := by
  obtain ⟨given, located, options⟩ : ∃ given, LocatesFocus misplacedParameterFile given :=
    ⟨_, by with_unfolding_all rfl, by with_unfolding_all rfl⟩
  have declared : Declarations.ofTree misplacedParameterFile =
      .ok (fieldTypes (interfaceNamed "Props" [] []) misplacedParameter) := by
    with_unfolding_all rfl
  have expanded : membersOf (fieldTypes (interfaceNamed "Props" [] []) misplacedParameter)
      (.str "Props") = .ok [] := membersOf_eq_ok.2 ⟨_, _, .ofInterface rfl rfl rfl rfl, .nil⟩
  simp only [componentSchema_eq, located, declared, ok_bind, schemaOf, expanded, options]
  exact ⟨_, by with_unfolding_all rfl⟩

theorem exists_error_misplacedParameterFile :
    ∃ f, componentSchema (Dialect.newer.writeFile misplacedParameterFile) = .error f := by
  obtain ⟨given, located, options⟩ : ∃ given,
      LocatesFocus (Dialect.newer.writeFile misplacedParameterFile) given :=
    ⟨_, by with_unfolding_all rfl, by with_unfolding_all rfl⟩
  have declared : Declarations.ofTree (Dialect.newer.writeFile misplacedParameterFile) =
      .ok (fieldTypes (Dialect.newer.write (interfaceNamed "Props" [] []))
        (Dialect.newer.write misplacedParameter)) := by with_unfolding_all rfl
  have expanded : membersOf (fieldTypes (Dialect.newer.write (interfaceNamed "Props" [] []))
      (Dialect.newer.write misplacedParameter)) (.str "Props") = .ok [] :=
    membersOf_eq_ok.2 ⟨_, _, .ofInterface rfl rfl rfl rfl, .nil⟩
  simp only [componentSchema_eq, located, declared, ok_bind, schemaOf, expanded, options]
  exact ⟨_, by with_unfolding_all rfl⟩

/-- A property whose type arguments are held by a function. -/
def misplacedHolder : Value :=
  property "values" (node "TSTypeReference" [("typeName", identifier "Array"), ("typeParameters",
    node "TSFunctionType" [("parameters", .arr [reference "Int32" []]), ("typeAnnotation",
      node "TSTypeAnnotation" [("typeAnnotation", keyword "TSVoidKeyword")])])])

/-- A file with a function in the place of type arguments. -/
def misplacedHolderFile : Value :=
  file [interfaceNamed "Props" [] [misplacedHolder]] "Field" "Props"

theorem exists_error_misplacedHolderFile :
    ∃ f, componentSchema misplacedHolderFile = .error f := by
  have located : Blueprint.locate misplacedHolderFile =
      .ok ⟨"Field", "Props", "", none, none, none⟩ := by with_unfolding_all rfl
  have declared : Declarations.ofTree misplacedHolderFile =
      .ok (table [("Props", interfaceNamed "Props" [] [misplacedHolder])]) := by
    with_unfolding_all rfl
  have expanded : membersOf (table [("Props", interfaceNamed "Props" [] [misplacedHolder])])
      (.str "Props") = .ok [misplacedHolder] :=
    membersOf_eq_ok.2 ⟨_, _, .ofInterface rfl rfl rfl rfl, .property rfl .nil⟩
  simp only [componentSchema_eq, located, declared, ok_bind, schemaOf, expanded]
  exact ⟨_, by with_unfolding_all rfl⟩

theorem exists_componentSchema_misplacedHolderFile :
    ∃ schema, componentSchema (Dialect.newer.writeFile misplacedHolderFile) = .ok schema := by
  have located : Blueprint.locate (Dialect.newer.writeFile misplacedHolderFile) =
      .ok ⟨"Field", "Props", "", none, none, none⟩ := by with_unfolding_all rfl
  have declared : Declarations.ofTree (Dialect.newer.writeFile misplacedHolderFile) =
      .ok (table
        [("Props", Dialect.newer.write (interfaceNamed "Props" [] [misplacedHolder]))]) := by
    with_unfolding_all rfl
  have expanded : membersOf
      (table [("Props", Dialect.newer.write (interfaceNamed "Props" [] [misplacedHolder]))])
      (.str "Props") = .ok [Dialect.newer.write misplacedHolder] :=
    membersOf_eq_ok.2 ⟨_, _, .ofInterface rfl rfl rfl rfl, .property rfl .nil⟩
  simp only [componentSchema_eq, located, declared, ok_bind, schemaOf, expanded]
  exact ⟨_, by with_unfolding_all rfl⟩

end Sample

open Sample in
/-- **Functions out of place do not survive.** A function in the place of a parameter loses the type
that is looked for under `typeAnnotation`, and a function in the place of type arguments gains the
list that is looked for under `params`. -/
theorem not_componentSchema_writeFile :
    ((∀ node ∈ misplacedParameterFile.parts, node.isRegular) ∧
      (∃ schema, componentSchema misplacedParameterFile = .ok schema) ∧
      ∃ f, componentSchema (Dialect.newer.writeFile misplacedParameterFile) = .error f) ∧
    (∀ node ∈ misplacedHolderFile.parts, node.isRegular) ∧
      (∃ f, componentSchema misplacedHolderFile = .error f) ∧
      ∃ schema, componentSchema (Dialect.newer.writeFile misplacedHolderFile) = .ok schema :=
  ⟨⟨by decide +kernel, exists_componentSchema_misplacedParameterFile,
      exists_error_misplacedParameterFile⟩,
    by decide +kernel, exists_error_misplacedHolderFile,
    exists_componentSchema_misplacedHolderFile⟩

end ComponentSpec
