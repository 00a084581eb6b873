import ComponentSpec.Proofs.InterfaceAlias

/-!
# Writing an interface as an alias

A file in which a type is declared as an interface, and the file in which the same statement
declares it as the alias `Readonly<R & { M }>` of its parts. The scans for the blueprint pass over
either statement, and the tables differ in this one name, or not at all if the file declares the
name once more further down. So the files have the same schema, or neither has one.

* `SameType` — an interface and the alias of the same type;
* `Rewritten` — the two files;
* `componentSchema_alias_iff` — they have the same schema;
* `not_componentSchema_alias_iff` — but not if an array type of the library is an interface of the
  file.
-/

namespace ComponentSpec

open Checked

variable {tree tree' statement statement' declaration declaration' node : Value}
  {before after : List Value} {name : String} {extended extended' members : List Value}
  {types types' : Declarations}

/-! ### Two declarations -/

/-- **An object type by its parts:** `{ M }`, or the intersection of references with `{ M }`. -/
inductive Value.Intersects (members : List Value) : List Value → Value → Prop where
  | literal {node : Value} (tag : node.hasTag "TSTypeLiteral")
      (listed : (node.get "members").elements = .ok members) : Intersects members [] node
  | intersection {references : List Value} {own node : Value}
      (tag : node.hasTag "TSIntersectionType")
      (parts : node.get "types" = .arr (references ++ [own]))
      (literal : own.hasTag "TSTypeLiteral") (listed : (own.get "members").elements = .ok members) :
      Intersects members references node

/-- **An interface and the alias of the same type.** -/
structure SameType (name : String) (declaration declaration' : Value) : Prop where
  interface : declaration.hasTag "TSInterfaceDeclaration"
  named : declaration.declarationName = .str name
  aliased : declaration'.hasTag "TSTypeAliasDeclaration"
  named' : declaration'.declarationName = .str name
  /-- `extends R { M }` against `Readonly<R & { M }>`, where the `R` are plain references. -/
  parts : ∃ extended extended' members inner,
    (declaration.get "extends").elements = .ok extended ∧
    declaration.interfaceMembers = some members ∧
    (∀ r ∈ extended, r.hasTagIn ["TSExpressionWithTypeArguments", "TSInterfaceHeritage"]) ∧
    (declaration'.get "typeAnnotation").hasTag "TSTypeReference" ∧
    (declaration'.get "typeAnnotation").referenceName.isText "Readonly" ∧
    (declaration'.get "typeAnnotation").typeArguments = [inner] ∧
    inner.Intersects members extended' ∧
    (∀ r ∈ extended', r.hasTag "TSTypeReference" ∧ r.typeArguments = []) ∧
    extended.map Value.referenceName = extended'.map Value.referenceName

theorem bare_of_typeArguments_nil (tag : node.hasTag "TSTypeReference")
    (plain : node.typeArguments = []) (inner : Value) : ¬ Wraps node inner := by
  rintro (tag' | ⟨tag', -⟩ | ⟨-, -, only⟩)
  · exact Value.not_hasTag_of_hasTag tag (by simp) tag'
  · exact Value.not_hasTag_of_hasTag tag (by simp) tag'
  · rw [plain] at only
    cases only

theorem lists_of_references {references : List Value}
    (plain : ∀ r ∈ references, r.hasTag "TSTypeReference" ∧ r.typeArguments = []) :
    Lists references references := by
  induction references with
  | nil => exact .nil
  | cons r references ih =>
    obtain ⟨⟨tag, none⟩, others⟩ := List.forall_mem_cons.1 plain
    exact .reference tag (bare_of_typeArguments_nil tag none) (ih others)

theorem Value.Intersects.lists (h : node.Intersects members extended')
    (plain : ∀ r ∈ extended', r.hasTag "TSTypeReference" ∧ r.typeArguments = []) :
    Lists [node] (extended' ++ members) := by
  cases h with
  | literal tag listed =>
    rw [List.nil_append, ← List.append_nil members]
    exact .literal tag listed .nil
  | @intersection _ own _ tag parts literal listed =>
    have own_listed : Lists [own] members := List.append_nil members ▸ .literal literal listed .nil
    refine .intersection tag (by rw [parts, elements_arr]) ?_
    rw [List.append_nil]
    exact (lists_of_references plain).append own_listed

theorem Value.Intersects.hasTagIn (h : node.Intersects members extended') :
    node.hasTagIn ["TSTypeLiteral", "TSIntersectionType"] := by
  cases h with
  | literal tag | intersection tag =>
    rw [Value.hasTagIn_of_hasTag tag]
    rfl

theorem Value.Intersects.withoutReadonly (h : node.Intersects members extended') :
    node.withoutReadonly = node := by
  cases h with
  | literal tag | intersection tag => exact withoutReadonly_of_bare (bare_of_hasTag tag (by simp))

/-- References of the same names stand for each other. -/
theorem standsFor_of_names
    (heritage : ∀ r ∈ extended,
      r.hasTagIn ["TSExpressionWithTypeArguments", "TSInterfaceHeritage"])
    (plain : ∀ r ∈ extended', r.hasTag "TSTypeReference")
    (names : extended.map Value.referenceName = extended'.map Value.referenceName) :
    List.Forall₂ Value.StandsFor extended extended' := by
  induction extended generalizing extended' with
  | nil =>
    rw [List.map_nil, eq_comm, List.map_eq_nil_iff] at names
    rw [names]
    exact .nil
  | cons r extended ih =>
    cases extended' with
    | nil => cases names
    | cons r' extended' =>
      obtain ⟨tag, heritage⟩ := List.forall_mem_cons.1 heritage
      obtain ⟨tag', plain⟩ := List.forall_mem_cons.1 plain
      obtain ⟨same, names⟩ := List.cons_eq_cons.1 names
      refine .cons (Or.inr ⟨?_, hasTagIn_of_typeReference tag', same⟩) (ih heritage plain names)
      obtain ⟨t, ht, tag⟩ := Value.hasTagIn_iff.1 tag
      exact Value.hasTagIn_iff.2 ⟨t, List.mem_cons_of_mem _ ht, tag⟩

/-- **Two tables that differ in the two declarations.** -/
theorem SameType.aliasFor (h : SameType name declaration declaration')
    (others : ∀ s, (Scalar.str name).same s = false → types.find? s = types'.find? s)
    (found : types.find? (.str name) = some declaration)
    (found' : types'.find? (.str name) = some declaration')
    (ownName : libraryType? (.str name) = none) (nonempty : name ≠ "") :
    ∃ inner listed listed', AliasFor types types' name inner listed listed' := by
  obtain ⟨extended, extended', members, inner, inherits, body, heritage, tag, wrapper, only,
    intersects, plain, names⟩ := h.parts
  have wraps : Wraps (declaration'.get "typeAnnotation") inner :=
    .wrapper tag (by rw [Value.isText_iff.1 wrapper]; rfl) only
  refine ⟨inner, extended ++ members, extended' ++ members, {
    others
    interface := ⟨declaration, found, h.interface⟩
    declares := .ofInterface found h.interface inherits body
    aliased := ⟨declaration', found', h.aliased, ?_⟩
    object := intersects.hasTagIn
    lists := intersects.lists plain
    stands := ?_
    ownName
    nonempty }⟩
  · rw [withoutReadonly_of_wraps wraps, intersects.withoutReadonly]
  · exact List.rel_append (standsFor_of_names heritage (fun r hr => (plain r hr).1) names)
      (standsFor_refl members)

/-! ### Two files -/

/-- The scans for the blueprint pass over the declaration of a type that is no state type. -/
theorem silent_of_declared? (declares : Declarations.declared? statement = some declaration)
    (tag : declaration.hasTagIn ["TSTypeAliasDeclaration", "TSInterfaceDeclaration"])
    (named : declaration.declarationName = .str name)
    (noState : marksState (.str name) = .ok false) : Silent statement := by
  have unmarked : stateName? declaration = .ok none := by
    rw [stateName?, named]
    cases Value.truthy (.str name) with
    | false => rfl
    | true => simp [noState]
  rw [Declarations.declared?] at declares
  cases exported : statement.hasTag "ExportNamedDeclaration" with
  | true =>
    simp only [exported, if_true] at declares
    obtain rfl : statement.get "declaration" = declaration := by
      split at declares <;> cases declares
      rfl
    have noVariable : (statement.get "declaration").hasTag "VariableDeclaration" = false := by
      obtain ⟨t, ht, tag⟩ := Value.hasTagIn_iff.1 tag
      rw [Value.hasTag_of_hasTag tag, decide_eq_false_iff_not]
      rintro rfl
      simp at ht
    have noDefault : statement.hasTag "ExportDefaultDeclaration" = false := by
      rw [Value.hasTag_of_hasTag exported]
      rfl
    have noInterface : statement.hasTag "TSInterfaceDeclaration" = false := by
      rw [Value.hasTag_of_hasTag exported]
      rfl
    refine ⟨by rw [componentCall?, noDefault]; rfl,
      by simp [commandsCall?, exported, noVariable], ?_⟩
    simp [stateTypeNames_eq, exportedState?, localState?, exported, unmarked, noInterface]
  | false =>
    simp only [exported, Bool.false_eq_true, if_false] at declares
    obtain rfl : statement = declaration := by
      split at declares <;> cases declares
      rfl
    have noDefault : statement.hasTag "ExportDefaultDeclaration" = false := by
      obtain ⟨t, ht, tag⟩ := Value.hasTagIn_iff.1 tag
      rw [Value.hasTag_of_hasTag tag, decide_eq_false_iff_not]
      rintro rfl
      simp at ht
    refine ⟨by rw [componentCall?, noDefault]; rfl, by simp [commandsCall?, exported], ?_⟩
    simp [stateTypeNames_eq, exportedState?, localState?, exported, unmarked]

theorem namedType?_of_declared? (declares : Declarations.declared? statement = some declaration)
    (named : declaration.declarationName = .str name) :
    namedType? statement =
      .ok (if name = "" then none else some (.str name, declaration)) := by
  rw [namedType?, declares]
  simp only [named]
  by_cases empty : name = ""
  · subst empty
    rfl
  · rw [if_neg empty, if_pos (show (Value.str name).truthy from bne_iff_ne.2 empty)]
    rfl

/-- **A file that declares a type as an interface, and the file that declares it as an alias.** The
name is one of the file's own, and that of neither the commands nor a state. -/
structure Rewritten (name : String) (tree tree' : Value) : Prop where
  replaced : ∃ before after statement statement' declaration declaration',
    tree.programBody = before ++ statement :: after ∧
    tree'.programBody = before ++ statement' :: after ∧
    Declarations.declared? statement = some declaration ∧
    Declarations.declared? statement' = some declaration' ∧
    SameType name declaration declaration'
  ownName : libraryType? (.str name) = none
  noState : marksState (.str name) = .ok false
  noCommands : ∀ blueprint, Blueprint.locate tree = .ok blueprint →
    blueprint.commandsType ≠ some name

namespace Rewritten

theorem locate_eq (h : Rewritten name tree tree') :
    Blueprint.locate tree' = Blueprint.locate tree := by
  obtain ⟨before, after, statement, statement', declaration, declaration', body, body', declares,
    declares', same⟩ := h.replaced
  have silent : Silent statement := by
    refine silent_of_declared? declares ?_ same.named h.noState
    rw [Value.hasTagIn_of_hasTag same.interface]
    rfl
  have silent' : Silent statement' := by
    refine silent_of_declared? declares' ?_ same.named' h.noState
    rw [Value.hasTagIn_of_hasTag same.aliased]
    rfl
  exact Blueprint.locate_replace body body' silent silent'

/-- **The tables of the files** differ in the one name, or not at all. -/
theorem ofTree_eq (h : Rewritten name tree tree') :
    (∃ e, Declarations.ofTree tree = .error e ∧ Declarations.ofTree tree' = .error e) ∨
      ∃ types types', Declarations.ofTree tree = .ok types ∧
        Declarations.ofTree tree' = .ok types' ∧
        ((∀ s, types.find? s = types'.find? s) ∨
          ∃ inner listed listed', AliasFor types types' name inner listed listed') := by
  obtain ⟨before, after, statement, statement', declaration, declaration', body, body', declares,
    declares', same⟩ := h.replaced
  have entry := namedType?_of_declared? declares same.named
  have entry' := namedType?_of_declared? declares' same.named'
  rw [ComponentSpec.ofTree_eq, ComponentSpec.ofTree_eq, body, body', filterMap_mapM_append,
    filterMap_mapM_append, filterMap_mapM_cons, filterMap_mapM_cons, entry, entry']
  cases List.filterMap id <$> before.mapM namedType? with
  | error e => exact Or.inl ⟨e, rfl, rfl⟩
  | ok entries =>
    cases List.filterMap id <$> after.mapM namedType? with
    | error e => exact Or.inl ⟨e, rfl, rfl⟩
    | ok entries' =>
      right
      by_cases empty : name = ""
      -- the empty name declares nothing
      · simp only [empty, if_true]
        exact ⟨_, _, rfl, rfl, Or.inl fun s => rfl⟩
      simp only [empty, if_false]
      refine ⟨_, _, rfl, rfl, ?_⟩
      have others (s : Scalar) (apart : (Scalar.str name).same s = false) :
          (Table.ofPairs (entries ++ (.str name, declaration) :: entries')).find? s =
            (Table.ofPairs (entries ++ (.str name, declaration') :: entries')).find? s := by
        rw [Table.find?_ofPairs_insert _ _ _ apart, Table.find?_ofPairs_insert _ _ _ apart]
      have found := Table.find?_ofPairs_self entries entries' (.str name) declaration
      have found' := Table.find?_ofPairs_self entries entries' (.str name) declaration'
      -- a later declaration of the name is the one that is read
      cases later : (Table.ofPairs entries').find? (.str name) with
      | some other =>
        rw [later] at found found'
        refine Or.inl fun s => ?_
        cases apart : (Scalar.str name).same s with
        | false => exact others s apart
        | true =>
          obtain rfl := Scalar.eq_str_of_same apart
          exact found.trans found'.symm
      | none =>
        rw [later] at found found'
        exact Or.inr (same.aliasFor others found found' h.ownName empty)

end Rewritten

/-- **An interface and the alias of the same type give the same schema,** or neither gives one, if
the file declares no interface under the name of an array type of the library. -/
theorem componentSchema_alias_iff (h : Rewritten name tree tree')
    (library : ∀ types, Declarations.ofTree tree = .ok types → ArraysAreLibrary types)
    (schema : ComponentSchema) :
    componentSchema tree = .ok schema ↔ componentSchema tree' = .ok schema := by
  rw [componentSchema_eq, componentSchema_eq, h.locate_eq]
  cases located : Blueprint.locate tree with
  | error e => exact Iff.rfl
  | ok blueprint =>
    rw [ok_bind, ok_bind]
    rcases h.ofTree_eq with ⟨e, failed, failed'⟩ | ⟨types, types', declared, declared', differ⟩
    · rw [failed, failed']
    · rw [declared, declared', ok_bind, ok_bind]
      rcases differ with same | ⟨inner, listed, listed', aliasFor⟩
      · have agree : Agree (fun _ => True) types types' :=
          ⟨fun s _ => same s, fun _ _ _ _ _ => trivial⟩
        rw [agree.schemaOf_eq trivial (fun _ _ => trivial) trivial]
      · exact aliasFor.schemaOf_eq_ok (library types declared) (h.noCommands blueprint located)

namespace Sample

def intersection (parts : List Value) : Value :=
  Sample.node "TSIntersectionType" [("types", .arr parts)]

/-- The alias for an interface with the given parts. -/
def aliasOfParts (name : String) (extended : List String) (members : List Value) : Value :=
  aliasNamed name (reference "Readonly"
    [intersection (extended.map (fun r => reference r []) ++ [literal members])])

theorem sameType (name : String) (extended : List String) (members : List Value) :
    SameType name (interfaceNamed name (extended.map heritage) members)
      (aliasOfParts name extended members) where
  interface := by simp [interfaceNamed]
  named := identifierName_identifier name
  aliased := by simp [aliasOfParts, aliasNamed]
  named' := identifierName_identifier name
  parts := by
    refine ⟨extended.map heritage, extended.map fun r => reference r [], members,
      intersection (extended.map (fun r => reference r []) ++ [literal members]),
      Value.elements_arr _, rfl, ?_, rfl, ?_, rfl,
      .intersection (by simp [intersection]) rfl (by simp [literal]) (Value.elements_arr _), ?_, ?_⟩
    · exact List.forall_mem_map.2 fun r _ => by rfl
    · exact Value.isText_iff.2 (referenceName_reference _ _)
    · exact List.forall_mem_map.2 fun r _ => ⟨by simp [reference], rfl⟩
    · simp [Function.comp_def]

/-- The button with its props as an alias. -/
def aliasedButtonFile : Value :=
  file [aliasOfParts "Props" ["ViewProps"] (buttonMembers.drop 1), sizeAlias] "Button" "Props"

end Sample

theorem eq_of_libraryType?_eq_array {s : Scalar} (h : libraryType? s = some .array) :
    s = .str "ReadonlyArray" ∨ s = .str "Array" := by
  unfold libraryType? at h
  split at h <;> first | exact Or.inl rfl | exact Or.inr rfl | cases h

open Sample in
theorem componentSchema_alias_iff_button :
    ∃ schema, componentSchema sizedButtonFile = .ok schema ∧
      componentSchema aliasedButtonFile = .ok schema := by
  have located : Blueprint.locate sizedButtonFile =
      .ok ⟨"Button", "Props", "", none, none, none⟩ := by with_unfolding_all rfl
  have declared : Declarations.ofTree sizedButtonFile =
      .ok (table [("Props", buttonProps), ("Size", sizeAlias)]) := by with_unfolding_all rfl
  have rewritten : Rewritten "Props" sizedButtonFile aliasedButtonFile := by
    refine ⟨⟨[], (file [sizeAlias] "Button" "Props").programBody, buttonProps,
      aliasOfParts "Props" ["ViewProps"] (buttonMembers.drop 1), buttonProps, _,
      by with_unfolding_all rfl, by with_unfolding_all rfl, by with_unfolding_all rfl,
      by with_unfolding_all rfl, sameType "Props" ["ViewProps"] (buttonMembers.drop 1)⟩, rfl,
      by with_unfolding_all rfl, ?_⟩
    intro blueprint located'
    cases located.symm.trans located'
    exact nofun
  have library : ∀ types, Declarations.ofTree sizedButtonFile = .ok types →
      ArraysAreLibrary types := by
    intro types declared' s array
    cases declared.symm.trans declared'
    rcases eq_of_libraryType?_eq_array array with rfl | rfl <;> rfl
  obtain ⟨schema, h⟩ := exists_componentSchema_sizedButtonFile
  exact ⟨schema, h, (componentSchema_alias_iff rewritten library schema).1 h⟩

/-! ### An array type of the library, declared in the file -/

namespace Sample

def arrayInterface : Value := interfaceNamed "Array" [] [property "a" (keyword "TSStringKeyword")]

/-- A list of `P`, which is an array where it is annotated and the interface where it is spread. -/
def listAlias : Value := aliasNamed "S" (reference "Array" [reference "P" []])

def listProps : Value := interfaceNamed "Props" [] [property "x" (reference "S" [])]

/-- A file with an interface `Array`, a list by this name, and some declaration of its elements. -/
def shadowedFile (declaration : Value) : Value :=
  file [arrayInterface, listAlias, declaration, listProps] "Button" "Props"

def shadowedTable (declaration : Value) : Declarations :=
  table [("Array", arrayInterface), ("S", listAlias), ("P", declaration), ("Props", listProps)]

def pInterface : Value := interfaceNamed "P" (["S"].map heritage) []

def pAlias : Value := aliasOfParts "P" ["S"] []

/-- The slot of `x`. -/
def xSlot : Slot := ⟨.str "x", true, false, none, false⟩

variable {declaration : Value}

/-- The file has a schema exactly if `x` has a type. -/
theorem componentSchema_shadowedFile
    (located : Blueprint.locate (shadowedFile declaration) =
      .ok ⟨"Button", "Props", "", none, none, none⟩)
    (declared : Declarations.ofTree (shadowedFile declaration) = .ok (shadowedTable declaration)) :
    componentSchema (shadowedFile declaration) =
      annotate (shadowedTable declaration) xSlot [] (reference "S" []) >>= fun type =>
        .ok ⟨"Button", none, [], [], [⟨.str "x", false, type⟩], [], none⟩ := by
  have expanded : membersOf (shadowedTable declaration) (.str "Props") =
      .ok [property "x" (reference "S" [])] :=
    membersOf_eq_ok.2 ⟨.keep .done, _, .ofInterface rfl rfl rfl rfl, .property rfl .nil⟩
  have inherits : inheritedOf (shadowedTable declaration) [property "x" (reference "S" [])] =
      .ok [] := by with_unfolding_all rfl
  have owns : withoutInherited (shadowedTable declaration) [property "x" (reference "S" [])] =
      .ok [property "x" (reference "S" [])] := by with_unfolding_all rfl
  have events : eventsOf (shadowedTable declaration) [property "x" (reference "S" [])] =
      .ok [] := by with_unfolding_all rfl
  have props : propsOf (shadowedTable declaration) [property "x" (reference "S" [])] =
      annotate (shadowedTable declaration) xSlot [] (reference "S" []) >>= fun type =>
        .ok [⟨.str "x", false, type⟩] := by
    have noEvent : isEvent (property "x" (reference "S" [])) = .ok false := by
      with_unfolding_all rfl
    have site : memberSite true (property "x" (reference "S" [])) =
        .ok (xSlot, reference "S" []) := by with_unfolding_all rfl
    simp only [propsOf, filterMap_mapM_cons, propOfMember?, noEvent, ok_bind, entryOf, memberEntry,
      site]
    cases annotate (shadowedTable declaration) xSlot [] (reference "S" []) <;> rfl
  simp only [componentSchema_eq, located, declared, ok_bind, schemaOf, expanded, inherits, owns,
    props, events]
  cases annotate (shadowedTable declaration) xSlot [] (reference "S" []) <;> rfl

/-- As an annotation `S` is an array, and it is on the path around the elements. -/
theorem annotate_shadowed :
    annotate (shadowedTable declaration) xSlot [] (reference "S" []) =
      annotate (shadowedTable declaration) { xSlot with element := true } [.str "S"]
        (reference "P" []) >>= fun type => .ok (.array type) := by
  have outlined : outline (shadowedTable declaration) xSlot [] (reference "S" []) =
      .ok (.array [.str "S"] (reference "P" [])) := by with_unfolding_all rfl
  have site : elementSite xSlot (reference "P" []) =
      .ok ({ xSlot with element := true }, reference "P" []) := by with_unfolding_all rfl
  rw [annotate_of_outline outlined, Outline.fill, site]
  rfl

theorem bare_reference (name : String) (arguments : List Value)
    (other : name ∉ readonlyWrappers) (inner : Value) :
    ¬ Wraps (reference name arguments) inner := by
  rintro (tag | ⟨tag, -⟩ | ⟨-, readonly, -⟩)
  · simp [reference] at tag
  · simp [reference] at tag
  · rw [referenceName_reference] at readonly
    exact other (by simpa [Value.isOneOf] using readonly)

/-- Spread, `S` is the interface. -/
theorem expandsTo_listAlias : ExpandsTo (shadowedTable declaration) (.str "S")
    (.inline (.keep .done) .done) [property "a" (keyword "TSStringKeyword")] := by
  have listed :
      Lists [reference "Array" [reference "P" []]] [reference "Array" [reference "P" []]] :=
    lists_of_reference rfl (bare_reference _ _ (by decide))
  have expands : Expands (shadowedTable declaration) [property "a" (keyword "TSStringKeyword")]
      (.keep .done) [property "a" (keyword "TSStringKeyword")] := .property rfl .nil
  have array : Declares (shadowedTable declaration) (.str "Array")
      ([] ++ [property "a" (keyword "TSStringKeyword")]) := .ofInterface rfl rfl rfl rfl
  have whole : Expands (shadowedTable declaration) [reference "Array" [reference "P" []]]
      (.inline (.keep .done) .done) ([property "a" (keyword "TSStringKeyword")] ++ []) :=
    .declared rfl (referenceName_reference _ _) array expands .nil
  exact ⟨_, .ofAlias rfl rfl listed, whole⟩

theorem exists_annotate_pInterface :
    ∃ type, annotate (shadowedTable pInterface) { xSlot with element := true } [.str "S"]
      (reference "P" []) = .ok type := by
  have spread : ExpandsTo (shadowedTable pInterface) (.str "S") _ _ := expandsTo_listAlias
  obtain ⟨members, declares, inside⟩ := spread
  have expanded : membersOf (shadowedTable pInterface) (.str "P") =
      .ok [property "a" (keyword "TSStringKeyword")] :=
    membersOf_eq_ok.2 ⟨_, _, .ofInterface rfl rfl rfl rfl,
      .declared rfl (referenceName_heritage _) declares inside .nil⟩
  have outlined : outline (shadowedTable pInterface) { xSlot with element := true } [.str "S"]
      (reference "P" []) = .ok (.object [.str "S", .str "P"]
        [property "a" (keyword "TSStringKeyword")]) := by
    rw [outline_of_bare (bare_reference _ _ (by decide))
      (aliasOf_of_no_alias (referenceName_reference _ _) rfl)]
    exact formOutline_of_outlines
      (.interface rfl (referenceName_reference _ _) rfl rfl rfl expanded) _
  rw [annotate_of_outline outlined]
  exact ⟨_, by with_unfolding_all rfl⟩

theorem exists_annotate_pAlias :
    ∃ f, annotate (shadowedTable pAlias) { xSlot with element := true } [.str "S"]
      (reference "P" []) = .error f := by
  have ahead : Ahead (shadowedTable pAlias) [.str "S"] (reference "P" [])
      (intersection [reference "S" [], literal []]) [.str "P"] :=
    ⟨by with_unfolding_all rfl, by simp [onPath]⟩
  have own : Lists [literal []] ([] ++ []) := .literal rfl rfl .nil
  have lists : Lists [intersection [reference "S" [], literal []]] [reference "S" []] :=
    .intersection rfl rfl (.reference rfl (bare_reference _ _ (by decide)) own)
  -- `S` is met inside itself
  have back : outline (shadowedTable pAlias) { xSlot with element := true } [.str "S"]
      (reference "P" []) = .error (.about (.recursiveProps (.str "S")) (reference "S" [])) := by
    rw [outline_of_ahead ahead, formOutline_of_object rfl, typeMembers_eq_ok.2 lists, ok_bind,
      flatten_cons_back rfl (referenceName_reference _ _) rfl rfl, error_bind]
  exact ⟨_, annotate_of_outline_eq_error back⟩

end Sample

open Sample in
/-- **A name of the library makes a difference.** As an annotation `S` is an array of `P`, but
spread it is the interface `Array`. So the interface `P` that extends `S` has the members of
`Array`, while the alias `P` would have to spread `S` inside itself. -/
theorem not_componentSchema_alias_iff :
    Rewritten "P" (shadowedFile pInterface) (shadowedFile pAlias) ∧
    (∃ schema, componentSchema (shadowedFile pInterface) = .ok schema) ∧
    ∃ f, componentSchema (shadowedFile pAlias) = .error f := by
  have located : Blueprint.locate (shadowedFile pInterface) =
      .ok ⟨"Button", "Props", "", none, none, none⟩ := by with_unfolding_all rfl
  have rewritten : Rewritten "P" (shadowedFile pInterface) (shadowedFile pAlias) := by
    refine ⟨⟨[arrayInterface, listAlias], (file [listProps] "Button" "Props").programBody,
      pInterface, pAlias, pInterface, pAlias, by with_unfolding_all rfl, by with_unfolding_all rfl,
      by with_unfolding_all rfl, by with_unfolding_all rfl, sameType "P" ["S"] []⟩, rfl,
      by with_unfolding_all rfl, ?_⟩
    intro blueprint located'
    cases located.symm.trans located'
    exact nofun
  obtain ⟨type, typed⟩ := exists_annotate_pInterface
  obtain ⟨f, failed⟩ := exists_annotate_pAlias
  have built := componentSchema_shadowedFile located (by with_unfolding_all rfl)
  have built' : componentSchema (shadowedFile pAlias) = _ :=
    componentSchema_shadowedFile (by with_unfolding_all rfl) (by with_unfolding_all rfl)
  rw [annotate_shadowed, typed, ok_bind, ok_bind] at built
  rw [annotate_shadowed, failed, error_bind, error_bind] at built'
  exact ⟨rewritten, ⟨_, built⟩, f, built'⟩

end ComponentSpec
