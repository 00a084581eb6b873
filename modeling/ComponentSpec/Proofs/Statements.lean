import ComponentSpec.Proofs.Sample
import ComponentSpec.Proofs.Stages
import ComponentSpec.Proofs.Tables

/-!
# The statements of a file

The top-level statements are read by scans: for the component call, for the commands call, for state
types, and for the declared types. A scan takes a step for each statement and keeps what is found,
so statements in another order give what is found in another order, and a statement in which nothing
is found can stand anywhere.

Of component calls, commands calls and state types there may be one each, and one item has one
order; so the blueprint does not depend on the order (`locate_eq_ok_of_perm`). The table of declared
types does, but only if a name is declared twice (`ofTree_eq_ok_of_perm`). A schema is made of the
two.

* `Value.typeName?`, `DistinctNames` — the names of the declared types;
* `componentSchema_perm` — the order of the statements does not matter;
* `Unrelated`, `componentSchema_insert_unrelated` — a statement that does not matter.
-/

namespace ComponentSpec

open Checked

variable {tree tree' statement : Value} {statements statements' before after : List Value}
  {blueprint : Blueprint} {types types' : Declarations}

/-! ### Scans -/

/-- The state type that a statement exports. -/
def exportedState? (statement : Value) : Checked (Option Value) :=
  if statement.hasTag "ExportNamedDeclaration" then stateName? (statement.get "declaration")
  else .ok none

/-- The state type that a statement is, without exporting it. -/
def localState? (statement : Value) : Checked (Option Value) :=
  if statement.hasTag "TSInterfaceDeclaration" then stateName? statement else .ok none

theorem stateTypeNames_eq (statements : List Value) :
    stateTypeNames statements = (List.filterMap id <$> statements.mapM exportedState?) >>=
      fun exported => (exported ++ ·) <$> (List.filterMap id <$> statements.mapM localState?) := by
  have exported : (fun statement : Value =>
      if statement.hasTag "ExportNamedDeclaration" then stateName? (statement.get "declaration")
      else pure none) = exportedState? := rfl
  have unexported : (fun statement : Value =>
      if statement.hasTag "TSInterfaceDeclaration" then stateName? statement else pure none) =
      localState? := rfl
  rw [stateTypeNames, exported, unexported]
  cases statements.mapM exportedState? with
  | error e => rfl
  | ok os => cases statements.mapM localState? <;> rfl

/-- The entry that a statement adds to the table of declared types. -/
def namedType? (statement : Value) : Checked (Option (Scalar × Value)) :=
  match Declarations.declared? statement with
  | none => .ok none
  | some declaration =>
    if declaration.declarationName.truthy then
      (fun name => some (name, declaration)) <$> declaration.declarationName.key
    else .ok none

theorem addStatement_eq (types : Declarations) (statement : Value) :
    types.addStatement statement = (fun o => types.merge o.toList) <$> namedType? statement := by
  rw [Declarations.addStatement, namedType?]
  cases Declarations.declared? statement with
  | none => rfl
  | some declaration =>
    simp only
    split
    · cases declaration.declarationName.key <;> rfl
    · rfl

theorem foldlM_addStatement (types : Declarations) (statements : List Value) :
    statements.foldlM Declarations.addStatement types =
      types.merge <$> (List.filterMap id <$> statements.mapM namedType?) := by
  induction statements generalizing types with
  | nil => rfl
  | cons statement statements ih =>
    rw [List.foldlM_cons, addStatement_eq, filterMap_mapM_cons]
    cases namedType? statement with
    | error e => rfl
    | ok o =>
      rw [map_ok, ok_bind, ok_bind, ih]
      cases List.filterMap id <$> statements.mapM namedType? with
      | error e => rfl
      | ok entries =>
        -- the entry of the first statement is written before the others
        rw [map_ok, map_ok, map_ok, Table.merge, Table.merge, Table.merge, List.foldl_append]

/-- **The table is written from the entries of the statements,** in order. -/
theorem ofTree_eq (tree : Value) : Declarations.ofTree tree =
    Table.ofPairs <$> (List.filterMap id <$> tree.programBody.mapM namedType?) :=
  foldlM_addStatement [] tree.programBody

/-! ### The names of the declared types -/

/-- **The name under which a statement declares a type,** if it does. -/
def Value.typeName? (statement : Value) : Option Scalar :=
  (Declarations.declared? statement).bind fun declaration =>
    declaration.declarationName.scalar?.filter Scalar.truthy

/-- **No two statements declare a type of the same name.** -/
def DistinctNames (statements : List Value) : Prop :=
  (statements.filterMap Value.typeName?).Pairwise fun a b => a.same b = false

theorem map_fst_of_namedType?_eq_ok {o : Option (Scalar × Value)}
    (h : namedType? statement = .ok o) : o.map Prod.fst = statement.typeName? := by
  rw [namedType?] at h
  rw [Value.typeName?]
  cases declares : Declarations.declared? statement with
  | none =>
    rw [declares] at h
    cases h
    rfl
  | some declaration =>
    simp only [declares] at h
    rw [Option.bind_some]
    generalize declaration.declarationName = name at h ⊢
    -- a list or an object is no key, so only nothing in its place is passed over
    cases name with
    | arr items => cases items <;> cases h; rfl
    | obj entries => cases entries <;> cases h; rfl
    | scalar name =>
      have same : (Value.scalar name).truthy = name.truthy := rfl
      rw [Value.scalar?, Option.filter_some]
      rw [same, Value.key, map_ok] at h
      by_cases truthy : name.truthy
      · rw [if_pos truthy] at h ⊢
        cases h
        rfl
      · rw [if_neg truthy] at h ⊢
        cases h
        rfl

/-- Statements that declare no name twice write a table in which no key repeats. -/
theorem distinct_of_distinctNames (distinct : DistinctNames statements)
    {entries : Table Value} (h : List.filterMap id <$> statements.mapM namedType? = .ok entries) :
    entries.Distinct := by
  have names : entries.map Prod.fst = statements.filterMap Value.typeName? := by
    obtain ⟨os, hos, rfl⟩ := map_eq_ok.1 h
    replace hos := mapM_eq_ok.1 hos
    clear * - hos
    induction hos with
    | nil => rfl
    | @cons statement o statements os ho _ ih =>
      have first := map_fst_of_namedType?_eq_ok ho
      cases o with
      | none => rw [List.filterMap_cons_none rfl, List.filterMap_cons_none first.symm, ih]
      | some entry =>
        rw [List.filterMap_cons_some (f := id) rfl, List.filterMap_cons_some first.symm,
          List.map_cons, ih]
  have keys : (entries.map Prod.fst).Pairwise fun a b => a.same b = false := by
    rw [names]
    exact distinct
  exact List.pairwise_map.1 keys

/-! ### The order of the statements -/

/-- One item has one order. -/
theorem eq_of_perm_of_length_le_one {α : Type} {xs ys : List α} (perm : xs.Perm ys)
    (one : xs.length ≤ 1) : xs = ys := by
  match xs, one with
  | [], _ => exact perm.nil_eq
  | [x], _ => exact (List.perm_singleton.1 perm.symm).symm

theorem stateTypeNames_perm (perm : statements.Perm statements') {states : List Value}
    (h : stateTypeNames statements = .ok states) :
    ∃ states', stateTypeNames statements' = .ok states' ∧ states.Perm states' := by
  rw [stateTypeNames_eq] at h
  obtain ⟨exported, hexported, h⟩ := bind_eq_ok.1 h
  obtain ⟨unexported, hunexported, rfl⟩ := map_eq_ok.1 h
  obtain ⟨exported', hexported', perm₁⟩ := filterMap_mapM_perm perm hexported
  obtain ⟨unexported', hunexported', perm₂⟩ := filterMap_mapM_perm perm hunexported
  refine ⟨exported' ++ unexported', ?_, perm₁.append perm₂⟩
  rw [stateTypeNames_eq, hexported', ok_bind, hunexported', map_ok]

namespace Blueprint

/-- **What is found in a file that has a blueprint:** one component call, and at most one of the
others. -/
theorem locate_eq_ok : locate tree = .ok blueprint ↔ ∃ component commands states,
    tree.programBody.filterMap componentCall? = [component] ∧
      commandsAmong tree.programBody = .ok commands ∧ commands.length ≤ 1 ∧
      stateTypeNames tree.programBody = .ok states ∧ states.length ≤ 1 ∧
      ofParts component (states.head?.getD (.str "")) commands.head? = .ok blueprint := by
  rw [locate]
  match components : tree.programBody.filterMap componentCall? with
  | [] | _ :: _ :: _ => simp
  | [component] =>
    constructor
    · intro h
      obtain ⟨commands, hcommands, h⟩ := bind_eq_ok.1 h
      split at h
      · cases h
      obtain ⟨states, hstates, h⟩ := bind_eq_ok.1 h
      split at h
      · cases h
      exact ⟨component, commands, states, rfl, hcommands, by omega, hstates, by omega, h⟩
    · rintro ⟨component, commands, states, only, hcommands, oneCommands, hstates, oneState, parts⟩
      cases only
      simp only
      rw [hcommands, ok_bind, if_neg (by omega), hstates, ok_bind, if_neg (by omega)]
      exact parts

theorem locate_eq_ok_of_perm (perm : tree.programBody.Perm tree'.programBody)
    (h : locate tree = .ok blueprint) : locate tree' = .ok blueprint := by
  obtain ⟨component, commands, states, hcomponent, hcommands, oneCommands, hstates, oneState,
    parts⟩ := locate_eq_ok.1 h
  obtain ⟨commands', hcommands', perm₁⟩ := filterMap_mapM_perm perm hcommands
  obtain ⟨states', hstates', perm₂⟩ := stateTypeNames_perm perm hstates
  -- of each there is one at most, so the lists are the same
  cases eq_of_perm_of_length_le_one perm₁ oneCommands
  cases eq_of_perm_of_length_le_one perm₂ oneState
  refine locate_eq_ok.2 ⟨component, commands, states, ?_, hcommands', oneCommands, hstates',
    oneState, parts⟩
  have perm₃ := perm.filterMap componentCall?
  rw [hcomponent] at perm₃
  exact List.singleton_perm.1 perm₃ |>.symm

end Blueprint

theorem DistinctNames.of_perm (distinct : DistinctNames statements)
    (perm : statements.Perm statements') : DistinctNames statements' := by
  refine List.Pairwise.perm distinct (perm.filterMap _) fun {a b} apart => ?_
  rwa [Scalar.same_comm]

/-- Where no name is declared twice, what is read of a name does not depend on the order. -/
theorem ofTree_eq_ok_of_perm (perm : tree.programBody.Perm tree'.programBody)
    (distinct : DistinctNames tree.programBody) (h : Declarations.ofTree tree = .ok types) :
    ∃ types', Declarations.ofTree tree' = .ok types' ∧
      ∀ name, types.find? name = types'.find? name := by
  rw [ofTree_eq] at h
  obtain ⟨entries, hentries, rfl⟩ := map_eq_ok.1 h
  obtain ⟨entries', hentries', perm'⟩ := filterMap_mapM_perm perm hentries
  refine ⟨Table.ofPairs entries', by rw [ofTree_eq, hentries', map_ok], fun name => ?_⟩
  have keys : Table.Distinct entries.reverse :=
    (distinct_of_distinctNames distinct hentries).of_perm (List.reverse_perm entries).symm
  have reversed : entries.reverse.Perm entries'.reverse :=
    ((List.reverse_perm entries).trans perm').trans (List.reverse_perm entries').symm
  rw [Table.find?_ofPairs, Table.find?_ofPairs, Table.find?_perm keys reversed]

theorem componentSchema_eq_ok_of_perm (perm : tree.programBody.Perm tree'.programBody)
    (distinct : DistinctNames tree.programBody) {schema : ComponentSchema}
    (h : componentSchema tree = .ok schema) : componentSchema tree' = .ok schema := by
  obtain ⟨blueprint, types, located, declared, assembled⟩ := componentSchema_eq_ok.1 h
  obtain ⟨types', declared', same⟩ := ofTree_eq_ok_of_perm perm distinct declared
  have agree : Agree (fun _ => True) types types' :=
    ⟨fun name _ => same name, fun _ _ _ _ _ => trivial⟩
  refine componentSchema_eq_ok.2
    ⟨blueprint, types', Blueprint.locate_eq_ok_of_perm perm located, declared', ?_⟩
  rw [← agree.schemaOf_eq trivial (fun _ _ => trivial) trivial]
  exact assembled

/-- **The order of the statements does not matter** where no two of them declare a type of the same
name: in any order there is the same schema, or none, and the same blueprint. -/
theorem componentSchema_perm (perm : tree.programBody.Perm tree'.programBody)
    (distinct : DistinctNames tree.programBody) :
    (∀ schema, componentSchema tree = .ok schema ↔ componentSchema tree' = .ok schema) ∧
      ∀ blueprint, Blueprint.locate tree = .ok blueprint ↔
        Blueprint.locate tree' = .ok blueprint := by
  have distinct' := distinct.of_perm perm
  refine ⟨fun schema => ⟨?_, ?_⟩, fun blueprint => ⟨?_, ?_⟩⟩
  · exact componentSchema_eq_ok_of_perm perm distinct
  · exact componentSchema_eq_ok_of_perm perm.symm distinct'
  · exact Blueprint.locate_eq_ok_of_perm perm
  · exact Blueprint.locate_eq_ok_of_perm perm.symm

/-- A program with the given statements. -/
def Sample.program (statements : List Value) : Value := node "Program" [("body", .arr statements)]

@[simp] theorem Sample.programBody_program (statements : List Value) :
    (program statements).programBody = statements := by
  rw [Value.programBody, program, if_neg (by simp)]
  rfl

def Sample.sizeAlias : Value := aliasNamed "Size" (reference "Int32" [])

/-- The file of a button, with the declaration of a size that it does not use. -/
def Sample.sizedButtonFile : Value := file [buttonProps, sizeAlias] "Button" "Props"

open Sample in
theorem Sample.exists_componentSchema_sizedButtonFile :
    ∃ schema, componentSchema sizedButtonFile = .ok schema := by
  have located : Blueprint.locate sizedButtonFile =
      .ok ⟨"Button", "Props", "", none, none, none⟩ := by with_unfolding_all rfl
  have declared : Declarations.ofTree sizedButtonFile =
      .ok (table [("Props", buttonProps), ("Size", sizeAlias)]) := by with_unfolding_all rfl
  have expands : Expands (table [("Props", buttonProps), ("Size", sizeAlias)]) buttonMembers
      (.keep (.keep (.keep .done))) buttonMembers :=
    .foreign rfl (referenceName_heritage _) rfl (.property rfl (.property rfl .nil))
  have expanded : membersOf (table [("Props", buttonProps), ("Size", sizeAlias)]) (.str "Props") =
      .ok buttonMembers := membersOf_eq_ok.2 ⟨_, _, .ofInterface rfl rfl rfl rfl, expands⟩
  simp only [componentSchema_eq, located, declared, ok_bind, schemaOf, expanded]
  exact ⟨_, by with_unfolding_all rfl⟩

open Sample in
theorem componentSchema_perm_button : ∃ schema, componentSchema sizedButtonFile = .ok schema ∧
    componentSchema (program sizedButtonFile.programBody.reverse) = .ok schema := by
  have names : sizedButtonFile.programBody.filterMap Value.typeName? =
      [.str "Props", .str "Size"] := by with_unfolding_all rfl
  have distinct : DistinctNames sizedButtonFile.programBody := by
    rw [DistinctNames, names]
    simp
  have perm : sizedButtonFile.programBody.Perm
      (program sizedButtonFile.programBody.reverse).programBody := by
    rw [programBody_program]
    exact (List.reverse_perm _).symm
  obtain ⟨schema, h⟩ := exists_componentSchema_sizedButtonFile
  exact ⟨schema, h, ((componentSchema_perm perm distinct).1 schema).1 h⟩

/-! ### A statement more -/

/-- **A statement that has nothing to do with a component:** in it no scan for the blueprint finds
anything, and if it declares a type, then one whose name is none of the blueprint and is mentioned
nowhere in the file. -/
structure Unrelated (tree statement : Value) : Prop where
  noComponent : componentCall? statement = none
  noCommands : commandsCall? statement = .ok none
  noState : stateTypeNames [statement] = .ok []
  declares : ∀ declaration, Declarations.declared? statement = some declaration →
    ∃ name, declaration.declarationName = .str name ∧ ¬ tree.Mentions (.str name) ∧
      ∀ blueprint, Blueprint.locate tree = .ok blueprint → name ≠ blueprint.propsType ∧
        blueprint.commandsType ≠ some name ∧ (blueprint.stateType = "" ∨ name ≠ blueprint.stateType)

/-- A statement in which no scan for the blueprint finds anything. -/
structure Silent (statement : Value) : Prop where
  noComponent : componentCall? statement = none
  noCommands : commandsCall? statement = .ok none
  noState : stateTypeNames [statement] = .ok []

namespace Silent

theorem components_eq (h : Silent statement) (before after : List Value) :
    (before ++ statement :: after).filterMap componentCall? =
      (before ++ after).filterMap componentCall? := by
  rw [List.filterMap_append, List.filterMap_cons_none h.noComponent, List.filterMap_append]

theorem commandsAmong_eq (h : Silent statement) (before after : List Value) :
    commandsAmong (before ++ statement :: after) = commandsAmong (before ++ after) := by
  refine filterMap_mapM_insert before after ?_
  rw [h.noCommands, ok_bind]
  rfl

theorem stateTypeNames_eq (h : Silent statement) (before after : List Value) :
    stateTypeNames (before ++ statement :: after) = stateTypeNames (before ++ after) := by
  have none := h.noState
  rw [ComponentSpec.stateTypeNames_eq, filterMap_mapM_cons, filterMap_mapM_cons] at none
  cases exports : exportedState? statement with
  | error e => rw [exports] at none; cases none
  | ok exported =>
    cases isLocal : localState? statement with
    | error e => rw [exports, isLocal] at none; cases exported <;> cases none
    | ok unexported =>
      rw [exports, isLocal] at none
      -- neither scan finds anything
      cases exported <;> cases unexported <;> cases none
      rw [ComponentSpec.stateTypeNames_eq, ComponentSpec.stateTypeNames_eq,
        filterMap_mapM_insert before after exports, filterMap_mapM_insert before after isLocal]

end Silent

theorem Unrelated.silent (h : Unrelated tree statement) : Silent statement :=
  ⟨h.noComponent, h.noCommands, h.noState⟩

theorem Blueprint.locate_insert (body : tree.programBody = before ++ after)
    (body' : tree'.programBody = before ++ statement :: after) (h : Silent statement) :
    Blueprint.locate tree' = Blueprint.locate tree := by
  rw [Blueprint.locate, Blueprint.locate, body, body', h.components_eq, h.commandsAmong_eq,
    h.stateTypeNames_eq]

/-- One such statement in the place of another. -/
theorem Blueprint.locate_replace {statement' : Value}
    (body : tree.programBody = before ++ statement :: after)
    (body' : tree'.programBody = before ++ statement' :: after) (h : Silent statement)
    (h' : Silent statement') : Blueprint.locate tree' = Blueprint.locate tree := by
  rw [Blueprint.locate, Blueprint.locate, body, body', h.components_eq, h.commandsAmong_eq,
    h.stateTypeNames_eq, h'.components_eq, h'.commandsAmong_eq, h'.stateTypeNames_eq]

/-! ### Declarations are parts of the file -/

theorem Value.mem_parts_of_mem_programBody (h : statement ∈ tree.programBody) :
    statement ∈ tree.parts := by
  rw [programBody] at h
  cases file : tree.hasTag "File" with
  | false =>
    rw [file] at h
    exact mem_parts_of_mem_listOrEmpty_get h
  | true =>
    rw [file] at h
    exact mem_parts_trans (mem_parts_of_mem_listOrEmpty_get h) _ (get_tag_mem_parts file "program")

theorem mem_parts_of_declared? {declaration : Value}
    (h : Declarations.declared? statement = some declaration) : declaration ∈ statement.parts := by
  rw [Declarations.declared?] at h
  cases exported : statement.hasTag "ExportNamedDeclaration" with
  | false =>
    simp only [exported, Bool.false_eq_true, if_false] at h
    split at h <;> cases h
    exact Value.mem_parts_self statement
  | true =>
    simp only [exported, if_true] at h
    split at h <;> cases h
    exact Value.get_tag_mem_parts exported "declaration"

theorem declared?_of_namedType?_eq_ok {entry : Scalar × Value}
    (h : namedType? statement = .ok (some entry)) :
    Declarations.declared? statement = some entry.2 ∧
      entry.2.declarationName = .scalar entry.1 := by
  rw [namedType?] at h
  cases declares : Declarations.declared? statement with
  | none => rw [declares] at h; cases h
  | some declaration =>
    simp only [declares] at h
    split at h
    · obtain ⟨name, named, same⟩ := map_eq_ok.1 h
      cases same
      exact ⟨rfl, Value.key_eq_ok.1 named⟩
    · cases h

theorem mem_parts_of_ofTree (h : Declarations.ofTree tree = .ok types) {name : Scalar}
    {declaration : Value} (found : types.find? name = some declaration) :
    declaration ∈ tree.parts := by
  rw [ofTree_eq] at h
  obtain ⟨entries, hentries, rfl⟩ := map_eq_ok.1 h
  obtain ⟨os, hos, rfl⟩ := map_eq_ok.1 hentries
  obtain ⟨key, written, -⟩ := Table.exists_mem_of_find?_ofPairs found
  obtain ⟨o, ho, same⟩ := List.mem_filterMap.1 written
  cases same
  obtain ⟨statement, hstatement, entry⟩ := exists_mem_of_mem_mapM hos ho
  exact Value.mem_parts_trans (mem_parts_of_declared? (declared?_of_namedType?_eq_ok entry).1) _
    (Value.mem_parts_of_mem_programBody hstatement)

/-! ### What the other declarations are read as -/

/-- A type more is read under its own name only. -/
theorem ofTree_insert (body : tree.programBody = before ++ after)
    (body' : tree'.programBody = before ++ statement :: after) {name : Scalar} {declaration : Value}
    (entry : namedType? statement = .ok (some (name, declaration))) :
    (∃ e, Declarations.ofTree tree = .error e ∧ Declarations.ofTree tree' = .error e) ∨
      ∃ types types', Declarations.ofTree tree = .ok types ∧
        Declarations.ofTree tree' = .ok types' ∧
        ∀ other, name.same other = false → types.find? other = types'.find? other := by
  rw [ofTree_eq, ofTree_eq, body, body', filterMap_mapM_append, filterMap_mapM_append,
    filterMap_mapM_cons, entry]
  cases List.filterMap id <$> before.mapM namedType? with
  | error e => exact Or.inl ⟨e, rfl, rfl⟩
  | ok entries =>
    cases List.filterMap id <$> after.mapM namedType? with
    | error e => exact Or.inl ⟨e, rfl, rfl⟩
    | ok entries' =>
      refine Or.inr ⟨_, _, rfl, rfl, fun other apart => ?_⟩
      exact (Table.find?_ofPairs_insert entries entries' declaration apart).symm

/-- An unrelated statement adds nothing to the table, or a name that is not looked up. -/
theorem Unrelated.namedType?_eq_ok (h : Unrelated tree statement) :
    namedType? statement = .ok none ∨ ∃ name declaration,
      namedType? statement = .ok (some (.str name, declaration)) ∧ ¬ tree.Mentions (.str name) ∧
      ∀ blueprint, Blueprint.locate tree = .ok blueprint → name ≠ blueprint.propsType ∧
        blueprint.commandsType ≠ some name ∧ name ≠ blueprint.stateType := by
  rw [namedType?]
  cases declares : Declarations.declared? statement with
  | none => exact Or.inl rfl
  | some declaration =>
    obtain ⟨name, named, unmentioned, unused⟩ := h.declares declaration declares
    simp only [named]
    by_cases empty : name = ""
    -- the empty name declares nothing
    · subst empty
      exact Or.inl rfl
    · have truthy : (Value.str name).truthy := bne_iff_ne.2 empty
      rw [if_pos truthy]
      refine Or.inr ⟨name, declaration, rfl, unmentioned, fun blueprint located => ?_⟩
      obtain ⟨props, commands, state⟩ := unused blueprint located
      refine ⟨props, commands, state.elim (fun none => ?_) id⟩
      rw [none]
      exact empty

/-- **An unrelated statement does not interfere,** wherever it stands: the schema is the same, and
so is the fault if there is none. -/
theorem componentSchema_insert_unrelated (body : tree.programBody = before ++ after)
    (body' : tree'.programBody = before ++ statement :: after) (h : Unrelated tree statement) :
    componentSchema tree' = componentSchema tree := by
  rw [componentSchema_eq, componentSchema_eq, Blueprint.locate_insert body body' h.silent]
  refine bind_congr_ok fun blueprint located => ?_
  rcases h.namedType?_eq_ok with silent | ⟨name, declaration, entry, unmentioned, unused⟩
  · rw [ofTree_eq, ofTree_eq, body, body', filterMap_mapM_insert before after silent]
  rcases ofTree_insert body body' entry with ⟨e, failed, failed'⟩ | ⟨types, types', declared,
    declared', same⟩
  · rw [failed, failed', error_bind]
  -- what is looked up are names that the file mentions, and those of the blueprint
  have agree : Agree (fun s => (Scalar.str name).same s = false) types types' := by
    refine ⟨same, fun key found hfound s mentioned => ?_⟩
    by_contra same
    obtain rfl := Scalar.eq_str_of_same (by simpa using same)
    exact unmentioned (mentioned.of_mem_parts (mem_parts_of_ofTree declared hfound))
  obtain ⟨props, commands, state⟩ := unused blueprint located
  rw [declared, declared', ok_bind, ok_bind]
  refine (agree.schemaOf_eq ?_ (fun other given => ?_) ?_).symm
  · simpa using props
  · rw [Scalar.same_str, decide_eq_false_iff_not]
    rintro rfl
    exact commands given
  · simpa using state

open Sample in
theorem componentSchema_insert_unrelated_size :
    componentSchema sizedButtonFile = componentSchema (file [buttonProps] "Button" "Props") := by
  have body : (file [buttonProps] "Button" "Props").programBody =
      [buttonProps] ++ (file [] "Button" "Props").programBody := by with_unfolding_all rfl
  have body' : sizedButtonFile.programBody =
      [buttonProps] ++ sizeAlias :: (file [] "Button" "Props").programBody := by
    with_unfolding_all rfl
  have located : Blueprint.locate (file [buttonProps] "Button" "Props") =
      .ok ⟨"Button", "Props", "", none, none, none⟩ := by with_unfolding_all rfl
  refine componentSchema_insert_unrelated body body'
    ⟨by with_unfolding_all rfl, by with_unfolding_all rfl, by with_unfolding_all rfl, ?_⟩
  intro declaration declares
  have declares' : Declarations.declared? sizeAlias = some sizeAlias := by with_unfolding_all rfl
  cases declares.symm.trans declares'
  refine ⟨"Size", by with_unfolding_all rfl, ?_, fun blueprint located' => ?_⟩
  · simp [file, mentions_node, Value.referenceTags, buttonProps, buttonMembers, keyword]
  · cases located.symm.trans located'
    simp

end ComponentSpec
