import ComponentSpec.Proofs.Lookups

/-!
# What a schema depends on

An assembly reads a file twice: for the blueprint, and for the table of declared types. After that
the file is not looked at again (`componentSchema_eq`), and the table is only asked for the names of
the blueprint and for names that stand in the declarations. So tables that agree on these give the
same schema or the same fault (`Agree.schemaOf_eq`).

* `schemaOf` — the schema of a blueprint and a table;
* `Completed`, `Assembled.completed` — the steps behind the commands and the state of a schema;
* `Agree.schemaOf_eq` — what a schema looks up.
-/

namespace ComponentSpec

open Checked

variable {tree : Value} {schema : ComponentSchema} {blueprint : Blueprint}
  {types types' : Declarations} {members own : List Value}

/-- The type whose members are the commands, as it is looked up. -/
def Blueprint.commandsName (blueprint : Blueprint) : Value :=
  .ofOption (blueprint.commandsType.map .str)

/-- **The schema of a blueprint and a table,** by the standard steps. -/
def schemaOf (blueprint : Blueprint) (types : Declarations) : Checked ComponentSchema := do
  let members ← membersOf types (.str blueprint.propsType)
  let commandOptions ← commandOptions (tableValue blueprint.commandOptions)
  let commandMembers ← commandMembers types blueprint.commandsName commandOptions
  let inherited ← inheritedOf types members
  let options ← componentOptions (tableValue blueprint.options)
  let own ← withoutInherited types members
  let props ← propsOf types own
  let events ← eventsOf types members
  let commands ← commandsOf types commandMembers
  let state ← assembleState Resolver.standard types blueprint.stateType
  return { name := blueprint.componentName, options, inherited, events, props, commands, state }

/-- **A file is read for its blueprint and its types only.** -/
theorem componentSchema_eq (tree : Value) :
    componentSchema tree = Blueprint.locate tree >>= fun blueprint =>
      Declarations.ofTree tree >>= fun types => schemaOf blueprint types := by
  simp only [componentSchema, assemble, ofExcept_eq, Resolver.standard, Value.key, ok_bind,
    schemaOf, Blueprint.commandsName]

theorem componentSchema_eq_ok : componentSchema tree = .ok schema ↔
    ∃ blueprint types, Blueprint.locate tree = .ok blueprint ∧
      Declarations.ofTree tree = .ok types ∧ schemaOf blueprint types = .ok schema := by
  rw [componentSchema_eq]
  constructor
  · intro h
    obtain ⟨blueprint, located, h⟩ := bind_eq_ok.1 h
    obtain ⟨types, declared, h⟩ := bind_eq_ok.1 h
    exact ⟨blueprint, types, located, declared, h⟩
  · rintro ⟨blueprint, types, located, declared, h⟩
    rw [located, ok_bind, declared, ok_bind, h]

/-! ### Commands and state -/

/-- **The commands and the state of a schema:** the outcomes of the steps behind them. -/
structure Completed (types : Declarations) (blueprint : Blueprint) (schema : ComponentSchema)
    (options : Option CommandOptions) (members : List Value) : Prop where
  given : commandOptions (tableValue blueprint.commandOptions) = .ok options
  checked : commandMembers types blueprint.commandsName options = .ok members
  commands : commandsOf types members = .ok schema.commands
  state : assembleState Resolver.standard types blueprint.stateType = .ok schema.state

theorem completed_of_schemaOf (h : schemaOf blueprint types = .ok schema) :
    ∃ options members, Completed types blueprint schema options members := by
  obtain ⟨propMembers, -, h⟩ := bind_eq_ok.1 h
  obtain ⟨options, hoptions, h⟩ := bind_eq_ok.1 h
  obtain ⟨members, hmembers, h⟩ := bind_eq_ok.1 h
  obtain ⟨inherited, -, h⟩ := bind_eq_ok.1 h
  obtain ⟨componentOptions, -, h⟩ := bind_eq_ok.1 h
  obtain ⟨own, -, h⟩ := bind_eq_ok.1 h
  obtain ⟨props, -, h⟩ := bind_eq_ok.1 h
  obtain ⟨events, -, h⟩ := bind_eq_ok.1 h
  obtain ⟨commands, hcommands, h⟩ := bind_eq_ok.1 h
  obtain ⟨state, hstate, h⟩ := bind_eq_ok.1 h
  cases h
  exact ⟨options, members, hoptions, hmembers, hcommands, hstate⟩

theorem Assembled.completed (assembled : Assembled tree schema blueprint types members own)
    (h : componentSchema tree = .ok schema) :
    ∃ options commandMembers, Completed types blueprint schema options commandMembers := by
  obtain ⟨blueprint', types', located, declared, h⟩ := componentSchema_eq_ok.1 h
  cases located.symm.trans assembled.located
  cases declared.symm.trans assembled.declared
  exact completed_of_schemaOf h

/-! ### Commands against their names -/

/-- The members of the commands are those of the interface that is named, if there is one. -/
theorem commandMembers_eq_ok {typeName : Value} {options : Option CommandOptions}
    (h : commandMembers types typeName options = .ok members) :
    members = [] ∨ ∃ name declaration, typeName = .scalar name ∧
      types.find? name = some declaration ∧ declaration.hasTag "TSInterfaceDeclaration" ∧
      declaration.interfaceMembers = some members := by
  rw [commandMembers] at h
  cases given : typeName.isNull with
  | true =>
    simp only [given, if_true, pure_eq, Except.ok.injEq] at h
    exact Or.inl h.symm
  | false =>
    right
    simp only [given, Bool.false_eq_true, if_false] at h
    obtain ⟨declaration, looked, h⟩ := bind_eq_ok.1 h
    obtain ⟨name, named, looked⟩ := bind_eq_ok.1 looked
    cases looked
    cases found : types.find? name with
    | none => simp [found, Value.isNull] at h
    | some declaration =>
      simp only [found, Option.getD_some] at h
      cases missing : declaration.isNull with
      | true => simp [missing] at h
      | false =>
        cases interface : declaration.hasTag "TSInterfaceDeclaration" with
        | false => simp [missing, interface] at h
        | true =>
          cases read : declaration.interfaceMembers with
          | none => simp [missing, interface, read] at h
          | some declared =>
            simp only [missing, interface, read, Bool.not_true, Bool.false_eq_true, if_false] at h
            refine ⟨name, declaration, Value.key_eq_ok.1 named, found, interface, ?_⟩
            split at h
            · cases h
            · obtain ⟨agree, -, h⟩ := bind_eq_ok.1 h
              split at h
              · cases h
                exact read
              · obtain ⟨texts, -, h⟩ := bind_eq_ok.1 h
                cases h

theorem Value.mem_parts_of_mem_interfaceMembers {declaration member : Value}
    (h : declaration.interfaceMembers = some members) (hmember : member ∈ members) :
    member ∈ declaration.parts := by
  rw [interfaceMembers] at h
  have listed : member ∈ ((declaration.get "body").get "body").listOrEmpty := by
    rw [listOrEmpty, h]
    exact hmember
  cases hobj : declaration.isObject with
  | false => rw [get_eq_null hobj] at listed; cases listed
  | true =>
    exact mem_parts_trans (mem_parts_of_mem_listOrEmpty_get listed) _ (get_mem_parts hobj "body")

/-! ### What a schema looks up -/

namespace Agree

variable {known : Scalar → Prop}

theorem mentionsOnly_of_commandMembers (h : Agree known types types') {typeName : Value}
    {options : Option CommandOptions}
    (read : commandMembers types typeName options = .ok members) :
    ∀ m ∈ members, m.MentionsOnly known := by
  intro m hm
  rcases commandMembers_eq_ok read with rfl | ⟨name, declaration, -, found, -, listed⟩
  · cases hm
  · exact (h.closed name declaration found).of_mem_parts
      (Value.mem_parts_of_mem_interfaceMembers listed hm)

theorem commandMembers_eq (h : Agree known types types') {typeName : Value}
    (hname : ∀ name, typeName = .scalar name → typeName.isNull = false → known name)
    (options : Option CommandOptions) :
    commandMembers types typeName options = commandMembers types' typeName options := by
  rw [commandMembers, commandMembers]
  cases given : typeName.isNull with
  | true => simp only [if_true]
  | false =>
    have found : types.find typeName = types'.find typeName := by
      refine bind_congr_ok fun name named => ?_
      rw [h.same name (hname name (Value.key_eq_ok.1 named) given)]
    rw [found]

theorem assembleState_eq (h : Agree known types types') {stateType : String}
    (hname : known (.str stateType)) :
    assembleState Resolver.standard types stateType =
      assembleState Resolver.standard types' stateType := by
  simp only [assembleState, Resolver.standard, Value.key, ok_bind, ← h.membersOf_eq hname]
  split
  · rfl
  · refine bind_congr_ok fun members expanded => ?_
    rw [h.stateOf_eq (h.mentionsOnly_of_membersOf expanded)]

/-- **A schema looks up nothing but the names at hand,** those of the blueprint among them. -/
theorem schemaOf_eq (h : Agree known types types') (props : known (.str blueprint.propsType))
    (commands : ∀ name, blueprint.commandsType = some name → known (.str name))
    (state : known (.str blueprint.stateType)) :
    schemaOf blueprint types = schemaOf blueprint types' := by
  have commandsKnown : ∀ name, blueprint.commandsName = .scalar name →
      blueprint.commandsName.isNull = false → known name := by
    intro name named given
    cases type : blueprint.commandsType with
    | none => rw [Blueprint.commandsName, type] at given; cases given
    | some text =>
      rw [Blueprint.commandsName, type] at named
      cases named
      exact commands text type
  rw [schemaOf, schemaOf, ← h.membersOf_eq props]
  refine bind_congr_ok fun members expanded => ?_
  have all := h.mentionsOnly_of_membersOf expanded
  refine bind_congr_ok fun options _ => ?_
  rw [← h.commandMembers_eq commandsKnown]
  refine bind_congr_ok fun commandMembers read => ?_
  have allCommands := h.mentionsOnly_of_commandMembers read
  rw [h.inheritedOf_eq all, h.withoutInherited_eq all, h.eventsOf_eq all,
    h.commandsOf_eq allCommands, h.assembleState_eq state]
  refine bind_congr_ok fun inherited _ => ?_
  refine bind_congr_ok fun componentOptions _ => ?_
  refine bind_congr_ok fun own owns => ?_
  rw [h.propsOf_eq fun m hm => all m (mem_of_filterM_eq_ok owns hm)]

end Agree

end ComponentSpec
