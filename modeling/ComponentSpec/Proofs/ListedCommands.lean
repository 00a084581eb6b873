import ComponentSpec.Proofs.Building
import ComponentSpec.Proofs.Options
import ComponentSpec.Proofs.Searching

/-!
# Listing the commands

Next to the type of the commands a commands call takes an object literal, which lists their names
under one key. A file whose call has no such list has no schema, whatever else is in the object
literal and whatever commands there are.

The list makes its way through two tables. Its property is one among others, the last of which is
read for each key; and the names stand under one of two keys, of which one is preferred
(`CommandOptions.ofFields`). A value that is no list counts as an empty one, so that it only does
where there are no commands to list.

* `CallsCommands` — files with a commands call;
* `LacksKey`, `LastUnder` — what an object literal has under a key;
* `supported_of_lacks`, `supported_of_last` — what is listed;
* `commands_have_to_be_listed` — without a list there is no schema.
-/

namespace ComponentSpec

open Checked

variable {tree expression options declaration property value : Value} {name key : String}
  {types : Declarations} {members : List Value} {schema : ComponentSchema}
  {gives : Value → Value → Prop} {pairs : Table Value} {given : CommandOptions}

/-! ### What an object literal has under a key -/

/-- **No property of an object literal has the key.** -/
def LacksKey (expression : Value) (key : String) : Prop :=
  ∀ property ∈ (expression.get "properties").listOrEmpty, property.keyName ≠ .str key

/-- **The value of the last property** of an object literal that has the key. -/
def LastUnder (expression : Value) (key : String) (value : Value) : Prop :=
  ∃ before property after, expression.get "properties" = .arr (before ++ property :: after) ∧
    property.keyName = .str key ∧ property.get "value" = value ∧
      ∀ p ∈ after, p.keyName ≠ .str key

/-- Properties that do not have a key give nothing under it. -/
theorem not_has_of_forall₂ {properties : List Value}
    (give : List.Forall₂ (GivesPair gives) properties pairs)
    (others : ∀ p ∈ properties, p.keyName ≠ .str key) : Table.has pairs (.str key) = false := by
  rw [Table.has, List.any_eq_false]
  intro pair hpair same
  obtain ⟨property, mem, given⟩ := exists_mem_of_forall₂ give.flip hpair
  exact others property mem (given.key.trans (congrArg Value.scalar (Scalar.same_text.1 same)))

/-- What gives a pair is listed. -/
theorem GivesPairs.mem_listOrEmpty {items : List Value}
    (run : (expression.get "properties").elements = .ok items) {pair : Scalar × Value}
    (mem : property ∈ items) (h : GivesPair gives property pair) :
    property ∈ (expression.get "properties").listOrEmpty := by
  have object : property.isObject := Value.isObject_of_hasTagIn h.kind
  rw [Value.eq_arr_of_mem_elements run mem (Value.mem_parts_self property) object]
  exact mem

/-- **Nothing is read under a key** that no property has. -/
theorem GivesPairs.find?_eq_none (h : GivesPairs gives expression pairs)
    (lacks : LacksKey expression key) : (Table.ofPairs pairs).find? (.str key) = none := by
  obtain ⟨items, run, give⟩ := h.properties
  have others : ∀ p ∈ items, p.keyName ≠ .str key := by
    intro p hp
    obtain ⟨pair, -, given⟩ := exists_mem_of_forall₂ give hp
    exact lacks p (mem_listOrEmpty run hp given)
  refine Table.find?_eq_none ?_
  rw [Table.has_ofPairs, not_has_of_forall₂ give others]

/-- **What the last property gives is read** under its key. -/
theorem GivesPairs.find?_eq_some (h : GivesPairs gives expression pairs)
    (last : LastUnder expression key value) :
    ∃ v, gives value v ∧ (Table.ofPairs pairs).find? (.str key) = some v := by
  obtain ⟨before, property, after, listed, keyed, rfl, others⟩ := last
  obtain ⟨items, run, give⟩ := h.properties
  rw [listed, Value.elements_arr] at run
  cases run
  -- the pairs before, the pair of the property itself, and the pairs after
  have tail := List.forall₂_drop_append pairs before (property :: after) give.flip
  obtain ⟨⟨k, v⟩, pairs₂, given, give₂, rest⟩ := List.forall₂_cons_right_iff.1 tail
  have split : pairs = pairs.take before.length ++ (k, v) :: pairs₂ := by
    rw [← rest, List.take_append_drop]
  have named : k = .str key := by
    have same := given.key.symm.trans keyed
    cases same
    rfl
  subst named
  rw [split]
  exact ⟨v, given.value, Table.find?_ofPairs_last _ _ v (not_has_of_forall₂ give₂.flip others)⟩

/-! ### What is listed -/

theorem Table.find?_map_text {α : Type} (fields : List (String × α)) (key : String) :
    find? (fields.map fun f => (.str f.1, f.2)) (.str key) = fields.lookup key := by
  induction fields with
  | nil => rfl
  | cons f fields ih =>
    obtain ⟨name, v⟩ := f
    rw [List.map_cons, find?_cons, ih, List.lookup_cons, Scalar.same_str]
    by_cases here : name = key
    · simp [here]
    · have apart : (key == name) = false := beq_eq_false_iff_ne.2 fun same => here same.symm
      simp [here, apart]

/-- The fields of a table whose keys are texts. -/
theorem eq_map_of_textKeys {t : Table Value} {fields : List (String × Value)}
    (h : t.mapM (fun e : Scalar × Value => do return (← textKey e.1, e.2)) = .ok fields) :
    t = fields.map fun f => (.str f.1, f.2) := by
  induction mapM_eq_ok.1 h with
  | nil => rfl
  | @cons e f t fields first rest ih =>
    obtain ⟨k, v⟩ := e
    obtain ⟨s, keyed, first⟩ := bind_eq_ok.1 first
    cases first
    cases k with
    | str =>
      cases keyed
      rw [List.map_cons, ← ih (mapM_eq_ok.2 rest)]
    | null | bool | int | float => cases keyed

/-- **The options of a commands call** are made of the fields that its object literal gives. -/
theorem exists_fields_of_commandOptions (object : expression.hasTag "ObjectExpression")
    {found : Option CommandOptions} (h : commandOptions expression = .ok found) :
    ∃ pairs fields given, GivesPairs (fun value v => commandOptionValue value = .ok v) expression
        pairs ∧ Table.ofPairs pairs = fields.map (fun f => (.str f.1, f.2)) ∧
      CommandOptions.ofFields fields = .ok given ∧ found = some given := by
  have present : expression.isNull = false := Value.isNull_of_hasTag object
  rw [commandOptions] at h
  simp only [present, Bool.false_eq_true, if_false] at h
  obtain ⟨properties, read, h⟩ := bind_eq_ok.1 h
  obtain ⟨t, collected, h⟩ := bind_eq_ok.1 h
  obtain ⟨fields, texts, h⟩ := bind_eq_ok.1 h
  obtain ⟨given, made, h⟩ := bind_eq_ok.1 h
  cases h
  have table := bind_eq_ok.2 ⟨properties, read, collected⟩
  obtain ⟨pairs, give, collects⟩ := (objectTable_eq_ok fun _ _ => Iff.rfl).1 table
  cases Table.collects_iff.1 collects
  exact ⟨pairs, fields, given, give, eq_map_of_textKeys texts, made, rfl⟩

/-- **Nothing is listed** under keys that no property has. -/
theorem supported_of_lacks (object : expression.hasTag "ObjectExpression")
    (lacks : LacksKey expression "supportedCommands")
    (lacks' : LacksKey expression "supported_commands")
    (h : commandOptions expression = .ok (some given)) : given.supported = none := by
  obtain ⟨pairs, fields, given, give, table, made, same⟩ := exists_fields_of_commandOptions object h
  cases same
  have unlisted : fields.lookup "supportedCommands" = none := by
    rw [← Table.find?_map_text, ← table, give.find?_eq_none lacks]
  have unlisted' : fields.lookup "supported_commands" = none := by
    rw [← Table.find?_map_text, ← table, give.find?_eq_none lacks']
  rw [CommandOptions.ofFields] at made
  simp only [unlisted, unlisted', Option.isSome_none, Bool.false_eq_true, if_false] at made
  split at made <;> cases made
  rfl

/-- **What is no list counts as an empty one.** -/
theorem supported_of_last (object : expression.hasTag "ObjectExpression")
    (last : LastUnder expression "supportedCommands" value)
    (noList : ¬ value.hasTag "ArrayExpression")
    (h : commandOptions expression = .ok (some given)) : given.supported = some [] := by
  obtain ⟨pairs, fields, given, give, table, made, same⟩ := exists_fields_of_commandOptions object h
  cases same
  obtain ⟨v, read, found⟩ := give.find?_eq_some last
  have empty : v = .arr [] := by
    rw [commandOptionValue, if_pos (by simp [noList])] at read
    cases read
    rfl
  have listed : fields.lookup "supportedCommands" = some (.arr []) := by
    rw [← Table.find?_map_text, ← table, found, empty]
  rw [CommandOptions.ofFields] at made
  simp only [listed, Option.isSome_some, if_true] at made
  split at made <;> cases made
  rfl

/-! ### Files with a commands call -/

/-- **A file with a commands call,** with the type that it names and the object literal it is
given. -/
structure CallsCommands (tree : Value) (name : String) (options : Value) : Prop where
  call : ∃ statement ∈ tree.programBody, ∃ call, ExportsCommands statement call ∧
    call.callArguments = [options] ∧ ∃ type, call.typeArguments = [type] ∧
      type.hasTag "TSTypeReference" ∧ (type.get "typeName").identifierName = .str name
  object : options.hasTag "ObjectExpression"

/-- The blueprint of the file has the type and the options of its commands call, since there is no
other. -/
theorem CallsCommands.blueprint_eq (h : CallsCommands tree name options) {blueprint : Blueprint}
    (located : Blueprint.locate tree = .ok blueprint) :
    blueprint.commandsName = .str name ∧ tableValue blueprint.commandOptions = options := by
  obtain ⟨component, commands, states, -, searched, one, -, -, parts⟩ :=
    Blueprint.locate_eq_ok.1 located
  obtain ⟨statement, mem, call, exported, arguments, type, types, reference, named⟩ := h.call
  obtain ⟨entries, rfl⟩ := Value.isObject_iff.1 (Value.isObject_of_hasTag h.object)
  have read : commandsOfCall call = .ok (.str name, .obj entries) := by
    rw [commandsOfCall, arguments, types, ← named]
    simp only [reference, if_true, pure_eq]
  -- what is found in the statement is among all that is found, which is one call at most
  obtain ⟨found, steps, kept⟩ := map_eq_ok.1 searched
  obtain ⟨o, ho, step⟩ := exists_mem_of_forall₂ (mapM_eq_ok.1 steps) mem
  simp only [commandsCall?_eq_some.2 exported, ok_bind, read, pure_eq, Except.ok.injEq] at step
  subst step
  have among : (Value.str name, Value.obj entries) ∈ commands := by
    rw [← kept]
    exact List.mem_filterMap.2 ⟨_, ho, rfl⟩
  have only : commands = [(.str name, .obj entries)] := by
    match commands, one, among with
    | [found], _, among => rw [List.mem_singleton.1 among]
  rw [only] at parts
  simp only [Blueprint.ofParts, List.head?_cons, Option.map_some, Value.ofOption,
    Blueprint.textOrNull, Blueprint.tableOrNull] at parts
  split at parts
  · cases parts
    exact ⟨rfl, rfl⟩
  · cases parts

/-! ### Commands that have to be listed -/

/-- **Members of commands come out against a list.** They are those of an interface, and their names
agree with the list. -/
theorem exists_listed_of_commandMembers {found : Option CommandOptions}
    (h : commandMembers types (.str name) found = .ok members) :
    ∃ declaration listed, types.find? (.str name) = some declaration ∧
      declaration.interfaceMembers = some members ∧
        found.bind CommandOptions.supported = some listed ∧
          namesAgree listed ((members.map Value.keyName).filter Value.truthy) = .ok true := by
  have named : (Value.str name).isNull = false := rfl
  rw [commandMembers] at h
  simp only [named, Bool.false_eq_true, if_false] at h
  obtain ⟨declaration, looked, h⟩ := bind_eq_ok.1 h
  split at h
  · cases h
  next present =>
  split at h
  · cases h
  split at h
  · cases h
  next read =>
  split at h
  · cases h
  next listed supported =>
  obtain ⟨agree, names, h⟩ := bind_eq_ok.1 h
  split at h
  · next same =>
    cases h
    subst same
    refine ⟨declaration, listed, ?_, read, supported, names⟩
    rw [Declarations.find, Value.key, ok_bind] at looked
    cases declared : types.find? (.str name) with
    | some found =>
      rw [declared] at looked
      cases looked
      rfl
    | none =>
      rw [declared] at looked
      cases looked
      exact absurd rfl present
  · obtain ⟨texts, -, h⟩ := bind_eq_ok.1 h
    cases h

/-- Nothing lists a command that has a name. -/
theorem not_namesAgree_nil {member : Value} (mem : member ∈ members)
    (named : member.keyName.truthy) :
    namesAgree [] ((members.map Value.keyName).filter Value.truthy) = .ok false := by
  have declared : member.keyName ∈ (members.map Value.keyName).filter Value.truthy :=
    List.mem_filter.2 ⟨List.mem_map_of_mem mem, named⟩
  have some : (members.map Value.keyName).filter Value.truthy ≠ [] := List.ne_nil_of_mem declared
  rw [namesAgree, if_pos]
  exact fun none => some (List.length_eq_zero_iff.1 none.symm)

/-- A file is assembled from the members of the commands type and the options of its call. -/
theorem CallsCommands.exists_members (h : CallsCommands tree name options)
    (assembled : componentSchema tree = .ok schema) :
    ∃ types found members, Declarations.ofTree tree = .ok types ∧
      commandOptions options = .ok (some found) ∧
        commandMembers types (.str name) (some found) = .ok members := by
  obtain ⟨blueprint, types, located, declared, drawn⟩ := componentSchema_eq_ok.1 assembled
  obtain ⟨found, members, completed⟩ := completed_of_schemaOf drawn
  obtain ⟨named, given⟩ := h.blueprint_eq located
  have read := completed.given
  have checked := completed.checked
  rw [given] at read
  rw [named] at checked
  obtain ⟨-, -, found, -, -, -, rfl⟩ := exists_fields_of_commandOptions h.object read
  exact ⟨types, found, members, declared, read, checked⟩

/-- **Commands have to be listed.** A file whose commands call has no list of commands, under
neither of the keys, has no schema, whatever else the call is given and whatever commands there are;
where the rest is in order, it is the missing list that is reported. Something else in the place of
the list does not do either, if there is a command that has a name. -/
theorem commands_have_to_be_listed {tree options : Value} {name : String}
    (calls : CallsCommands tree name options) :
    (LacksKey options "supportedCommands" → LacksKey options "supported_commands" →
      (∃ fault, componentSchema tree = .error fault) ∧
        ∀ types declaration members given, types.find? (.str name) = some declaration →
          declaration.hasTag "TSInterfaceDeclaration" →
          declaration.interfaceMembers = some members →
          commandOptions options = .ok given →
          commandMembers types (.str name) given =
            .error (.about .commandNamesMissing declaration)) ∧
    ∀ value, LastUnder options "supportedCommands" value → ¬ value.hasTag "ArrayExpression" →
      ∀ types declaration members, Declarations.ofTree tree = .ok types →
        types.find? (.str name) = some declaration →
        declaration.interfaceMembers = some members →
        (∃ member ∈ members, member.keyName.truthy) →
        ∃ fault, componentSchema tree = .error fault := by
  refine ⟨fun lacks lacks' => ⟨?_, ?_⟩, ?_⟩
  · cases assembled : componentSchema tree with
    | error fault => exact ⟨fault, rfl⟩
    | ok schema =>
      obtain ⟨types, found, members, -, read, checked⟩ := calls.exists_members assembled
      obtain ⟨-, listed, -, -, supported, -⟩ := exists_listed_of_commandMembers checked
      rw [Option.bind_some, supported_of_lacks calls.object lacks lacks' read] at supported
      cases supported
  · intro types declaration members given found interface listed read
    obtain ⟨-, -, given, -, -, -, rfl⟩ := exists_fields_of_commandOptions calls.object read
    have unlisted := supported_of_lacks calls.object lacks lacks' read
    have present : declaration.isNull = false := Value.isNull_of_hasTag interface
    have named : (Value.str name).isNull = false := rfl
    have looked : types.find (.str name) = .ok declaration := by
      rw [Declarations.find, Value.key, ok_bind, found]
      rfl
    rw [commandMembers]
    simp only [named, looked, ok_bind, present, interface, listed, Option.bind_some, unlisted,
      Bool.not_true, Bool.false_eq_true, if_false, throw_eq]
  · intro value last noList types declaration members declared found listed somebody
    obtain ⟨member, mem, named⟩ := somebody
    cases assembled : componentSchema tree with
    | error fault => exact ⟨fault, rfl⟩
    | ok schema =>
      obtain ⟨types', given, read, declared', options_read, checked⟩ :=
        calls.exists_members assembled
      cases declared.symm.trans declared'
      obtain ⟨declaration', names, found', listed', supported, agree⟩ :=
        exists_listed_of_commandMembers checked
      cases found.symm.trans found'
      cases listed.symm.trans listed'
      rw [Option.bind_some, supported_of_last calls.object last noList options_read] at supported
      cases supported
      rw [not_namesAgree_nil mem named] at agree
      cases agree

namespace Sample

/-- A commands call with the given options. -/
def commandsCall (interface : String) (options : Value) : Value :=
  node "CallExpression" [("callee", identifier "codegenNativeCommands"),
    ("typeParameters",
      node "TSTypeParameterInstantiation" [("params", .arr [reference interface []])]),
    ("arguments", .arr [options])]

def commandsCallExport (interface : String) (options : Value) : Value :=
  node "ExportNamedDeclaration" [("declaration", node "VariableDeclaration" [
    ("declarations", .arr [node "VariableDeclarator" [("init", commandsCall interface options)]])])]

/-- A dial with the given commands, and the given options for them. -/
def commandedDial (commands : List Value) (options : List (String × Value)) : Value :=
  file [dialProps, interfaceNamed "Commands" [] commands,
    commandsCallExport "Commands" (objectWith options)] "Dial" "Props"

def commandedDialTypes (commands : List Value) : Declarations :=
  table [("Props", dialProps), ("Commands", interfaceNamed "Commands" [] commands)]

def focusCommand : Value := Sample.property "focus" (commandType [])

variable (commands : List Value) (given : List (String × Value))

theorem callsCommands_commandedDial :
    CallsCommands (commandedDial commands given) "Commands" (objectWith given) := by
  have listed : commandsCallExport "Commands" (objectWith given) ∈
      (commandedDial commands given).programBody := by
    have body : (commandedDial commands given).programBody =
        [dialProps, interfaceNamed "Commands" [] commands] ++
          commandsCallExport "Commands" (objectWith given) ::
            (file [] "Dial" "Props").programBody := by with_unfolding_all rfl
    rw [body]
    exact List.mem_append_right _ List.mem_cons_self
  have callee : (commandsCall "Commands" (objectWith given)).calleeName =
      .str "codegenNativeCommands" := by
    rw [Value.calleeName, commandsCall, if_pos (by simp)]
    exact identifierName_identifier "codegenNativeCommands"
  exact ⟨⟨_, listed, commandsCall "Commands" (objectWith given),
    ⟨⟨rfl, rfl, rfl⟩, ⟨_, _, rfl, rfl⟩, callee⟩, rfl, _, rfl, rfl,
    identifierName_identifier "Commands"⟩, rfl⟩

theorem ofTree_commandedDial :
    Declarations.ofTree (commandedDial commands given) = .ok (commandedDialTypes commands) := by
  with_unfolding_all rfl

/-- What a dial with commands is assembled to, if its commands come out. -/
theorem componentSchema_commandedDial {found : Option CommandOptions} {drawn : List Command}
    (read : commandOptions (objectWith given) = .ok found)
    (checked : commandMembers (commandedDialTypes commands) (.str "Commands") found = .ok commands)
    (entries : commandsOf (commandedDialTypes commands) commands = .ok drawn) :
    componentSchema (commandedDial commands given) =
      .ok ⟨"Dial", none, [], [], [], drawn, none⟩ := by
  obtain ⟨entries', located⟩ : ∃ entries', Blueprint.locate (commandedDial commands given) =
      .ok ⟨"Dial", "Props", "", some "Commands", some entries', none⟩ :=
    ⟨_, by with_unfolding_all rfl⟩
  obtain ⟨named, options⟩ := (callsCommands_commandedDial commands given).blueprint_eq located
  have expanded : membersOf (commandedDialTypes commands) (.str "Props") = .ok [] :=
    membersOf_eq_ok.2 ⟨_, _, .ofInterface rfl rfl rfl rfl, .nil⟩
  simp only [componentSchema_eq, located, ofTree_commandedDial, ok_bind, schemaOf, expanded,
    options, read, named, checked, entries, assembleState, Resolver.standard]
  with_unfolding_all rfl

end Sample

open Sample in
/-- No list at all, and a text in the place of the list. -/
theorem commands_have_to_be_listed_focus :
    (∃ fault, componentSchema (commandedDial [] []) = .error fault) ∧
      ∃ fault, componentSchema
        (commandedDial [focusCommand] [("supportedCommands", text "focus")]) = .error fault := by
  have lacks (key : String) : LacksKey (objectWith []) key := fun _ h => nomatch h
  have last : LastUnder (objectWith [("supportedCommands", text "focus")]) "supportedCommands"
      (text "focus") :=
    ⟨[], _, [], rfl, keyName_property "supportedCommands" Value.null, rfl, nofun⟩
  have named : focusCommand.keyName.truthy := by decide +kernel
  exact ⟨((commands_have_to_be_listed (callsCommands_commandedDial [] [])).1 (lacks _)
      (lacks _)).1,
    (commands_have_to_be_listed (callsCommands_commandedDial [focusCommand] _)).2 _ last (by decide)
      _ _ _ (ofTree_commandedDial _ _) rfl rfl ⟨_, List.mem_cons_self, named⟩⟩

open Sample in
/-- **Commands do without a list** where there are none and something else stands in its place, and
where it stands under the other key. -/
theorem not_commands_have_to_be_listed :
    ¬ (∀ tree options name value, CallsCommands tree name options →
      LastUnder options "supportedCommands" value → ¬ value.hasTag "ArrayExpression" →
        ∃ fault, componentSchema tree = .error fault) ∧
    ¬ ∀ tree options name, CallsCommands tree name options →
      LacksKey options "supportedCommands" → ∃ fault, componentSchema tree = .error fault := by
  constructor
  · intro fails
    have last : LastUnder (objectWith [("supportedCommands", text "focus")]) "supportedCommands"
        (text "focus") :=
      ⟨[], _, [], rfl, keyName_property "supportedCommands" Value.null, rfl, nofun⟩
    have read : commandOptions (objectWith [("supportedCommands", text "focus")]) =
        .ok (some ⟨some [], []⟩) := by with_unfolding_all rfl
    have entries : commandsOf (commandedDialTypes []) [] = .ok [] := rfl
    have built := componentSchema_commandedDial [] [("supportedCommands", text "focus")] read
      (by with_unfolding_all rfl) entries
    obtain ⟨fault, failed⟩ := fails _ _ _ _ (callsCommands_commandedDial [] _) last (by decide)
    rw [built] at failed
    cases failed
  · intro fails
    have lacks : LacksKey (objectWith [("supported_commands", listWith [text "focus"])])
        "supportedCommands" := by
      intro property mem
      rw [List.mem_singleton.1 mem]
      have keyed : (node "ObjectProperty" [("key", identifier "supported_commands"),
          ("value", listWith [text "focus"])]).keyName = .str "supported_commands" :=
        keyName_property "supported_commands" Value.null
      rw [keyed]
      simp
    obtain ⟨drawn, entries⟩ : ∃ drawn,
        commandsOf (commandedDialTypes [focusCommand]) [focusCommand] = .ok drawn :=
      ⟨_, by with_unfolding_all rfl⟩
    have read : commandOptions (objectWith [("supported_commands", listWith [text "focus"])]) =
        .ok (some ⟨some ["focus"], []⟩) := by with_unfolding_all rfl
    have built := componentSchema_commandedDial [focusCommand]
      [("supported_commands", listWith [text "focus"])] read (by with_unfolding_all rfl) entries
    obtain ⟨fault, failed⟩ := fails _ _ _ (callsCommands_commandedDial [focusCommand] _) lacks
    rw [built] at failed
    cases failed

end ComponentSpec
