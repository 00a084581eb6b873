import Mathlib.Data.List.Nodup
import Mathlib.Data.List.Perm.Subperm
import ComponentSpec.Proofs.Sample
import ComponentSpec.Proofs.Stages

/-!
# Commands

The members of the commands interface are only compared with the listed names by number and by
name. Where no two members share a name, this is as good as comparing them one by one: a list that
is as long as a list without repetitions, and names the same, is a permutation of it
(`perm_iff_of_nodup`). So the commands of a schema are the listed ones, in the order in which they
are declared (`commands_are_listed`).

A command is then read off its member: the first parameter is the reference to the component, and
each of the others has an entry of a basic type, or an array of one (`CommandOf`).

* `CommandsInterface` — a commands interface whose members have names, no two the same;
* `CommandOf`, `commandOf_eq_ok` — what a command says of its member;
* `commands_are_listed` — the commands are the listed ones.
-/

namespace ComponentSpec

open Checked

variable {types : Declarations} {member declaration : Value} {members : List Value}
  {listed names : List String}

/-! ### Names against names -/

/-- **As many, and the same.** Against names without repetition this leaves only their order. -/
theorem perm_iff_of_nodup (distinct : names.Nodup) :
    listed.Perm names ↔ listed.length = names.length ∧ ∀ s, s ∈ listed ↔ s ∈ names := by
  constructor
  · intro perm
    exact ⟨perm.length_eq, fun s => perm.mem_iff⟩
  · rintro ⟨asMany, same⟩
    have inside : names.Subperm listed :=
      List.subperm_of_subset distinct fun s hs => (same s).2 hs
    exact (inside.perm_of_length_le (Nat.le_of_eq asMany)).symm

/-- Among names that are texts, being the same key is being equal. -/
theorem onPath_map_str (names : List String) (s : String) :
    onPath (names.map .str) (.str s) = decide (s ∈ names) := by
  rw [Bool.eq_iff_iff, decide_eq_true_iff]
  simp [onPath]

/-- The same keys are the same names, however often. -/
theorem sameKeys_map_str (listed names : List String) :
    sameKeys (listed.map .str) (names.map .str) ↔ ∀ s, s ∈ listed ↔ s ∈ names := by
  rw [sameKeys, Bool.and_eq_true, List.all_eq_true, List.all_eq_true, List.forall_mem_map,
    List.forall_mem_map]
  simp only [onPath_map_str, decide_eq_true_iff]
  exact ⟨fun h s => ⟨h.1 s, h.2 s⟩, fun h => ⟨fun s => (h s).1, fun s => (h s).2⟩⟩

theorem asKeys_map_str (names : List String) :
    asKeys (names.map .str) = .ok (names.map .str) := by
  induction names with
  | nil => rfl
  | cons s names ih =>
    rw [asKeys] at ih ⊢
    rw [List.map_cons, List.mapM_cons, ih]
    rfl

theorem asTexts_map_str (names : List String) : asTexts (names.map .str) = .ok names := by
  induction names with
  | nil => rfl
  | cons s names ih =>
    rw [asTexts] at ih ⊢
    rw [List.map_cons, List.mapM_cons, ih]
    rfl

/-- **The comparison of names decides whether they are a permutation,** where the declared ones do
not repeat. -/
theorem namesAgree_map_str (distinct : names.Nodup) (listed : List String) :
    namesAgree listed (names.map .str) = .ok (decide (listed.Perm names)) := by
  rw [namesAgree, asKeys_map_str, List.length_map]
  by_cases asMany : listed.length = names.length
  · rw [if_neg (not_not.2 asMany), ok_bind, pure_eq, Except.ok.injEq, Bool.eq_iff_iff,
      sameKeys_map_str, decide_eq_true_iff, perm_iff_of_nodup distinct]
    exact ⟨fun same => ⟨asMany, same⟩, fun perm => perm.2⟩
  · rw [if_pos asMany, decide_eq_false fun perm => asMany perm.length_eq]

/-! ### The members of the interface -/

/-- **A commands interface whose members have names,** no two of them the same. -/
structure CommandsInterface (types : Declarations) (typeName : String) (declaration : Value)
    (members : List Value) (names : List String) : Prop where
  found : types.find? (.str typeName) = some declaration
  interface : declaration.hasTag "TSInterfaceDeclaration"
  lists : declaration.interfaceMembers = some members
  named : members.map Value.keyName = names.map Value.str
  nonempty : ∀ name ∈ names, name ≠ ""
  distinct : names.Nodup

namespace CommandsInterface

variable {typeName : String}

theorem present (h : CommandsInterface types typeName declaration members names) :
    declaration.isNull = false :=
  Value.isNull_of_hasTag h.interface

theorem find_eq (h : CommandsInterface types typeName declaration members names) :
    types.find (.str typeName) = .ok declaration := by
  rw [Declarations.find, Value.key, ok_bind, h.found]
  rfl

/-- Every member has a name, so none is passed over. -/
theorem declared_eq (h : CommandsInterface types typeName declaration members names) :
    (members.map Value.keyName).filter Value.truthy = names.map Value.str := by
  rw [h.named, List.filter_eq_self]
  intro name hname
  obtain ⟨s, hs, rfl⟩ := List.mem_map.1 hname
  exact bne_iff_ne.2 (h.nonempty s hs)

/-- **The members come out if the names are listed,** in whatever order, and otherwise it is
reported that the names differ. -/
theorem commandMembers_eq (h : CommandsInterface types typeName declaration members names)
    {options : Option CommandOptions}
    (given : options.bind CommandOptions.supported = some listed) :
    commandMembers types (.str typeName) options =
      if listed.Perm names then .ok members
      else .error (.about (.commandNamesDiffer (.str typeName) names listed) declaration) := by
  have named : (Value.str typeName).isNull = false := rfl
  rw [commandMembers]
  simp only [named, Bool.false_eq_true, if_false, h.find_eq, ok_bind, h.present, h.interface,
    Bool.not_true, h.lists, given, h.declared_eq, namesAgree_map_str h.distinct, asTexts_map_str,
    decide_eq_true_eq, throw_eq, pure_eq]

/-- Where the place of the interface can be told, names that differ are reported there, as a
declaration of the wrong shape. -/
theorem commandMembers_eq_report (h : CommandsInterface types typeName declaration members names)
    {options : Option CommandOptions} {place : Place}
    (given : options.bind CommandOptions.supported = some listed) (differ : ¬ listed.Perm names)
    (placed : Place.ofNode declaration = .ok place) :
    ∃ r : Report, commandMembers types (.str typeName) options = .error (.report r) ∧
      r.cause.category = .shape ∧ r.node = declaration ∧ r.place = place := by
  refine ⟨⟨.commandNamesDiffer (.str typeName) names listed, declaration, place, none⟩, ?_,
    rfl, rfl, rfl⟩
  rw [h.commandMembers_eq given, if_neg differ, Fault.about_of_placed placed]

/-- Without a list there are no members. -/
theorem exists_listed (h : CommandsInterface types typeName declaration members names)
    {options : Option CommandOptions} {read : List Value}
    (checked : commandMembers types (.str typeName) options = .ok read) :
    ∃ listed, options.bind CommandOptions.supported = some listed := by
  have named : (Value.str typeName).isNull = false := rfl
  cases given : options.bind CommandOptions.supported with
  | some listed => exact ⟨listed, rfl⟩
  | none =>
    rw [commandMembers] at checked
    simp only [named, Bool.false_eq_true, if_false, h.find_eq, ok_bind, h.present, h.interface,
      Bool.not_true, h.lists, given, throw_eq] at checked
    cases checked

end CommandsInterface

/-! ### A command and its member -/

/-- **The entry of a parameter,** whose type is basic or an array of a basic one. -/
structure ParamOf (types : Declarations) (command param : Value) (entry : Entry SchemaType) :
    Prop where
  typed : paramOf types command param = .ok entry
  named : entry.name = param.get "name"
  basic : ∃ type default,
    entry.type = .basic type default ∨ entry.type = .array (.basic type default)

/-- **The command of a member:** it has the member's name, and an entry for each parameter of the
function but the first, which is the reference to the component. -/
structure CommandOf (types : Declarations) (member : Value) (command : Command) : Prop where
  named : command.name = member.keyName
  params : ∃ function ref params, commandFunction member = .ok function ∧
    (signature function).1 = .arr (ref :: params) ∧ isRefParam ref = .ok true ∧
    List.Forall₂ (ParamOf types member.keyName) params command.params

/-- An element that is basic is that of an array of basic type, or of the type itself. -/
theorem SchemaType.isBasic_elementOrSelf {type : SchemaType} (h : type.elementOrSelf.isBasic) :
    ∃ basic default, type = .basic basic default ∨ type = .array (.basic basic default) := by
  cases type with
  | basic basic default => exact ⟨basic, default, Or.inl rfl⟩
  | array element =>
    cases element with
    | basic basic default => exact ⟨basic, default, Or.inr rfl⟩
    | _ => cases h
  | _ => cases h

/-- A parameter that has an entry is of one of the types that are allowed. -/
theorem paramOf_eq_ok {command param : Value} {entry : Entry SchemaType}
    (h : paramOf types command param = .ok entry) : ParamOf types command param entry := by
  have typed := h
  obtain ⟨name, named, h⟩ := bind_eq_ok.1 h
  obtain ⟨node, -, h⟩ := bind_eq_ok.1 h
  obtain ⟨type, -, h⟩ := bind_eq_ok.1 h
  split at h
  · next basic =>
    cases h
    exact ⟨typed, (Value.entry_eq_ok named).2, SchemaType.isBasic_elementOrSelf basic⟩
  · cases h

/-- **What a command says of its member.** -/
theorem commandOf_eq_ok {command : Command} (h : commandOf types member = .ok command) :
    CommandOf types member command := by
  obtain ⟨function, hfunction, h⟩ := bind_eq_ok.1 h
  rcases signed : signature function with ⟨parameters, returns⟩
  simp only [signed] at h
  obtain ⟨params, hparams, h⟩ := bind_eq_ok.1 h
  cases params with
  | none => cases h
  | some params =>
    obtain ⟨ref, listed, isRef⟩ := paramsAfterRef?_eq_ok hparams
    simp only at h
    split at h
    · cases h
    · obtain ⟨entries, hentries, h⟩ := bind_eq_ok.1 h
      cases h
      exact ⟨rfl, function, ref, params, hfunction, by rw [signed, listed], isRef,
        (mapM_eq_ok.1 hentries).imp fun _ _ => paramOf_eq_ok⟩

/-- Each member gives one command, in order. -/
theorem commandsOf_eq_ok {commands : List Command} (h : commandsOf types members = .ok commands) :
    List.Forall₂ (CommandOf types) members commands :=
  (mapM_eq_ok.1 h).imp fun _ _ => commandOf_eq_ok

/-! ### The commands of a schema -/

/-- **Listed commands.** They are those of the members, in the order of the declaration, and those
that are listed, each of them once. -/
structure ListedCommands (types : Declarations) (members : List Value) (names listed : List String)
    (commands : List Command) : Prop where
  inOrder : commands.map Command.name = names.map Value.str
  perm : (commands.map Command.name).Perm (listed.map Value.str)
  distinct : (commands.map Command.name).Nodup
  read : List.Forall₂ (CommandOf types) members commands

/-- **If the names are listed, so are the commands,** since each of them has the name of its member.
-/
theorem CommandsInterface.listedCommands {typeName : String} {commands : List Command}
    (h : CommandsInterface types typeName declaration members names) (perm : listed.Perm names)
    (read : commandsOf types members = .ok commands) :
    ListedCommands types members names listed commands := by
  have items := commandsOf_eq_ok read
  have inOrder : commands.map Command.name = names.map Value.str := by
    rw [← h.named]
    clear * - items
    induction items with
    | nil => rfl
    | cons first _ ih => rw [List.map_cons, List.map_cons, ih, first.named]
  have apart : Function.Injective Value.str := by
    intro s t same
    cases same
    rfl
  refine ⟨inOrder, ?_, ?_, items⟩
  · rw [inOrder]
    exact (perm.map _).symm
  · rw [inOrder]
    exact List.Nodup.map apart h.distinct

/-- **The commands are the listed ones.** The members of the interface come out exactly if the
listed names are theirs in some order, and it is a mismatch otherwise. So a schema has the listed
commands, as they are declared. -/
theorem commands_are_listed {typeName : String}
    (h : CommandsInterface types typeName declaration members names) :
    (∀ options listed, options.supported = some listed →
      (commandMembers types (.str typeName) (some options) = .ok members ↔ listed.Perm names) ∧
      (¬ listed.Perm names → ∃ cause : Cause, cause.category = .shape ∧
        commandMembers types (.str typeName) (some options) = .error (.about cause declaration))) ∧
    ∀ tree blueprint schema, Blueprint.locate tree = .ok blueprint →
      blueprint.commandsType = some typeName → Declarations.ofTree tree = .ok types →
      componentSchema tree = .ok schema →
      ∃ options listed, commandOptions (tableValue blueprint.commandOptions) = .ok (some options) ∧
        options.supported = some listed ∧
        ListedCommands types members names listed schema.commands := by
  constructor
  · intro options listed given
    rw [h.commandMembers_eq ((Option.bind_some _ _).trans given)]
    refine ⟨?_, fun differ => ⟨.commandNamesDiffer (.str typeName) names listed, rfl, ?_⟩⟩
    · split
      · next perm => simp [perm]
      · next differ => simp [differ]
    · rw [if_neg differ]
  · intro tree blueprint schema located named declared assembled
    obtain ⟨blueprint', types', located', declared', drawn⟩ := componentSchema_eq_ok.1 assembled
    cases located.symm.trans located'
    cases declared.symm.trans declared'
    obtain ⟨options, read, completed⟩ := completed_of_schemaOf drawn
    have checked : commandMembers types (.str typeName) options = .ok read := by
      rw [← completed.checked, Blueprint.commandsName, named]
      rfl
    obtain ⟨listed, supported⟩ := h.exists_listed checked
    rw [h.commandMembers_eq supported] at checked
    split at checked
    · next perm =>
      cases checked
      obtain ⟨given, rfl, supported⟩ := Option.bind_eq_some_iff.1 supported
      exact ⟨given, listed, completed.given, supported, h.listedCommands perm completed.commands⟩
    · cases checked

namespace Sample

/-- The commands of a scroller: one with a parameter, and one without. -/
def scrollerCommands : List Value :=
  [property "scrollTo" (commandType [parameter "y" (reference "Int32" [])]),
    property "flash" (commandType [])]

def scrollerInterface : Value := interfaceNamed "Commands" [] scrollerCommands

def scrollerProps : Value := interfaceNamed "Props" [] []

def scrollerFile : Value :=
  file [scrollerProps, scrollerInterface, commandsExport "Commands" ["flash", "scrollTo"]]
    "Scroller" "Props"

def scrollerTypes : Declarations :=
  table [("Props", scrollerProps), ("Commands", scrollerInterface)]

end Sample

open Sample in
theorem commands_are_listed_scroller :
    (∃ cause, commandMembers scrollerTypes (.str "Commands") (some ⟨some ["flash", "flash"], []⟩) =
        .error (.about cause scrollerInterface)) ∧
      ∃ schema, componentSchema scrollerFile = .ok schema ∧
        ListedCommands scrollerTypes scrollerCommands ["scrollTo", "flash"] ["flash", "scrollTo"]
          schema.commands := by
  have interface : CommandsInterface scrollerTypes "Commands" scrollerInterface scrollerCommands
      ["scrollTo", "flash"] :=
    ⟨rfl, rfl, rfl, by with_unfolding_all rfl, by decide, by decide⟩
  obtain ⟨checked, assembled⟩ := commands_are_listed interface
  obtain ⟨cause, -, differ⟩ := (checked ⟨some ["flash", "flash"], []⟩ _ rfl).2 (by decide)
  refine ⟨⟨cause, differ⟩, ?_⟩
  -- what the assembly reads off the file, evaluated
  obtain ⟨given, located, options⟩ : ∃ given,
      Blueprint.locate scrollerFile =
        .ok ⟨"Scroller", "Props", "", some "Commands", some given, none⟩ ∧
        commandOptions (.obj given) = .ok (some ⟨some ["flash", "scrollTo"], []⟩) :=
    ⟨_, by with_unfolding_all rfl, by with_unfolding_all rfl⟩
  have declared : Declarations.ofTree scrollerFile = .ok scrollerTypes := by with_unfolding_all rfl
  have expanded : membersOf scrollerTypes (.str "Props") = .ok [] :=
    membersOf_eq_ok.2 ⟨_, _, .ofInterface rfl rfl rfl rfl, .nil⟩
  have members : commandMembers scrollerTypes (.str "Commands")
      (some ⟨some ["flash", "scrollTo"], []⟩) = .ok scrollerCommands :=
    (checked _ _ rfl).1.2 (by decide)
  obtain ⟨schema, h⟩ : ∃ schema, componentSchema scrollerFile = .ok schema := by
    have named : Blueprint.commandsName
      ⟨"Scroller", "Props", "", some "Commands", some given, none⟩ = .str "Commands" := rfl
    have table : tableValue (some given) = .obj given := rfl
    simp only [componentSchema_eq, located, declared, ok_bind, schemaOf, expanded, table, options,
      named, members]
    exact ⟨_, by with_unfolding_all rfl⟩
  obtain ⟨options', listed, given', supported, commands⟩ :=
    assembled scrollerFile _ schema located rfl declared h
  -- the theorem speaks of the same options
  cases options.symm.trans given'
  cases supported
  exact ⟨schema, h, commands⟩

end ComponentSpec
