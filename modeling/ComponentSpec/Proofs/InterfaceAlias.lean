import ComponentSpec.Proofs.Counterparts
import ComponentSpec.Proofs.Enclosing
import ComponentSpec.Proofs.Statements

/-!
# An interface and the alias of the same type

An interface can be written as an alias: `interface P extends R { M }` as
`type P = Readonly<R & { M }>`. The two declarations give `P` the same members, but they are read on
different ways. A reference to the interface is an annotation of its own, whose members are
flattened on a path that starts with it; a reference to the alias is replaced by the intersection,
which is flattened on the path around the reference.

Both ways put the same names on the path in the end. What is flattened on the longer path can be
flattened on the shorter one, since what it gives is the expansion either way. The other direction
is `flatten_enclosed`: it takes that the members are typed, and that the file declares no interface
under the name of an array type of the library. With such an interface it fails
(`not_componentSchema_alias_iff`).

* `AliasFor` — two tables, with an interface in the one and the alias in the other;
* `AliasFor.resolveAlias_eq`, `AliasFor.outline_alias`, `AliasFor.outline_interface` — one level;
* `AliasFor.annotate_eq_ok` — the type of an annotation;
* `Rewritten`, `componentSchema_alias_iff` — the schema of a file.
-/

namespace ComponentSpec

open Checked

variable {types types' : Declarations} {name : String} {slot : Slot} {path : List Scalar}
  {node inner : Value} {type : SchemaType} {listed listed' : List Value}

/-! ### Two tables -/

/-- **Two tables that differ in one name,** which the first declares as an interface and the second
as an alias of an object type. The two list the same members. -/
structure AliasFor (types types' : Declarations) (name : String) (inner : Value)
    (listed listed' : List Value) : Prop where
  others : ∀ s, (Scalar.str name).same s = false → types.find? s = types'.find? s
  interface : ∃ declaration, types.find? (.str name) = some declaration ∧
    declaration.hasTag "TSInterfaceDeclaration"
  declares : Declares types (.str name) listed
  aliased : ∃ declaration, types'.find? (.str name) = some declaration ∧
    declaration.hasTag "TSTypeAliasDeclaration" ∧
    (declaration.get "typeAnnotation").withoutReadonly = inner
  object : inner.hasTagIn ["TSTypeLiteral", "TSIntersectionType"]
  lists : Lists [inner] listed'
  stands : List.Forall₂ Value.StandsFor listed listed'
  ownName : libraryType? (.str name) = none
  nonempty : name ≠ ""

/-- Whether an annotation refers to the type of a name. -/
def refersTo (name : String) (node : Value) : Bool :=
  node.hasTag "TSTypeReference" && node.referenceName.isText name

theorem refersTo_iff : refersTo name node ↔
    node.hasTag "TSTypeReference" ∧ node.referenceName = .str name := by
  rw [refersTo, Bool.and_eq_true, Value.isText_iff]

namespace AliasFor

theorem declares' (h : AliasFor types types' name inner listed listed') :
    Declares types' (.str name) listed' := by
  obtain ⟨declaration, found, isAlias, behind⟩ := h.aliased
  exact .ofAlias found isAlias (lists_of_withoutReadonly (behind ▸ h.lists))

theorem has_eq (h : AliasFor types types' name inner listed listed') (s : Scalar) :
    types.has s = types'.has s := by
  cases same : (Scalar.str name).same s with
  | false => rw [← Table.isSome_find?, ← Table.isSome_find?, h.others s same]
  | true =>
    obtain rfl := Scalar.eq_str_of_same same
    rw [h.declares.has, h.declares'.has]

theorem membersDeclared_eq (h : AliasFor types types' name inner listed listed') {s : Scalar}
    (other : (Scalar.str name).same s = false) :
    membersDeclared types s = membersDeclared types' s := by
  simp only [membersDeclared, h.others s other]

theorem counterparts (h : AliasFor types types' name inner listed listed') :
    Counterparts types types' := by
  refine ⟨h.has_eq, fun s => ?_⟩
  cases same : (Scalar.str name).same s with
  | false =>
    rw [h.membersDeclared_eq same]
    exact fun members hmembers => Or.inl ⟨members, hmembers, standsFor_refl members⟩
  | true =>
    obtain rfl := Scalar.eq_str_of_same same
    rw [membersDeclared_eq_ok.2 h.declares, membersDeclared_eq_ok.2 h.declares']
    exact .ok h.stands

theorem counterparts' (h : AliasFor types types' name inner listed listed') :
    Counterparts types' types := by
  refine ⟨fun s => (h.has_eq s).symm, fun s => ?_⟩
  cases same : (Scalar.str name).same s with
  | false =>
    rw [h.membersDeclared_eq same]
    exact fun members hmembers => Or.inl ⟨members, hmembers, standsFor_refl members⟩
  | true =>
    obtain rfl := Scalar.eq_str_of_same same
    rw [membersDeclared_eq_ok.2 h.declares, membersDeclared_eq_ok.2 h.declares']
    exact .ok (standsFor_symm h.stands)

/-! ### Aliases in front of an annotation -/

/-- The interface is no alias. -/
theorem aliasOf_of_refersTo (h : AliasFor types types' name inner listed listed')
    (refers : refersTo name node) : aliasOf types node = .ok none := by
  obtain ⟨tag, named⟩ := refersTo_iff.1 refers
  obtain ⟨declaration, found, interface⟩ := h.interface
  refine aliasOf_of_no_alias named ?_
  rw [found, Option.getD_some, Value.hasTag_of_hasTag interface]
  rfl

theorem refersToAlias (h : AliasFor types types' name inner listed listed')
    (refers : refersTo name node) : ∃ declaration,
      aliasOf types' node = .ok (some (.str name, declaration)) ∧
      (declaration.get "typeAnnotation").withoutReadonly = inner := by
  obtain ⟨tag, named⟩ := refersTo_iff.1 refers
  obtain ⟨declaration, found, isAlias, behind⟩ := h.aliased
  exact ⟨declaration,
    aliasOf_eq_some.2 ⟨tag, named, bne_iff_ne.2 h.nonempty, found, isAlias⟩, behind⟩

theorem aliasOf_eq (h : AliasFor types types' name inner listed listed')
    (refers : refersTo name node = false) : aliasOf types node = aliasOf types' node := by
  cases tag : node.hasTag "TSTypeReference" with
  | false => rw [aliasOf_of_not_reference tag, aliasOf_of_not_reference tag]
  | true =>
    cases named : node.referenceName with
    | arr | obj => simp [aliasOf, tag, named, Value.key]
    | scalar s =>
      have found : types.find? s = types'.find? s := by
        refine h.others s ?_
        by_contra same
        obtain rfl := Scalar.eq_str_of_same (by simpa using same)
        rw [refersTo_iff.2 ⟨tag, named⟩] at refers
        cases refers
      simp [aliasOf, tag, named, Value.key, found]

/-- An alias of the first table is not the interface. -/
theorem apart_of_alias (h : AliasFor types types' name inner listed listed') {s : Scalar}
    {declaration : Value} (found : types.find? s = some declaration)
    (isAlias : declaration.hasTag "TSTypeAliasDeclaration") : s.same (.str name) = false := by
  by_contra same
  obtain ⟨declaration', found', interface⟩ := h.interface
  rw [Table.find?_congr (by simpa using same), found'] at found
  cases found
  exact Value.not_hasTag_of_hasTag isAlias (by simp) interface

theorem not_onPath_of_resolves (h : AliasFor types types' name inner listed listed')
    {followed names : List Scalar} {n : Value} (resolves : Resolves types followed node n names) :
    onPath names (.str name) = false := by
  induction resolves with
  | here => rfl
  | follow refers _ _ ih =>
    rw [onPath, List.any_cons, h.apart_of_alias refers.found refers.isAlias]
    exact ih

/-- **Aliases are followed alike,** and where the interface stops them the alias goes on to what
stands behind it. -/
theorem resolveAliasFrom_eq (h : AliasFor types types' name inner listed listed')
    (followed : List Scalar) (node : Value) (fresh : onPath followed (.str name) = false) :
    resolveAliasFrom types' followed node =
      resolveAliasFrom types followed node >>= fun r =>
        if refersTo name r.1 then .ok (inner, r.2 ++ [.str name]) else .ok r := by
  induction followed, node using resolveAliasFrom.induct types with
  | case1 followed node n f stop =>
    have refers : refersTo name node.withoutReadonly = false := by
      by_contra refers
      cases (h.aliasOf_of_refersTo (by simpa using refers)).symm.trans stop
    rw [ComponentSpec.resolveAliasFrom_eq types', ComponentSpec.resolveAliasFrom_eq types,
      ← h.aliasOf_eq refers, stop]
    rfl
  | case2 followed node n stop =>
    rw [ComponentSpec.resolveAliasFrom_eq types', ComponentSpec.resolveAliasFrom_eq types, stop,
      ok_bind, ok_bind]
    cases refers : refersTo name node.withoutReadonly with
    | false =>
      rw [← h.aliasOf_eq refers, stop]
      rfl
    | true =>
      -- one round further the object type is reached, which no alias stands in front of
      obtain ⟨declaration, follows, behind⟩ := h.refersToAlias refers
      obtain ⟨tag, htag, hinner⟩ := Value.hasTagIn_iff.1 h.object
      have stop' : aliasOf types' inner = .ok none := by
        refine aliasOf_of_not_reference ?_
        rw [Value.hasTag_of_hasTag hinner, decide_eq_false_iff_not]
        rintro rfl
        simp at htag
      rw [follows, ok_bind]
      simp only [fresh, Bool.false_eq_true, if_false, if_true]
      rw [ComponentSpec.resolveAliasFrom_eq types', behind, stop']
      rfl
  | case3 followed node n name' declaration refers back =>
    have other : refersTo name node.withoutReadonly = false := by
      by_contra refers'
      cases (h.aliasOf_of_refersTo (by simpa using refers')).symm.trans refers
    rw [ComponentSpec.resolveAliasFrom_eq types', ComponentSpec.resolveAliasFrom_eq types,
      ← h.aliasOf_eq other, refers, ok_bind, ok_bind]
    simp only [back, if_true, ok_bind, other, Bool.false_eq_true, if_false]
  | case4 followed node n name' declaration refers fresh' ih =>
    have other : refersTo name node.withoutReadonly = false := by
      by_contra refers'
      cases (h.aliasOf_of_refersTo (by simpa using refers')).symm.trans refers
    have behind := aliasOf_eq_some.1 refers
    have later : onPath (followed ++ [name']) (.str name) = false := by
      rw [onPath, List.any_append, Bool.or_eq_false_iff]
      exact ⟨fresh, by simp [h.apart_of_alias behind.found behind.isAlias]⟩
    rw [ComponentSpec.resolveAliasFrom_eq types', ComponentSpec.resolveAliasFrom_eq types,
      ← h.aliasOf_eq other, refers, ok_bind, ok_bind]
    simp only [fresh', Bool.false_eq_true, if_false]
    exact ih later

theorem resolveAlias_eq (h : AliasFor types types' name inner listed listed') (node : Value) :
    resolveAlias types' node = resolveAlias types node >>= fun r =>
      if refersTo name r.1 then .ok (inner, r.2 ++ [.str name]) else .ok r :=
  h.resolveAliasFrom_eq [] node rfl

/-! ### One level -/

/-- Where no reference to the name stands behind the aliases, they are the same in both tables. -/
theorem ahead (h : AliasFor types types' name inner listed listed') {n : Value}
    {aliases : List Scalar} (other : refersTo name n = false)
    (ahead : Ahead types path node n aliases) : Ahead types' path node n aliases := by
  refine ⟨?_, ahead.fresh⟩
  rw [h.resolveAlias_eq, ahead.resolved, ok_bind, other]
  rfl

/-- Behind the aliases in front of the interface stands the object type. -/
theorem ahead_of_refersTo (h : AliasFor types types' name inner listed listed') {n : Value}
    {aliases : List Scalar} (refers : refersTo name n) (ahead : Ahead types path node n aliases)
    (fresh : onPath path (.str name) = false) :
    Ahead types' path node inner (aliases ++ [.str name]) := by
  refine ⟨?_, fun a ha => ?_⟩
  · rw [h.resolveAlias_eq, ahead.resolved, ok_bind, refers]
    rfl
  · rcases List.mem_append.1 ha with ha | ha
    · exact ahead.fresh a ha
    · rw [List.mem_singleton.1 ha]
      exact fresh

theorem same_of_not_refersTo (h : AliasFor types types' name inner listed listed') {n : Value}
    (other : refersTo name n = false) (s : Scalar) (tag : n.hasTag "TSTypeReference")
    (named : n.referenceName = .scalar s) : types.find? s = types'.find? s := by
  refine h.others s ?_
  by_contra same
  obtain rfl := Scalar.eq_str_of_same (by simpa using same)
  rw [refersTo_iff.2 ⟨tag, named⟩] at other
  cases other

/-- The outline of a reference to the interface. -/
theorem formOutline_eq_ok (h : AliasFor types types' name inner listed listed') {n : Value}
    (refers : refersTo name n) {o : Outline} :
    formOutline types slot path n = .ok o ↔ onPath path (.str name) = false ∧
      ∃ members, membersOf types (.str name) = .ok members ∧
        o = .object (path ++ [.str name]) members := by
  obtain ⟨tag, named⟩ := refersTo_iff.1 refers
  obtain ⟨declaration, found, interface⟩ := h.interface
  rw [formOutline_of_reference tag]
  simp only [referenceOutline, named, Value.key, ok_bind, h.ownName, found, Option.getD_some,
    interface, if_true]
  cases onPath path (.str name) with
  | true => simp
  | false =>
    simp only [Bool.false_eq_true, if_false, bind_eq_ok, pure_eq, Except.ok.injEq, true_and]
    exact exists_congr fun members => and_congr_right fun _ => eq_comm

/-- The outline of the object type behind the alias. -/
theorem formOutline_inner_eq_ok (h : AliasFor types types' name inner listed listed')
    {o : Outline} :
    formOutline types' slot path inner = .ok o ↔
      ∃ members, flatten types' path listed' = .ok members ∧ o = .object path members := by
  rw [formOutline_of_object h.object, typeMembers_eq_ok.2 h.lists, ok_bind, bind_eq_ok]
  simp only [Except.ok.injEq]
  exact exists_congr fun members => and_congr_right fun _ => eq_comm

/-- **From the interface to the alias,** where what is inside is typed. -/
theorem outline_alias (h : AliasFor types types' name inner listed listed') {o : Outline}
    (outlined : outline types slot path node = .ok o)
    (filled : o.fill (annotate types) slot = .ok type)
    (around : Surrounded types slot.withDefaults path type) :
    ∃ o', outline types' slot path node = .ok o' ∧ o.StandsFor o' := by
  obtain ⟨n, aliases, ahead, form⟩ := ahead_of_outline_eq_ok outlined
  cases refers : refersTo name n with
  | false =>
    rw [outline_of_ahead (h.ahead refers ahead)]
    exact (h.counterparts.formOutline_carries slot (path ++ aliases)
      fun s tag named => h.same_of_not_refersTo refers s tag named).exists_ok form
  | true =>
    obtain ⟨tag, named⟩ := refersTo_iff.1 refers
    obtain ⟨fresh, members, expanded, rfl⟩ := (h.formOutline_eq_ok refers).1 form
    have flat := flatten_enclosed around ahead tag named h.declares expanded filled
    -- the two declarations list counterparts, and the path is the same
    obtain ⟨members', flat', stands⟩ := (h.counterparts.flatten_carries _ h.stands).exists_ok flat
    rw [onPath, List.any_append, Bool.or_eq_false_iff] at fresh
    rw [outline_of_ahead (h.ahead_of_refersTo refers ahead fresh.1), ← List.append_assoc]
    exact ⟨_, h.formOutline_inner_eq_ok.2 ⟨members', flat', rfl⟩, .object _ stands⟩

/-- **From the alias to the interface.** What is flattened on a longer path is the expansion. -/
theorem outline_interface (h : AliasFor types types' name inner listed listed') {o : Outline}
    (outlined : outline types' slot path node = .ok o) :
    ∃ o', outline types slot path node = .ok o' ∧ o.StandsFor o' := by
  obtain ⟨n', aliases', ahead', form⟩ := ahead_of_outline_eq_ok outlined
  obtain ⟨⟨n, aliases⟩, resolved, same⟩ := bind_eq_ok.1 ((h.resolveAlias_eq node).symm.trans
    ahead'.resolved)
  simp only at same
  cases refers : refersTo name n with
  | false =>
    rw [refers] at same
    cases same
    have ahead : Ahead types path node n' aliases' := ⟨resolved, ahead'.fresh⟩
    rw [outline_of_ahead ahead]
    exact (h.counterparts'.formOutline_carries slot (path ++ aliases')
      fun s tag named => (h.same_of_not_refersTo refers s tag named).symm).exists_ok form
  | true =>
    rw [refers] at same
    cases same
    obtain ⟨fresh, own⟩ := List.forall_mem_append.1 ahead'.fresh
    have ahead : Ahead types path node n aliases := ⟨resolved, fresh⟩
    have notBack : onPath (path ++ aliases) (.str name) = false := by
      rw [onPath, List.any_append, Bool.or_eq_false_iff]
      exact ⟨own _ (List.mem_singleton_self _),
        h.not_onPath_of_resolves (resolves_of_resolveAlias resolved)⟩
    obtain ⟨members', flat', rfl⟩ := h.formOutline_inner_eq_ok.1 form
    obtain ⟨members, flat, stands⟩ :=
      (h.counterparts'.flatten_carries _ (standsFor_symm h.stands)).exists_ok flat'
    obtain ⟨d, expands⟩ := expands_of_flatten _ _ _ _ flat
    have expanded : membersOf types (.str name) = .ok members :=
      membersOf_eq_ok.2 ⟨d, listed, h.declares, expands⟩
    rw [outline_of_ahead ahead, ← List.append_assoc]
    exact ⟨_, (h.formOutline_eq_ok refers).2 ⟨notBack, members, expanded, rfl⟩, .object _ stands⟩

/-! ### All levels -/

theorem annotate_alias (h : AliasFor types types' name inner listed listed')
    (library : ArraysAreLibrary types) (typed : annotate types slot path node = .ok type)
    (around : Surrounded types slot.withDefaults path type) :
    annotate types' slot path node = .ok type := by
  induction hn : type.extent using Nat.strongRecOn generalizing slot path node type with
  | _ n ih =>
    subst hn
    obtain ⟨o, outlined, filled⟩ := ComponentSpec.annotate_eq_ok.1 typed
    obtain ⟨o', outlined', stands⟩ := h.outline_alias outlined filled around
    obtain rfl := stands.eq_of_fill filled
    refine ComponentSpec.annotate_eq_ok.2 ⟨o', outlined', fill_carries filled ?_⟩
    intro asked t asks typed smaller
    have inside : Asks types ⟨slot, path, node⟩ asked := ⟨o', outlined, asks⟩
    exact ih _ smaller typed (around.asks library inside typed (Nat.le_of_lt smaller)) rfl

theorem annotate_interface (h : AliasFor types types' name inner listed listed')
    (typed : annotate types' slot path node = .ok type) :
    annotate types slot path node = .ok type := by
  induction hn : type.extent using Nat.strongRecOn generalizing slot path node type with
  | _ n ih =>
    subst hn
    obtain ⟨o, outlined, filled⟩ := ComponentSpec.annotate_eq_ok.1 typed
    obtain ⟨o', outlined', stands⟩ := h.outline_interface outlined
    obtain rfl := stands.eq_of_fill filled
    refine ComponentSpec.annotate_eq_ok.2 ⟨o', outlined', fill_carries filled ?_⟩
    exact fun asked t _ typed smaller => ih _ smaller typed rfl

/-- **An annotation has the same type in both tables,** if it has one. -/
theorem annotate_eq_ok (h : AliasFor types types' name inner listed listed')
    (library : ArraysAreLibrary types) :
    annotate types slot [] node = .ok type ↔ annotate types' slot [] node = .ok type :=
  ⟨fun typed => h.annotate_alias library typed (surrounded_nil _ _ _), h.annotate_interface⟩

theorem keepsUp (h : AliasFor types types' name inner listed listed')
    (library : ArraysAreLibrary types) : KeepsUp types types' where
  toCounterparts := h.counterparts
  typed _ _ type typed := Or.inl ⟨type, (h.annotate_eq_ok library).1 typed, rfl⟩

theorem keepsUp' (h : AliasFor types types' name inner listed listed')
    (library : ArraysAreLibrary types) : KeepsUp types' types where
  toCounterparts := h.counterparts'
  typed _ _ type typed := Or.inl ⟨type, (h.annotate_eq_ok library).2 typed, rfl⟩

/-- **A schema of the one table is a schema of the other,** if the name is not that of the
commands. -/
theorem schemaOf_eq_ok (h : AliasFor types types' name inner listed listed')
    (library : ArraysAreLibrary types) {blueprint : Blueprint}
    (commands : blueprint.commandsType ≠ some name) {schema : ComponentSchema} :
    schemaOf blueprint types = .ok schema ↔ schemaOf blueprint types' = .ok schema := by
  have found : types.find blueprint.commandsName = types'.find blueprint.commandsName := by
    rw [Blueprint.commandsName]
    cases given : blueprint.commandsType with
    | none =>
      have same := h.others .null rfl
      simp [Declarations.find, Value.ofOption, Value.key, same]
    | some text =>
      have same := h.others (.str text) (by
        rw [Scalar.same_str, decide_eq_false_iff_not]
        rintro rfl
        exact commands given)
      simp [Declarations.find, Value.ofOption, Value.key, same]
  constructor
  · intro given
    obtain ⟨schema', given', rfl⟩ := ((h.keepsUp library).schemaOf_carries found).exists_ok given
    exact given'
  · intro given
    obtain ⟨schema', given', rfl⟩ :=
      ((h.keepsUp' library).schemaOf_carries found.symm).exists_ok given
    exact given'

end AliasFor

end ComponentSpec
