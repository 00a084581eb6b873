import ComponentSpec.Proofs.Levels

/-!
# What the enclosing guard lets through

The members of an interface are flattened on a path of their own, those of an alias on the path
around the annotation. Where the members are typed in the end, the longer path makes no difference
(`flatten_enclosed`).

The path has no part in what is typed, but for whether it is (`annotate_unique`). So a type has one
size, its extent. A type on the path around an annotation expands to members of which one has the
annotation inside (`Encloses`): were it spread among the members of the annotation, it would bring
this member along, whose type would be smaller than a type inside it. An alias in front of the
annotation is what it stands for, so spreading it would be a circle, which has no expansion.

The one way to have an alias on the path that expands to something else is an array type of the
library of which the file declares an interface. As an annotation it is an array, but spread it is
the interface.

* `annotate_unique` — one type, whatever the path;
* `Resolves.expands` — an alias expands to what stands behind it;
* `Encloses`, `Surrounded.asks` — the types around an annotation, and around what is inside it;
* `flatten_enclosed` — members that are typed are flattened on the path around them.
-/

namespace ComponentSpec

open Checked

variable {types : Declarations} {slot : Slot} {path path' aliases : List Scalar}
  {node inner : Value} {name s : Scalar} {type type' : SchemaType} {members listed l : List Value}
  {d : Derivation} {withDefaults : Bool}

/-! ### One type -/

/-- Outlines of the same thing on different paths. -/
inductive Outline.Matches : Outline → Outline → Prop where
  | leaf (type : SchemaType) : Matches (.leaf type) (.leaf type)
  | array (path path' : List Scalar) (element : Value) :
      Matches (.array path element) (.array path' element)
  | object (path path' : List Scalar) (members : List Value) :
      Matches (.object path members) (.object path' members)

theorem flatten_unique {l' : List Value} (h : flatten types path members = .ok l)
    (h' : flatten types path' members = .ok l') : l = l' := by
  obtain ⟨d, expands⟩ := expands_of_flatten types path members l h
  obtain ⟨d', expands'⟩ := expands_of_flatten types path' members l' h'
  exact (expands.unique expands').2

theorem formOutline_matches {o o' : Outline} (h : formOutline types slot path node = .ok o)
    (h' : formOutline types slot path' node = .ok o') : o.Matches o' := by
  obtain ⟨form, hform, h⟩ := bind_eq_ok.1 h
  obtain ⟨form', hform', h'⟩ := bind_eq_ok.1 h'
  cases hform.symm.trans hform'
  cases form with
  | basic basic => cases h; cases h'; exact .leaf _
  | number | other => cases h
  | array => cases h; cases h'; exact .array _ _ _
  | object =>
    obtain ⟨listed, hlisted, h⟩ := bind_eq_ok.1 h
    obtain ⟨listed', hlisted', h'⟩ := bind_eq_ok.1 h'
    cases hlisted.symm.trans hlisted'
    obtain ⟨members, flat, h⟩ := bind_eq_ok.1 h
    obtain ⟨members', flat', h'⟩ := bind_eq_ok.1 h'
    cases h
    cases h'
    rw [flatten_unique flat flat']
    exact .object _ _ _
  | choice =>
    obtain ⟨enum, typed, h⟩ := bind_eq_ok.1 h
    obtain ⟨enum', typed', h'⟩ := bind_eq_ok.1 h'
    cases typed.symm.trans typed'
    cases h
    cases h'
    exact .leaf _
  | reference =>
    obtain ⟨reference, named, h⟩ := bind_eq_ok.1 h
    obtain ⟨reference', named', h'⟩ := bind_eq_ok.1 h'
    cases named.symm.trans named'
    -- what a reference stands for is decided by its name alone
    generalize libraryType? reference = library at h h'
    match library with
    | some (.basic _) | some (.reserved _) | some .mixed =>
      cases h
      cases h'
      exact .leaf _
    | some .array =>
      simp only at h h'
      split at h
      · next only =>
        rw [only] at h'
        cases h
        cases h'
        exact .array _ _ _
      · cases h
    | none =>
      simp only at h h'
      split at h
      · next declared =>
        rw [if_pos declared] at h'
        split at h
        · cases h
        · split at h'
          · cases h'
          · obtain ⟨members, expanded, h⟩ := bind_eq_ok.1 h
            obtain ⟨members', expanded', h'⟩ := bind_eq_ok.1 h'
            cases expanded.symm.trans expanded'
            cases h
            cases h'
            exact .object _ _ _
      · cases h

theorem outline_matches {o o' : Outline} (h : outline types slot path node = .ok o)
    (h' : outline types slot path' node = .ok o') : o.Matches o' := by
  obtain ⟨inner, aliases, ahead, h⟩ := ahead_of_outline_eq_ok h
  obtain ⟨inner', aliases', ahead', h'⟩ := ahead_of_outline_eq_ok h'
  cases ahead.resolved.symm.trans ahead'.resolved
  exact formOutline_matches h h'

/-- **An annotation has one type,** on whatever path it is typed. -/
theorem annotate_unique (h : annotate types slot path node = .ok type)
    (h' : annotate types slot path' node = .ok type') : type = type' := by
  -- by the extent of the type, since what is inside is smaller
  induction hn : type.extent using Nat.strongRecOn generalizing slot path path' node type type' with
  | _ n ih =>
    subst hn
    obtain ⟨o, outlined, filled⟩ := annotate_eq_ok.1 h
    obtain ⟨o', outlined', filled'⟩ := annotate_eq_ok.1 h'
    cases outline_matches outlined outlined' with
    | leaf type =>
      cases filled
      cases filled'
      rfl
    | array path path' element =>
      obtain ⟨site, inner, sited, typed, rfl⟩ := fill_array_eq_ok.1 filled
      obtain ⟨site', inner', sited', typed', rfl⟩ := fill_array_eq_ok.1 filled'
      cases sited.symm.trans sited'
      rw [ih _ inner.extent_lt_array typed typed' rfl]
    | object path path' members =>
      obtain ⟨entries, rfl, hentries⟩ := fill_object_eq_ok.1 filled
      obtain ⟨entries', rfl, hentries'⟩ := fill_object_eq_ok.1 filled'
      have same (m : Value) (e e' : Entry SchemaType) (he : e ∈ entries)
          (h : memberEntry (annotate types) slot.withDefaults path m = .ok e)
          (h' : memberEntry (annotate types) slot.withDefaults path' m = .ok e') : e = e' := by
        obtain ⟨site, type, sited, typed, rfl⟩ := memberEntry_eq_ok.1 h
        obtain ⟨site', type', sited', typed', rfl⟩ := memberEntry_eq_ok.1 h'
        cases sited.symm.trans sited'
        rw [ih _ (SchemaType.extent_lt_object he) typed typed' rfl]
      clear ih h h' outlined outlined' filled filled'
      congr 1
      induction hentries generalizing entries' with
      | nil => cases hentries'; rfl
      | cons head _ ih =>
        cases hentries' with
        | cons head' tail' =>
          rw [same _ _ _ List.mem_cons_self head head',
            ih _ tail' fun m e e' he => same m e e' (List.mem_cons_of_mem _ he)]

/-! ### What an alias expands to -/

/-- The expansion of what an annotation lists. -/
def ListExpands (types : Declarations) (node : Value) (d : Derivation) (l : List Value) : Prop :=
  ∃ listed, Lists [node] listed ∧ Expands types listed d l

theorem Lists.unique {listed' : List Value} (h : Lists [node] listed) (h' : Lists [node] listed') :
    listed = listed' := by
  have gathered : typeMembers .null node = .ok listed := typeMembers_eq_ok.2 h
  exact Except.ok.inj (gathered.symm.trans (typeMembers_eq_ok.2 h'))

theorem Lists.withoutReadonly (h : Lists [node] listed) : Lists [node.withoutReadonly] listed := by
  have same : typeMembers .null node.withoutReadonly = typeMembers .null node := by
    rw [typeMembers_eq, withoutReadonly_of_bare (bare_withoutReadonly node), ← typeMembers_eq]
  exact typeMembers_eq_ok.1 (same.trans (typeMembers_eq_ok.2 h))

theorem ListExpands.unique {d' : Derivation} {l' : List Value} (h : ListExpands types node d l)
    (h' : ListExpands types node d' l') : d = d' ∧ l = l' := by
  obtain ⟨listed, lists, expands⟩ := h
  obtain ⟨listed', lists', expands'⟩ := h'
  obtain rfl := lists.unique lists'
  exact expands.unique expands'

theorem ListExpands.withoutReadonly (h : ListExpands types node d l) :
    ListExpands types node.withoutReadonly d l := by
  obtain ⟨listed, lists, expands⟩ := h
  exact ⟨listed, lists.withoutReadonly, expands⟩

theorem Resolves.bare {followed names : List Scalar}
    (h : Resolves types followed node inner names) : ∀ i, ¬ Wraps inner i := by
  induction h with
  | here => exact bare_withoutReadonly _
  | follow _ _ _ ih => exact ih

/-- A reference lists itself. -/
theorem lists_of_reference (tag : node.hasTag "TSTypeReference") (bare : ∀ i, ¬ Wraps node i) :
    Lists [node] [node] :=
  .reference tag bare .nil

theorem hasTagIn_of_typeReference (tag : node.hasTag "TSTypeReference") :
    node.hasTagIn Value.referenceTags := by
  rw [Value.hasTagIn_of_hasTag tag]
  rfl

/-- **A reference to a declared type expands to what the type does.** -/
theorem ListExpands.of_reference (h : ListExpands types node d l)
    (tag : node.hasTag "TSTypeReference") (bare : ∀ i, ¬ Wraps node i)
    (named : node.referenceName = .scalar name) (declared : types.has name) :
    ∃ d', d = .inline d' .done ∧ ExpandsTo types name d' l := by
  obtain ⟨listed, lists, expands⟩ := h
  obtain rfl := lists.unique (lists_of_reference tag bare)
  cases expands with
  | property property =>
    rw [not_property_of_reference (hasTagIn_of_typeReference tag)] at property
    cases property
  | foreign _ named' undeclared =>
    obtain rfl := Value.scalar.inj (named.symm.trans named')
    rw [declared] at undeclared
    cases undeclared
  | @declared _ inner _ l _ d' _ name' _ named' declares inside rest =>
    obtain rfl := Value.scalar.inj (named.symm.trans named')
    cases rest
    exact ⟨d', rfl, inner, declares, by rwa [List.append_nil]⟩

/-- The expansion of an alias is that of its annotation. -/
theorem ExpandsTo.of_alias {declaration : Value} (h : ExpandsTo types name d l)
    (found : types.find? name = some declaration)
    (isAlias : declaration.hasTag "TSTypeAliasDeclaration") :
    ListExpands types (declaration.get "typeAnnotation") d l := by
  obtain ⟨listed, declares, expands⟩ := h
  cases declares with
  | ofInterface found' tag =>
    cases found.symm.trans found'
    exact absurd tag (Value.not_hasTag_of_hasTag isAlias (by simp))
  | ofAlias found' _ lists =>
    cases found.symm.trans found'
    exact ⟨listed, lists, expands⟩

/-- **What stands behind aliases** is what the annotation expands to, and each of them. -/
theorem Resolves.expands {followed names : List Scalar}
    (h : Resolves types followed node inner names) :
    (∀ d l, ListExpands types node d l → ∃ d', ListExpands types inner d' l ∧ d'.size ≤ d.size) ∧
      ∀ s ∈ names, ∀ d l, ExpandsTo types s d l →
        ∃ d', ListExpands types inner d' l ∧ d'.size ≤ d.size := by
  induction h with
  | here => exact ⟨fun d l h => ⟨d, h.withoutReadonly, Nat.le_refl _⟩, nofun⟩
  | @follow followed names node inner declaration name refers fresh behind ih =>
    have ofName (d : Derivation) (l : List Value) (h : ExpandsTo types name d l) :
        ∃ d', ListExpands types inner d' l ∧ d'.size ≤ d.size :=
      ih.1 d l (h.of_alias refers.found refers.isAlias)
    refine ⟨fun d l h => ?_, List.forall_mem_cons.2 ⟨ofName, ih.2⟩⟩
    obtain ⟨d', rfl, expands⟩ := h.withoutReadonly.of_reference refers.tag
      (bare_withoutReadonly node) refers.named (Table.has_of_find? refers.found)
    obtain ⟨d'', behind, size⟩ := ofName d' l expands
    exact ⟨d'', behind, by simp only [Derivation.size]; omega⟩

/-- An alias that stands behind itself was followed before. -/
theorem Resolves.onPath_of_refersToAlias {followed names : List Scalar} {declaration : Value}
    (h : Resolves types followed node inner names)
    (refers : RefersToAlias types inner name declaration) : onPath (followed ++ names) name := by
  induction h with
  | here stop =>
    rw [List.append_nil]
    exact stop name declaration refers
  | follow _ _ _ ih =>
    have later := ih refers
    rwa [List.append_assoc] at later

/-! ### The types around an annotation -/

/-- **A type on the path around an annotation** of a given type: of the members that it expands to,
not all are typed as something smaller. -/
def Encloses (types : Declarations) (withDefaults : Bool) (s : Scalar) (type : SchemaType) : Prop :=
  ∀ d l, ExpandsTo types s d l → ∃ m ∈ l, ∀ site path type',
    memberSite withDefaults m = .ok site → annotate types site.1 path site.2 = .ok type' →
      type.extent ≤ type'.extent

/-- Where the library has an array type the file declares no interface. -/
def ArraysAreLibrary (types : Declarations) : Prop :=
  ∀ name, libraryType? name = some .array →
    ((types.find? name).getD .null).hasTag "TSInterfaceDeclaration" = false

theorem truthy_of_libraryType? {library : LibraryType} (h : libraryType? name = some library) :
    name.truthy := by
  unfold libraryType? at h
  split at h <;> first | rfl | cases h

theorem Encloses.mono (h : Encloses types withDefaults s type) (le : type'.extent ≤ type.extent) :
    Encloses types withDefaults s type' := by
  intro d l expands
  obtain ⟨m, hm, large⟩ := h d l expands
  exact ⟨m, hm, fun site path t sited typed => Nat.le_trans le (large site path t sited typed)⟩

/-- **A type on the path of an object,** unless it was there before, expands to its members. -/
theorem eq_of_expandsTo_of_object (ahead : Ahead types path node inner aliases)
    (outlines : Outlines types (path ++ aliases) inner (.object path' members)) (hs : s ∈ path')
    (new : s ∉ path) (expands : ExpandsTo types s d l) : l = members := by
  have resolves := resolves_of_resolveAlias ahead.resolved
  cases outlines with
  | @literal listed _ tag lists flat =>
    have ahead_of := (List.mem_append.1 hs).resolve_left new
    obtain ⟨d', ⟨listed', lists', expands⟩, -⟩ := resolves.expands.2 s ahead_of d l expands
    obtain rfl := lists.unique lists'
    obtain ⟨d'', expands'⟩ := expands_of_flatten _ _ _ _ flat
    exact (expands.unique expands').2
  | @interface name _ tag named library declared fresh expanded =>
    obtain ⟨d', expands'⟩ := membersOf_eq_ok.1 expanded
    have ofName (d : Derivation) (h : ExpandsTo types name d l) : l = members :=
      (h.unique expands').2
    rcases List.mem_append.1 hs with hs | hs
    · have ahead_of := (List.mem_append.1 hs).resolve_left new
      obtain ⟨d', behind, -⟩ := resolves.expands.2 s ahead_of d l expands
      obtain ⟨d'', -, expands⟩ := behind.of_reference tag resolves.bare named
        (has_of_hasTag_find? declared)
      exact ofName d'' expands
    · obtain rfl := List.mem_singleton.1 hs
      exact ofName d expands

/-- A type on the path of an array, unless it was there before, is none to be spread. -/
theorem exists_mem_of_expandsTo_of_array {element : Value} (library : ArraysAreLibrary types)
    (ahead : Ahead types path node inner aliases)
    (outlines : Outlines types (path ++ aliases) inner (.array path' element)) (hs : s ∈ path')
    (new : s ∉ path) (expands : ExpandsTo types s d l) :
    ∃ m ∈ l, m.hasTag "TSPropertySignature" = false := by
  have resolves := resolves_of_resolveAlias ahead.resolved
  cases outlines with
  | array tag =>
    have ahead_of := (List.mem_append.1 hs).resolve_left new
    obtain ⟨d', ⟨listed, lists, -⟩, -⟩ := resolves.expands.2 s ahead_of d l expands
    -- an array type lists nothing
    cases lists with
    | layer wraps => exact absurd wraps (resolves.bare _)
    | literal tag' | intersection tag' | reference tag' =>
      exact absurd tag' (Value.not_hasTag_of_hasTag tag (by simp))
  | @wrapper name _ tag named array only =>
    have ahead_of := (List.mem_append.1 hs).resolve_left new
    obtain ⟨d', behind, -⟩ := resolves.expands.2 s ahead_of d l expands
    cases declared : types.has name with
    | false =>
      -- a reference to a type from elsewhere stays one
      obtain ⟨listed, lists, expands⟩ := behind
      obtain rfl := lists.unique (lists_of_reference tag resolves.bare)
      have reference := hasTagIn_of_typeReference tag
      cases expands with
      | property property => rw [not_property_of_reference reference] at property; cases property
      | foreign => exact ⟨inner, List.mem_cons_self, not_property_of_reference reference⟩
      | declared _ named' declares =>
        obtain rfl := Value.scalar.inj (named.symm.trans named')
        rw [declares.has] at declared
        cases declared
    | true =>
      -- no interface, so an alias that was followed before, and then it is a circle
      obtain ⟨d'', rfl, expands'⟩ := behind.of_reference tag resolves.bare named declared
      obtain ⟨listed, declares, -⟩ := id expands'
      cases declares with
      | ofInterface found interface =>
        have other := library name array
        rw [found, Option.getD_some, interface] at other
        cases other
      | @ofAlias declaration _ found isAlias lists =>
        have back := resolves.onPath_of_refersToAlias
          ⟨tag, named, truthy_of_libraryType? array, found, isAlias⟩
        obtain ⟨a, ha, same⟩ := List.any_eq_true.1 back
        obtain ⟨members, declares, inside⟩ := id expands'
        obtain ⟨d₁, behind₁, size⟩ := resolves.expands.2 a ha d'' l
          ⟨members, declares.congr (Scalar.same_symm same), inside⟩
        rw [(behind₁.unique behind).1, Derivation.size] at size
        omega

/-- The types on a path are around an annotation of a given type. -/
def Surrounded (types : Declarations) (withDefaults : Bool) (path : List Scalar)
    (type : SchemaType) : Prop :=
  ∀ s ∈ path, Encloses types withDefaults s type

theorem surrounded_nil (types : Declarations) (withDefaults : Bool) (type : SchemaType) :
    Surrounded types withDefaults [] type := nofun

/-- **What is around an annotation is around what is inside it,** and so is the annotation. -/
theorem Surrounded.asks {query asked : Query}
    (around : Surrounded types query.slot.withDefaults query.path type)
    (library : ArraysAreLibrary types) (h : Asks types query asked)
    (typed : asked.answer (annotate types) = .ok type') (le : type'.extent ≤ type.extent) :
    Surrounded types asked.slot.withDefaults asked.path type' := by
  obtain ⟨inner, aliases, o, ahead, outlines, asks⟩ := h.outlines
  rw [asks_withDefaults h]
  intro s hs
  by_cases old : s ∈ query.path
  · exact (around s old).mono le
  · intro d l expands
    cases asks with
    | element sited =>
      obtain ⟨m, hm, other⟩ :=
        exists_mem_of_expandsTo_of_array library ahead outlines hs old expands
      refine ⟨m, hm, fun site path t sited _ => ?_⟩
      rw [(readsMember_of_memberSite sited).property] at other
      cases other
    | @member _ members m site hm sited =>
      obtain rfl := eq_of_expandsTo_of_object ahead outlines hs old expands
      refine ⟨m, hm, fun site' path t sited' typed' => ?_⟩
      cases sited.symm.trans sited'
      exact Nat.le_of_eq (congrArg SchemaType.extent (annotate_unique typed typed'))

/-! ### The guard -/

/-- **Members that are typed are flattened on the path around them.** -/
theorem flatten_enclosed (around : Surrounded types slot.withDefaults path type)
    (ahead : Ahead types path node inner aliases) (tag : inner.hasTag "TSTypeReference")
    (named : inner.referenceName = .scalar name) (declares : Declares types name listed)
    (expanded : membersOf types name = .ok members)
    (filled : (Outline.object path' members).fill (annotate types) slot = .ok type) :
    flatten types (path ++ aliases ++ [name]) listed = .ok members := by
  have resolves := resolves_of_resolveAlias ahead.resolved
  obtain ⟨entries, rfl, hentries⟩ := fill_object_eq_ok.1 filled
  obtain ⟨d, listed', declares', expands⟩ := membersOf_eq_ok.1 expanded
  obtain rfl := declares.unique declares'
  have ofName (d' : Derivation) (l : List Value) (h : ExpandsTo types name d' l) : d = d' :=
    (ExpandsTo.unique ⟨listed, declares, expands⟩ h).1
  refine flatten_of_expands_apart expands fun s hs dₛ lₛ hdₛ below => ?_
  rcases List.mem_append.1 hs with hs | hs
  · rcases List.mem_append.1 hs with hs | hs
    -- a type around the annotation would bring in a member that is typed as something too large
    · obtain ⟨m, hm, large⟩ := around s hs dₛ lₛ hdₛ
      obtain ⟨e, he, entry⟩ := exists_mem_of_forall₂ hentries (below hm)
      obtain ⟨site, type, sited, typed, rfl⟩ := memberEntry_eq_ok.1 entry
      exact absurd (large site path' type sited typed)
        (Nat.not_le_of_lt (SchemaType.extent_lt_object he))
    -- an alias in front of the annotation expands to what the annotation does
    · obtain ⟨d', behind, size⟩ := resolves.expands.2 s hs dₛ lₛ hdₛ
      obtain ⟨d'', rfl, expands'⟩ := behind.of_reference tag resolves.bare named declares.has
      rw [Derivation.size, ← ofName d'' lₛ expands'] at size
      omega
  · obtain rfl := List.mem_singleton.1 hs
    exact Nat.le_of_eq (congrArg Derivation.size (ofName dₛ lₛ hdₛ))

end ComponentSpec
