import ComponentSpec.Proofs.Circle
import ComponentSpec.Proofs.Enclosing

/-!
# The guard and the aliases leave no trace

The path of local types around an annotation is there to stop circles. It decides whether there is a
type, and what it decides it decides in one direction: on a path with fewer names nothing more is
refused (`annotate_of_covers`). Nor is a type other than what it was, since an annotation has one
type only.

An alias is what it stands for. Following a reference to an alias puts its name on the path and goes
on with its annotation (`annotate_behind_alias_of_stop`), unless the chain of aliases comes back to
one of them. A chain without a circle ends at an annotation that refers to no alias
(`not_refersToAlias_of_uncircled`), and then the name can be taken off the path again.

* `Covers`, `Outline.Covers` — paths with more names, and outlines on them;
* `Behind`, `Uncircled` — the chain of aliases behind an alias;
* `annotate_transparent` — fewer names on the path, and the annotation of an alias in its place.
-/

namespace ComponentSpec

open Checked

variable {types : Declarations} {slot : Slot} {path path' aliases : List Scalar}
  {node inner declaration : Value} {name : Scalar} {type : SchemaType} {members l : List Value}
  {o : Outline}

/-! ### Fewer names on the path -/

/-- **A path with all the names of another,** and perhaps more. -/
def Covers (path path' : List Scalar) : Prop := ∀ s, onPath path' s → onPath path s

theorem Covers.append (h : Covers path path') (names : List Scalar) :
    Covers (path ++ names) (path' ++ names) := by
  intro s hs
  simp only [onPath, List.any_append, Bool.or_eq_true] at hs ⊢
  exact hs.imp_left (h s)

theorem Covers.fresh (h : Covers path path') {s : Scalar} (fresh : onPath path s = false) :
    onPath path' s = false := by
  by_contra back
  rw [Bool.not_eq_false] at back
  rw [h s back] at fresh
  cases fresh

/-- What is flattened on a path is flattened where it has fewer names. -/
theorem flatten_of_covers (covers : Covers path path') (h : flatten types path members = .ok l) :
    flatten types path' members = .ok l := by
  -- along the recursion, in which both paths grow by the same names
  induction path, members using flatten.induct types generalizing path' l with
  | case1 path => rwa [flatten_nil] at h ⊢
  | case2 path member members tag ih =>
    rw [flatten_cons_property tag] at h ⊢
    obtain ⟨rest, flat, rfl⟩ := map_eq_ok.1 h
    rw [ih covers flat, map_ok]
  | case3 path member members _ tag ihInner ihRest =>
    cases role types member with
    | property prop => rw [not_property_of_reference tag] at prop; cases prop
    | unnamed _ unnamed => rw [flatten_cons_unnamed tag unnamed] at h; cases h
    | foreign _ name named undeclared =>
      rw [flatten_cons_foreign tag named undeclared] at h ⊢
      obtain ⟨rest, flat, rfl⟩ := map_eq_ok.1 h
      rw [ihRest covers flat, map_ok]
    | declared _ name named declared =>
      cases back : onPath path name with
      | true => rw [flatten_cons_back tag named declared back] at h; cases h
      | false =>
        rw [flatten_cons_declared tag named declared back] at h
        obtain ⟨inner, declares, h⟩ := bind_eq_ok.1 h
        obtain ⟨inlined, inside, h⟩ := bind_eq_ok.1 h
        obtain ⟨rest, flat, rfl⟩ := map_eq_ok.1 h
        have inside' := ihInner name declared (by simp [back]) inner (covers.append [name]) inside
        rw [flatten_cons_declared tag named declared (covers.fresh back), declares, ok_bind,
          inside', ok_bind, ihRest covers flat, map_ok]
    | other _ noReference => rw [tag] at noReference; cases noReference
  | case4 path member members noProperty noReference =>
    rw [flatten_cons_other (by simpa using noProperty) (by simpa using noReference)] at h
    cases h

/-- **Outlines of the same thing,** the first on a path with all the names of the other. -/
inductive Outline.Covers : Outline → Outline → Prop where
  | leaf (type : SchemaType) : Covers (.leaf type) (.leaf type)
  | array {path path' : List Scalar} (element : Value) (covers : ComponentSpec.Covers path path') :
      Covers (.array path element) (.array path' element)
  | object {path path' : List Scalar} (members : List Value)
      (covers : ComponentSpec.Covers path path') :
      Covers (.object path members) (.object path' members)

theorem outlines_of_covers (covers : Covers path path') (h : Outlines types path node o) :
    ∃ o', Outlines types path' node o' ∧ o.Covers o' := by
  cases h with
  | array tag => exact ⟨_, .array tag, .array _ covers⟩
  | wrapper tag named library only =>
    exact ⟨_, .wrapper tag named library only, .array _ covers⟩
  | literal tag lists flat =>
    exact ⟨_, .literal tag lists (flatten_of_covers covers flat), .object _ covers⟩
  | @interface name members tag named library declared fresh expanded =>
    exact ⟨_, .interface tag named library declared (covers.fresh fresh) expanded,
      .object _ (covers.append [name])⟩

/-- Where nothing is inside, the path has no part. -/
theorem formOutline_eq_leaf (h : formOutline types slot path node = .ok (.leaf type))
    (path' : List Scalar) : formOutline types slot path' node = .ok (.leaf type) := by
  obtain ⟨form, hform, h⟩ := bind_eq_ok.1 h
  rw [formOutline, hform, ok_bind]
  cases form with
  | basic | choice => exact h
  | number | other | array => cases h
  | object =>
    obtain ⟨listed, -, h⟩ := bind_eq_ok.1 h
    obtain ⟨members, -, h⟩ := bind_eq_ok.1 h
    cases h
  | reference =>
    obtain ⟨reference, named, h⟩ := bind_eq_ok.1 h
    simp only [referenceOutline, named, ok_bind]
    -- only a type of the library has nothing inside
    generalize libraryType? reference = library at h ⊢
    cases library with
    | some library =>
      cases library with
      | basic | reserved | mixed => exact h
      | array =>
        simp only at h
        split at h <;> cases h
    | none =>
      simp only at h
      split at h
      · split at h
        · cases h
        · obtain ⟨members, -, h⟩ := bind_eq_ok.1 h
          cases h
      · cases h

theorem outline_of_covers (covers : Covers path path') (h : outline types slot path node = .ok o) :
    ∃ o', outline types slot path' node = .ok o' ∧ o.Covers o' := by
  obtain ⟨inner, aliases, ahead, formed⟩ := ahead_of_outline_eq_ok h
  -- what lies ahead is not on the path with fewer names either
  have ahead' : Ahead types path' node inner aliases :=
    ⟨ahead.resolved, fun a ha => covers.fresh (ahead.fresh a ha)⟩
  rw [outline_of_ahead ahead']
  rcases yields_formOutline _ _ _ _ o formed with ⟨type, rfl⟩ | outlines
  · exact ⟨_, formOutline_eq_leaf formed _, .leaf type⟩
  · obtain ⟨o', outlines', covered⟩ := outlines_of_covers (covers.append aliases) outlines
    exact ⟨o', formOutline_of_outlines outlines' slot, covered⟩

/-- **On a path with fewer names nothing more is refused:** an annotation has the type that it has
on a path with more of them. -/
theorem annotate_of_covers (covers : Covers path path')
    (h : annotate types slot path node = .ok type) : annotate types slot path' node = .ok type := by
  -- by the extent of the type, since what is inside is smaller
  induction hn : type.extent using Nat.strongRecOn generalizing slot path path' node type with
  | _ n ih =>
    subst hn
    obtain ⟨o, outlined, filled⟩ := annotate_eq_ok.1 h
    obtain ⟨o', outlined', covered⟩ := outline_of_covers covers outlined
    refine annotate_eq_ok.2 ⟨o', outlined', ?_⟩
    cases covered with
    | leaf type => exact filled
    | array element covers =>
      obtain ⟨site, inner, sited, typed, rfl⟩ := fill_array_eq_ok.1 filled
      exact fill_array_eq_ok.2
        ⟨site, inner, sited, ih _ inner.extent_lt_array covers typed rfl, rfl⟩
    | object members covers =>
      obtain ⟨entries, rfl, hentries⟩ := fill_object_eq_ok.1 filled
      refine fill_object_eq_ok.2 ⟨entries, rfl, ?_⟩
      -- each member, with its entry among those that are inside
      have inside := (List.forall₂_and_left _ _).2 ⟨fun e (he : e ∈ entries) => he, hentries.flip⟩
      refine (inside.imp fun e member ⟨he, entered⟩ => ?_).flip
      obtain ⟨site, type, sited, typed, rfl⟩ := memberEntry_eq_ok.1 entered
      exact memberEntry_eq_ok.2
        ⟨site, type, sited, ih _ (SchemaType.extent_lt_object he) covers typed rfl, rfl⟩

/-! ### Chains of aliases -/

/-- **The alias that stands directly behind another.** -/
inductive Behind (types : Declarations) (name next : Scalar) : Prop where
  | directly {declaration declaration' : Value} (found : types.find? name = some declaration)
      (isAlias : declaration.hasTag "TSTypeAliasDeclaration")
      (refers : RefersToAlias types (declaration.get "typeAnnotation").withoutReadonly next
        declaration') : Behind types name next

/-- **A chain of aliases without a circle:** on the way on from an alias no name comes again. -/
def Uncircled (types : Declarations) (name : Scalar) : Prop :=
  ∀ s s', Relation.ReflTransGen (Behind types) name s → Relation.TransGen (Behind types) s s' →
    s.same s' = false

/-- **The aliases that are followed make up the chain.** What is left at the end refers to the next
alias of the chain, if to any. -/
theorem Resolves.chained {followed names : List Scalar}
    (h : Resolves types followed node inner names)
    (found : types.find? name = some declaration)
    (isAlias : declaration.hasTag "TSTypeAliasDeclaration")
    (annotated : node = declaration.get "typeAnnotation") :
    ∀ s ∈ name :: names, Relation.ReflTransGen (Behind types) name s ∧
      ∀ last declaration', RefersToAlias types inner last declaration' →
        Relation.TransGen (Behind types) s last := by
  induction h generalizing name declaration with
  | here =>
    subst annotated
    rintro s hs
    obtain rfl := List.mem_singleton.1 hs
    exact ⟨.refl, fun last _ refers => .single (.directly found isAlias refers)⟩
  | follow refers _ _ ih =>
    subst annotated
    have first : Behind types name _ := .directly found isAlias refers
    have later := ih refers.found refers.isAlias rfl
    intro s hs
    rcases List.mem_cons.1 hs with rfl | further
    · refine ⟨.refl, ?_⟩
      intro last declaration' refers'
      exact .head first ((later _ List.mem_cons_self).2 last declaration' refers')
    · exact ⟨.head first (later s further).1, (later s further).2⟩

/-- **A chain without a circle ends** at an annotation that refers to no alias. -/
theorem not_refersToAlias_of_uncircled {names : List Scalar} (uncircled : Uncircled types name)
    (refers : RefersToAlias types node name declaration) (bare : ∀ i, ¬ Wraps node i)
    (h : Resolves types [] node inner names) (last : Scalar) (declaration' : Value) :
    ¬ RefersToAlias types inner last declaration' := by
  intro leads
  -- what is left would refer to an alias that was followed before
  have back := h.onPath_of_refersToAlias leads
  cases h with
  | here =>
    simp [onPath] at back
  | follow refers' _ behind =>
    rw [withoutReadonly_of_bare bare] at refers'
    cases refers.named.symm.trans refers'.named
    cases refers.found.symm.trans refers'.found
    obtain ⟨s, hs, same⟩ := List.any_eq_true.1 back
    obtain ⟨reached, onwards⟩ := behind.chained refers.found refers.isAlias rfl s hs
    rw [uncircled s last reached (onwards last declaration' leads)] at same
    cases same

/-- What has an outline and refers to no alias is none. -/
theorem aliasOf_eq_none (formed : formOutline types slot path node = .ok o)
    (noAlias : ∀ name declaration, ¬ RefersToAlias types node name declaration) :
    aliasOf types node = .ok none := by
  cases tag : node.hasTag "TSTypeReference" with
  | false => exact aliasOf_of_not_reference tag
  | true =>
    -- a reference with an outline has a name that can be looked up
    rw [formOutline_of_reference tag] at formed
    obtain ⟨name, named, -⟩ := bind_eq_ok.1 formed
    cases found : aliasOf types node with
    | ok target =>
      match target with
      | none => rfl
      | some (name, declaration) =>
        exact absurd (aliasOf_eq_some.1 found) (noAlias name declaration)
    | error f =>
      simp only [aliasOf, tag, if_true, named] at found
      split at found <;> cases found

/-! ### Aliases -/

/-- A reference to an alias with a name that counts as nothing is not followed, and has no type. -/
theorem not_typed_of_untruthy (tag : node.hasTag "TSTypeReference")
    (named : node.referenceName = .scalar name) (untruthy : name.truthy = false)
    (bare : ∀ i, ¬ Wraps node i) (found : types.find? name = some declaration)
    (isAlias : declaration.hasTag "TSTypeAliasDeclaration") :
    annotate types slot path node ≠ .ok type := by
  intro h
  obtain ⟨o, outlined, -⟩ := annotate_eq_ok.1 h
  have stop : aliasOf types node = .ok none := by
    simp [aliasOf, tag, named, Value.truthy, untruthy]
  have noInterface : ((types.find? name).getD .null).hasTag "TSInterfaceDeclaration" = false := by
    simp [found, Value.hasTag_of_hasTag isAlias]
  have noLibrary : libraryType? name = none := by
    by_contra library
    obtain ⟨library, h⟩ := Option.ne_none_iff_exists'.1 library
    rw [truthy_of_libraryType? h] at untruthy
    cases untruthy
  rw [outline_of_bare bare stop, formOutline_of_reference tag, referenceOutline, named] at outlined
  simp [Value.key, noLibrary, noInterface] at outlined

/-- **What an alias stands for** has the type of a reference to it, on the same path. -/
theorem annotate_alias (found : types.find? name = some declaration)
    (isAlias : declaration.hasTag "TSTypeAliasDeclaration")
    (other : ∀ s ∈ readonlyWrappers, name ≠ .str s) (uncircled : Uncircled types name)
    (tag : node.hasTag "TSTypeReference") (named : node.referenceName = .scalar name)
    (h : annotate types slot path node = .ok type) :
    annotate types slot path (declaration.get "typeAnnotation") = .ok type := by
  have bare := bare_of_reference tag named other
  by_cases truthy : name.truthy
  · have refers : RefersToAlias types node name declaration := ⟨tag, named, truthy, found, isAlias⟩
    -- behind the alias its name is on the path, where it makes no difference
    have behind := annotate_behind_alias_of_stop refers bare (fun inner aliases o ahead formed =>
      aliasOf_eq_none formed (not_refersToAlias_of_uncircled uncircled refers bare
        (resolves_of_resolveAlias ahead.resolved))) h
    apply annotate_of_covers ?_ behind
    intro s hs
    simp only [onPath, List.any_append, Bool.or_eq_true] at hs ⊢
    exact .inl hs
  · exact absurd h (not_typed_of_untruthy tag named (by simpa using truthy) bare found isAlias)

/-- **The guard and the aliases leave no trace.** An annotation that has a type on a path has the
same type on every path whose names are among those of the path. A reference to an alias whose chain
comes back to no name has the type of the annotation that the alias stands for, in the same slot and
on the same path. -/
theorem annotate_transparent (types : Declarations) (slot : Slot) (type : SchemaType) :
    (∀ path path' node, (∀ s, onPath path' s → onPath path s) →
      annotate types slot path node = .ok type → annotate types slot path' node = .ok type) ∧
    (∀ name declaration, types.find? name = some declaration →
      declaration.hasTag "TSTypeAliasDeclaration" → (∀ s ∈ readonlyWrappers, name ≠ .str s) →
      Uncircled types name → ∀ node path, node.hasTag "TSTypeReference" →
      node.referenceName = .scalar name → annotate types slot path node = .ok type →
      annotate types slot path (declaration.get "typeAnnotation") = .ok type) := by
  constructor
  · intro path path' node covers typed
    exact annotate_of_covers covers typed
  · intro name declaration found isAlias other uncircled node path tag named typed
    exact annotate_alias found isAlias other uncircled tag named typed

namespace Sample

/-- A size that is a length, and a length that is a number. -/
def lengths : Declarations := table [
  ("Size", aliasNamed "Size" (reference "Length" [])),
  ("Length", aliasNamed "Length" (reference "Double" []))]

/-- The slot of a width. -/
def widthSlot : Slot := ⟨.str "width", false, false, none, false⟩

/-- Only behind the size an alias stands, the length. -/
theorem behind_lengths {name next : Scalar} (h : Behind lengths name next) :
    name = .str "Size" ∧ next = .str "Length" := by
  obtain ⟨found, -, refers⟩ := h
  have named := refers.named
  have declared := refers.found
  simp only [lengths, table, List.map_cons, List.map_nil, Table.find?_cons, Table.find?_nil]
    at found
  split at found
  · next size =>
    obtain rfl := Option.some.inj found
    have length : ((aliasNamed "Size" (reference "Length" [])).get
        "typeAnnotation").withoutReadonly.referenceName = .str "Length" := by
      with_unfolding_all rfl
    exact ⟨Scalar.eq_str_of_same size, (Value.scalar.inj (length.symm.trans named)).symm⟩
  · split at found
    · obtain rfl := Option.some.inj found
      have double : ((aliasNamed "Length" (reference "Double" [])).get
          "typeAnnotation").withoutReadonly.referenceName = .str "Double" := by
        with_unfolding_all rfl
      -- a number of the library, which is not declared here
      rw [← Value.scalar.inj (double.symm.trans named)] at declared
      cases declared
    · cases found

theorem uncircled_lengths : Uncircled lengths (.str "Size") := by
  intro s s' reached onwards
  obtain ⟨next, first, rest⟩ := Relation.TransGen.head'_iff.1 onwards
  obtain ⟨rfl, rfl⟩ := behind_lengths first
  -- nothing stands behind the length
  rcases rest.cases_head with rfl | ⟨_, step, -⟩
  · decide +kernel
  · exact absurd (behind_lengths step).1 (by decide)

end Sample

open Sample in
/-- A size is a number inside `Props` and outside, and so is the length that it stands for. -/
theorem annotate_transparent_lengths :
    annotate lengths widthSlot [.str "Props"] (reference "Size" []) = .ok (.basic .double none) ∧
      annotate lengths widthSlot [] (reference "Size" []) = .ok (.basic .double none) ∧
      Uncircled lengths (.str "Size") ∧
      annotate lengths widthSlot [.str "Props"] (reference "Length" []) =
        .ok (.basic .double none) := by
  have outlined : outline lengths widthSlot [.str "Props"] (reference "Size" []) =
      .ok (.leaf (.basic .double none)) := by with_unfolding_all rfl
  have typed : annotate lengths widthSlot [.str "Props"] (reference "Size" []) =
      .ok (.basic .double none) := annotate_of_outline outlined
  have transparent := annotate_transparent lengths widthSlot (.basic .double none)
  refine ⟨typed, transparent.1 _ [] _ (by simp [onPath]) typed, uncircled_lengths, ?_⟩
  exact transparent.2 (.str "Size") (aliasNamed "Size" (reference "Length" [])) rfl rfl
    (by simp [readonlyWrappers]) uncircled_lengths _ [.str "Props"] rfl
    (referenceName_reference _ _) typed

end ComponentSpec
