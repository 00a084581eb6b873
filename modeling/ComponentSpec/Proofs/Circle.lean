import Mathlib.Logic.Relation
import ComponentSpec.Proofs.Plain

/-!
# Circles of types

A type that leads back to itself has no finite description, and typing it fails. `Leads` follows an
annotation one step on: through a readonly wrapper or parentheses, a local alias, an array, a union,
to the annotation of a member of an object type or of a local interface, its own or inherited.

Suppose that a reference to such a type had a type, whatever the slot and the path. Typing follows
every step (`Met.leads`): what a step leads to has been met as well, on a path that has grown by the
names of the aliases and interfaces passed, or nothing leads on from it. So the reference at the end
of the circle would be met on a path with its own name, where it is refused (`not_met_of_onPath`).

* `NoBuiltins` — no declaration takes the name of a type that has a meaning of its own;
* `Leads` — one step from annotation to annotation;
* `Typed`, `Met` — what holds of an annotation that typing meets;
* `plain_recursion_ends_and_circles_fail` — every plain recursion ends, and fails on a circle.
-/

namespace ComponentSpec

open Checked

variable {types : Declarations} {slot : Slot} {path aliases : List Scalar}
  {node inner member : Value} {name : Scalar} {o : Outline}

/-! ### Names with a meaning -/

/-- The names of types that need no declaration, and of wrappers. -/
def builtinNames : List String :=
  ["Int32", "Double", "Float", "ColorValue", "ProcessedColorValue", "ImageSource", "PointValue",
    "EdgeInsetsValue", "ImageRequest", "DimensionValue", "UnsafeMixed", "Array", "ReadonlyArray",
    "Readonly", "$ReadOnly", "WithDefault"]

/-- No declaration takes the name of a type that has a meaning of its own. -/
def NoBuiltins (types : Declarations) : Prop := ∀ s ∈ builtinNames, types.has (.str s) = false

theorem mem_builtinNames_of_libraryType? {type : LibraryType} (h : libraryType? name = some type) :
    ∃ s ∈ builtinNames, name = .str s := by
  unfold libraryType? at h
  split at h <;> first | exact ⟨_, by decide, rfl⟩ | cases h

theorem libraryType?_eq_none (builtins : NoBuiltins types) (declared : types.has name) :
    libraryType? name = none := by
  cases h : libraryType? name with
  | none => rfl
  | some type =>
    obtain ⟨s, hs, rfl⟩ := mem_builtinNames_of_libraryType? h
    rw [builtins s hs] at declared
    cases declared

/-- A reference wraps nothing unless it names a readonly wrapper. -/
theorem bare_of_reference (tag : node.hasTag "TSTypeReference")
    (named : node.referenceName = .scalar name) (other : ∀ s ∈ readonlyWrappers, name ≠ .str s)
    (i : Value) : ¬ Wraps node i := by
  rintro (tag' | ⟨tag', -⟩ | ⟨-, readonly, -⟩)
  · simp [Value.hasTag_of_hasTag tag] at tag'
  · simp [Value.hasTag_of_hasTag tag] at tag'
  · obtain ⟨s, hs, hname⟩ := Value.isOneOf_iff.1 readonly
    exact other s hs (Value.scalar.inj (named.symm.trans hname))

/-- A reference to a declared type wraps nothing. -/
theorem bare_of_declared (builtins : NoBuiltins types) (tag : node.hasTag "TSTypeReference")
    (named : node.referenceName = .scalar name) (declared : types.has name) (i : Value) :
    ¬ Wraps node i := by
  refine bare_of_reference tag named (fun s hs => ?_) i
  rintro rfl
  have wrappers : readonlyWrappers ⊆ builtinNames := by decide
  rw [builtins s (wrappers hs)] at declared
  cases declared

/-! ### Following an annotation -/

/-- **A property of a declared type,** its own or inherited. -/
inductive HasMember (types : Declarations) : Scalar → Value → Prop where
  | own {name : Scalar} {members : List Value} {member : Value}
      (declares : Declares types name members) (mem : member ∈ members)
      (property : member.hasTag "TSPropertySignature") : HasMember types name member
  | inherited {name base : Scalar} {members : List Value} {reference member : Value}
      (declares : Declares types name members) (mem : reference ∈ members)
      (tag : reference.hasTagIn Value.referenceTags)
      (named : reference.referenceName = .scalar base) (inside : HasMember types base member) :
      HasMember types name member

/-- **Where an annotation leads.** -/
inductive Leads (types : Declarations) : Value → Value → Prop where
  | layer {node inner : Value} (wraps : Wraps node inner) : Leads types node inner
  | behind {node declaration : Value} {name : Scalar} (tag : node.hasTag "TSTypeReference")
      (named : node.referenceName = .scalar name) (found : types.find? name = some declaration)
      (isAlias : declaration.hasTag "TSTypeAliasDeclaration") :
      Leads types node (declaration.get "typeAnnotation")
  | element {node : Value} (tag : node.hasTag "TSArrayType") :
      Leads types node (node.get "elementType")
  | argument {node element : Value} {name : Scalar} (tag : node.hasTag "TSTypeReference")
      (named : node.referenceName = .scalar name) (library : libraryType? name = some .array)
      (only : node.typeArguments = [element]) : Leads types node element
  | union {node member : Value} {members : List Value} (tag : node.hasTag "TSUnionType")
      (listed : (node.get "types").elements = .ok members) (mem : member ∈ members) :
      Leads types node member
  | literal {node member : Value} {members : List Value} (tag : node.hasTag "TSTypeLiteral")
      (listed : (node.get "members").elements = .ok members) (mem : member ∈ members)
      (property : member.hasTag "TSPropertySignature") : Leads types node member.memberType
  | interface {node member : Value} {name : Scalar} (tag : node.hasTag "TSTypeReference")
      (named : node.referenceName = .scalar name)
      (declared : ((types.find? name).getD .null).hasTag "TSInterfaceDeclaration")
      (has : HasMember types name member) : Leads types node member.memberType

theorem Expands.mem_of_property {members l : List Value} {d : Derivation}
    (h : Expands types members d l) (property : member.hasTag "TSPropertySignature")
    (mem : member ∈ members) : member ∈ l := by
  induction h with
  | nil => cases mem
  | property _ _ ih | foreign _ _ _ _ ih =>
    rcases List.mem_cons.1 mem with rfl | mem
    · exact List.mem_cons_self
    · exact List.mem_cons_of_mem _ (ih mem)
  | declared tag _ _ _ _ _ ih =>
    rcases List.mem_cons.1 mem with rfl | mem
    · rw [not_property_of_reference tag] at property
      cases property
    · exact List.mem_append_right _ (ih mem)

/-- What a declared type among the members expands to is in the expansion. -/
theorem Expands.exists_of_reference {members l : List Value} {d : Derivation} {reference : Value}
    (h : Expands types members d l) (tag : reference.hasTagIn Value.referenceTags)
    (named : reference.referenceName = .scalar name) (declared : types.has name)
    (mem : reference ∈ members) : ∃ d' l', ExpandsTo types name d' l' ∧ ∀ m ∈ l', m ∈ l := by
  induction h with
  | nil => cases mem
  | property property _ ih =>
    rcases List.mem_cons.1 mem with rfl | mem
    · rw [not_property_of_reference tag] at property
      cases property
    · obtain ⟨d', l', expands, sub⟩ := ih mem
      exact ⟨d', l', expands, fun m hm => List.mem_cons_of_mem _ (sub m hm)⟩
  | foreign _ named' undeclared _ ih =>
    rcases List.mem_cons.1 mem with rfl | mem
    · cases named.symm.trans named'
      rw [declared] at undeclared
      cases undeclared
    · obtain ⟨d', l', expands, sub⟩ := ih mem
      exact ⟨d', l', expands, fun m hm => List.mem_cons_of_mem _ (sub m hm)⟩
  | declared _ named' declares inside _ _ ih =>
    rcases List.mem_cons.1 mem with rfl | mem
    · cases named.symm.trans named'
      exact ⟨_, _, ⟨_, declares, inside⟩, fun m hm => List.mem_append_left _ hm⟩
    · obtain ⟨d', l', expands, sub⟩ := ih mem
      exact ⟨d', l', expands, fun m hm => List.mem_append_right _ (sub m hm)⟩

theorem HasMember.has (h : HasMember types name member) : types.has name := by
  cases h with
  | own declares | inherited declares => exact declares.has

/-- The expansion of a type has all its properties, own or inherited. -/
theorem HasMember.mem_of_expandsTo {l : List Value} {d : Derivation}
    (h : HasMember types name member) (expands : ExpandsTo types name d l) : member ∈ l := by
  -- on the way from the declaration to the property
  induction h generalizing d l with
  | own declares mem property =>
    obtain ⟨members, declares', expands⟩ := expands
    obtain rfl := declares.unique declares'
    exact expands.mem_of_property property mem
  | inherited declares mem tag named inside ih =>
    obtain ⟨members, declares', expands⟩ := expands
    obtain rfl := declares.unique declares'
    obtain ⟨d', l', expands', sub⟩ := expands.exists_of_reference tag named inside.has mem
    exact sub _ (ih expands')

/-! ### What typing meets -/

/-- An annotation with a type, in some slot. -/
def Typed (types : Declarations) (path : List Scalar) (node : Value) : Prop :=
  ∃ slot t, annotate types slot path node = .ok t

/-- An annotation that leads nowhere: a literal, `null`, or a type with a declared default. -/
def Final (node : Value) : Prop :=
  node.hasTagIn ["TSNullKeyword", "TSUndefinedKeyword", "TSLiteralType"] ∨
    node.hasTag "TSTypeReference" ∧ node.referenceName = .str "WithDefault"

/-- **An annotation that typing has met:** it has a type, or what is left of it without `null` has,
or nothing leads on from it. -/
inductive Met (types : Declarations) (path : List Scalar) (node : Value) : Prop where
  | typed (typed : Typed types path node)
  | final (final : Final node)
  | split {rest : Value} {nullable : Bool} (split : node.splitNullable = .ok (rest, nullable))
      (rest : Typed types path rest ∨ Final rest)

theorem Final.not_leads (builtins : NoBuiltins types) (h : Final node) (next : Value) :
    ¬ Leads types node next := by
  -- a reference that is final is to `WithDefault`, which is neither declared nor a wrapper
  have other {tag : String} (htag : node.hasTag tag)
      (ne : tag ∉ ["TSNullKeyword", "TSUndefinedKeyword", "TSLiteralType", "TSTypeReference"]) :
      False := by
    rcases h with h | ⟨h, -⟩
    · rw [Value.hasTagIn_of_hasTag htag, List.contains_iff_mem] at h
      exact ne (by simp at h ⊢; tauto)
    · rw [Value.hasTag_of_hasTag htag, decide_eq_true_eq] at h
      exact ne (by simp [h])
  have named {name : Scalar} (tag : node.hasTag "TSTypeReference")
      (named : node.referenceName = .scalar name) : name = .str "WithDefault" := by
    rcases h with h | ⟨-, h⟩
    · rw [Value.hasTagIn_of_hasTag tag] at h
      simp at h
    · rw [h] at named
      exact (Value.scalar.inj named).symm
  have undeclared := builtins "WithDefault" (by decide)
  intro leads
  cases leads with
  | layer wraps =>
    cases wraps with
    | parentheses tag => exact other tag (by simp)
    | operator tag => exact other tag (by simp)
    | wrapper tag readonly =>
      obtain ⟨s, hs, hname⟩ := Value.isOneOf_iff.1 readonly
      cases named tag hname
      simp [readonlyWrappers] at hs
  | behind tag hname found =>
    cases named tag hname
    rw [Table.find?_eq_none undeclared] at found
    cases found
  | element tag | union tag | literal tag => exact other tag (by simp)
  | argument tag hname library =>
    cases named tag hname
    cases library
  | interface tag hname declared =>
    cases named tag hname
    rw [has_of_hasTag_find? declared] at undeclared
    cases undeclared

theorem Met.of_array {element : Value} {t : SchemaType}
    (h : (Outline.array path element).fill (annotate types) slot = .ok t) :
    Met types path element := by
  obtain ⟨site, sited, h⟩ := bind_eq_ok.1 h
  obtain ⟨t', ht', -⟩ := bind_eq_ok.1 h
  obtain ⟨-, nullable, split⟩ := elementSite_eq_ok sited
  exact .split split (Or.inl ⟨_, t', ht'⟩)

theorem Met.of_object {members : List Value} {t : SchemaType}
    (h : (Outline.object path members).fill (annotate types) slot = .ok t)
    (mem : member ∈ members) : Met types path member.memberType := by
  obtain ⟨entries, hentries, -⟩ := bind_eq_ok.1 h
  obtain ⟨entry, hentry⟩ := exists_of_mem_of_mapM_eq_ok hentries mem
  obtain ⟨site, sited, hentry⟩ := bind_eq_ok.1 hentry
  obtain ⟨t', ht', -⟩ := bind_eq_ok.1 hentry
  obtain ⟨rest, nullable, split, h⟩ := (readsMember_of_memberSite sited).typed
  refine .split split ?_
  rcases h with rfl | ⟨default, split'⟩
  · exact Or.inl ⟨_, t', ht'⟩
  · unfold splitDefault at split'
    split at split'
    -- the default is split off `WithDefault`, which leads nowhere
    · next named =>
      right
      rw [Bool.and_eq_true_iff, Value.isText_iff] at named
      exact Or.inr named
    · cases split'
      exact Or.inl ⟨_, t', ht'⟩

/-- **A typed reference to a declared type** is a fresh alias, or a fresh interface with members. -/
theorem reference_cases (builtins : NoBuiltins types) {t : SchemaType}
    (h : annotate types slot path node = .ok t) (tag : node.hasTag "TSTypeReference")
    (named : node.referenceName = .scalar name) (declared : types.has name) :
    onPath path name = false ∧ ((∃ declaration, RefersToAlias types node name declaration) ∨
      ((types.find? name).getD .null).hasTag "TSInterfaceDeclaration" ∧
        ∃ members, membersOf types name = .ok members ∧
          outline types slot path node = .ok (.object (path ++ [name]) members)) := by
  have bare := bare_of_declared builtins tag named declared
  obtain ⟨o, outlined, -⟩ := annotate_eq_ok.1 h
  obtain ⟨inner, aliases, ahead, formed⟩ := ahead_of_outline_eq_ok outlined
  -- either no alias is followed, and the reference has to name an interface, or the first one is
  rcases resolves_of_resolveAlias ahead.resolved with ⟨stop⟩ | ⟨refers, -, -⟩
  · rw [withoutReadonly_of_bare bare] at formed
    rw [List.append_nil, formOutline_of_reference tag, referenceOutline, named] at formed
    simp only [Value.key, ok_bind, libraryType?_eq_none builtins declared] at formed
    split at formed
    · next interface =>
      split at formed
      · cases formed
      · next fresh =>
        obtain ⟨members, expanded, formed⟩ := bind_eq_ok.1 formed
        cases formed
        exact ⟨by simpa using fresh, Or.inr ⟨interface, members, expanded, outlined⟩⟩
    · cases formed
  · rw [withoutReadonly_of_bare bare] at refers
    cases named.symm.trans refers.named
    exact ⟨ahead.fresh _ List.mem_cons_self, Or.inl ⟨_, refers⟩⟩

/-- What an outline is made of stands behind no further alias. -/
theorem aliasOf_of_formOutline_eq_ok (builtins : NoBuiltins types)
    (h : formOutline types slot path node = .ok o) : aliasOf types node = .ok none := by
  cases tag : node.hasTag "TSTypeReference" with
  | false => exact aliasOf_of_not_reference tag
  | true =>
    rw [formOutline_of_reference tag] at h
    obtain ⟨name, hname, h⟩ := bind_eq_ok.1 h
    -- a name with a meaning of its own is not declared, and any other has to be an interface
    have no_alias : ((types.find? name).getD .null).hasTag "TSTypeAliasDeclaration" = false := by
      cases library : libraryType? name with
      | some type =>
        obtain ⟨s, hs, rfl⟩ := mem_builtinNames_of_libraryType? library
        rw [Table.find?_eq_none (builtins s hs)]
        rfl
      | none =>
        simp only [library] at h
        split at h
        · next declared => simp [Value.hasTag_of_hasTag declared]
        · cases h
    exact aliasOf_of_no_alias (Value.key_eq_ok.1 hname) no_alias

/-- **Past an alias.** If no alias is left at the end, what stands behind a typed alias has the same
type, with the alias on the path. -/
theorem annotate_behind_alias_of_stop {declaration : Value} {t : SchemaType}
    (refers : RefersToAlias types node name declaration) (bare : ∀ i, ¬ Wraps node i)
    (stops : ∀ inner aliases o, Ahead types path node inner aliases →
      formOutline types slot (path ++ aliases) inner = .ok o → aliasOf types inner = .ok none)
    (h : annotate types slot path node = .ok t) :
    annotate types slot (path ++ [name]) (declaration.get "typeAnnotation") = .ok t := by
  obtain ⟨o, outlined, filled⟩ := annotate_eq_ok.1 h
  obtain ⟨inner, aliases, ahead, formed⟩ := ahead_of_outline_eq_ok outlined
  have stop := stops inner aliases o ahead formed
  -- the alias was followed, and what is behind it is resolved as it was
  cases resolves_of_resolveAlias ahead.resolved with
  | here =>
    rw [withoutReadonly_of_bare bare, aliasOf_eq_some.2 refers] at stop
    cases stop
  | follow refers' fresh behind =>
    rw [withoutReadonly_of_bare bare] at refers'
    cases refers.named.symm.trans refers'.named
    cases refers.found.symm.trans refers'.found
    rename_i names
    -- followed from there with nothing in front, the same aliases come
    have resolved : resolveAlias types (declaration.get "typeAnnotation") = .ok (inner, names) := by
      rw [resolveAlias]
      exact behind.resolveAliasFrom_eq_ok stop (by simp [onPath])
    have ahead' : Ahead types (path ++ [name]) (declaration.get "typeAnnotation") inner names := by
      refine ⟨resolved, fun a ha => ?_⟩
      -- a later alias is off the path, and is not the first one again
      have off_path := ahead.fresh a (List.mem_cons_of_mem _ ha)
      have other := behind.fresh a ha
      simp only [onPath, List.nil_append, List.any_append, Bool.or_eq_false_iff] at off_path other ⊢
      exact ⟨off_path, other⟩
    refine annotate_eq_ok.2 ⟨o, ?_, filled⟩
    rw [outline_of_ahead ahead', List.append_assoc]
    exact formed

/-- Past an alias, where no name with a meaning of its own is declared. -/
theorem annotate_behind_alias (builtins : NoBuiltins types) {declaration : Value} {t : SchemaType}
    (refers : RefersToAlias types node name declaration)
    (h : annotate types slot path node = .ok t) :
    annotate types slot (path ++ [name]) (declaration.get "typeAnnotation") = .ok t :=
  annotate_behind_alias_of_stop refers
    (bare_of_declared builtins refers.tag refers.named (Table.has_of_find? refers.found))
    (fun _ _ _ _ formed => aliasOf_of_formOutline_eq_ok builtins formed) h

theorem isSome_of_mapM_eq_some {α β : Type} {f : α → Option β} {xs : List α} {ys : List β}
    (h : xs.mapM f = some ys) : ∀ a ∈ xs, (f a).isSome := by
  induction xs generalizing ys with
  | nil => exact nofun
  | cons x xs ih =>
    simp only [List.mapM_cons, Option.bind_eq_bind, Option.bind_eq_some_iff] at h
    obtain ⟨y, hy, ys', hys, -⟩ := h
    exact List.forall_mem_cons.2 ⟨by simp [hy], ih hys⟩

/-- A union with a type lists literals only. -/
theorem final_of_typed_union {members : List Value} (h : Typed types path node)
    (union : node.hasTag "TSUnionType") (listed : (node.get "types").elements = .ok members) :
    ∀ m ∈ members, Final m := by
  obtain ⟨slot, t, h⟩ := h
  obtain ⟨o, outlined, -⟩ := annotate_eq_ok.1 h
  rw [outline_of_hasTag union (by simp), formOutline_of_union union] at outlined
  obtain ⟨t', enum, -⟩ := bind_eq_ok.1 outlined
  obtain ⟨options, hoptions, enum⟩ := bind_eq_ok.1 enum
  simp only [choices, union, if_true, listed, ok_bind, pure_eq, Except.ok.injEq] at hoptions
  -- a union that is no choice of literals is refused
  cases options with
  | none => cases enum
  | some options =>
    intro m hm
    have literal := isSome_of_mapM_eq_some hoptions m hm
    left
    unfold Value.typeLiteral? at literal
    split at literal
    · next tag => rw [Value.hasTagIn_of_hasTag tag]; rfl
    · split at literal
      · next tag => rw [Value.hasTagIn_of_hasTag tag]; rfl
      · cases literal

/-! ### Typing follows -/

/-- A path that has grown, past the declared type that a node refers to. -/
structure Passes (types : Declarations) (path : List Scalar) (node : Value) (path' : List Scalar) :
    Prop where
  grown : ∀ s, onPath path s → onPath path' s
  past : ∀ name, node.hasTag "TSTypeReference" → node.referenceName = .scalar name →
    types.has name → onPath path' name

theorem Passes.refl (h : ∀ name, node.hasTag "TSTypeReference" →
    node.referenceName = .scalar name → types.has name = false) : Passes types path node path where
  grown _ hs := hs
  past name tag named declared := by
    rw [h name tag named] at declared
    cases declared

theorem Passes.append (named : node.referenceName = .scalar name) :
    Passes types path node (path ++ [name]) where
  grown s hs := by
    simp only [onPath, List.any_append, Bool.or_eq_true] at hs ⊢
    exact Or.inl hs
  past name' _ named' _ := by
    cases named.symm.trans named'
    simp [onPath]

theorem Passes.of_hasTag {tag : String} (h : node.hasTag tag) (other : tag ≠ "TSTypeReference") :
    Passes types path node path :=
  .refl fun _ tag' => by simp [Value.hasTag_of_hasTag h, other] at tag'

/-- What a typed annotation wraps has the same type. -/
theorem Typed.of_wraps (h : Typed types path node) (wraps : Wraps node inner) :
    Typed types path inner := by
  obtain ⟨slot, t, h⟩ := h
  obtain ⟨o, outlined, filled⟩ := annotate_eq_ok.1 h
  refine ⟨slot, t, annotate_eq_ok.2 ⟨o, ?_, filled⟩⟩
  rw [← outlined, outline, outline, resolveAlias_of_wraps wraps]

/-- A list type of the library with one argument is an array. -/
theorem outline_of_wrapper (builtins : NoBuiltins types) {element : Value}
    (tag : node.hasTag "TSTypeReference") (named : node.referenceName = .scalar name)
    (library : libraryType? name = some .array) (only : node.typeArguments = [element]) :
    outline types slot path node = .ok (.array path element) := by
  obtain ⟨s, hs, rfl⟩ := mem_builtinNames_of_libraryType? library
  have bare := bare_of_reference tag named fun s' hs' h => by
    cases h
    simp only [readonlyWrappers, List.mem_cons, List.not_mem_nil, or_false] at hs'
    rcases hs' with rfl | rfl <;> cases library
  have stop : aliasOf types node = .ok none := by
    refine aliasOf_of_no_alias named ?_
    rw [Table.find?_eq_none (builtins s hs)]
    rfl
  rw [outline_of_bare bare stop]
  exact formOutline_of_outlines (.wrapper tag named library only) slot

/-- **Typing follows** where a typed annotation leads. -/
theorem Typed.leads (builtins : NoBuiltins types) (h : Typed types path node) {next : Value}
    (leads : Leads types node next) :
    ∃ path', Met types path' next ∧ Passes types path node path' := by
  have typed := h
  obtain ⟨slot, t, h⟩ := h
  obtain ⟨o, outlined, filled⟩ := annotate_eq_ok.1 h
  -- a step into what the outline holds, or one in front of the outline
  cases leads with
  | layer wraps =>
    -- what wraps something refers to no declared type
    refine ⟨path, .typed (typed.of_wraps wraps), .refl fun name tag named => ?_⟩
    cases declared : types.has name with
    | false => rfl
    | true => exact absurd wraps (bare_of_declared builtins tag named declared next)
  | @behind declaration name tag named found isAlias =>
    obtain ⟨-, ⟨declaration', refers⟩ | ⟨interface, -⟩⟩ :=
      reference_cases builtins h tag named (Table.has_of_find? found)
    · cases refers.found.symm.trans found
      have typed : Typed types (path ++ [name]) (declaration.get "typeAnnotation") :=
        ⟨slot, t, annotate_behind_alias builtins refers h⟩
      exact ⟨path ++ [name], .typed typed, .append named⟩
    · rw [found, Option.getD_some, Value.hasTag_of_hasTag isAlias] at interface
      simp at interface
  | element tag =>
    rw [outline_of_hasTag tag (by simp), formOutline_of_outlines (.array tag)] at outlined
    cases outlined
    exact ⟨path, .of_array filled, .of_hasTag tag (by simp)⟩
  | @argument _ name tag named library only =>
    rw [outline_of_wrapper builtins tag named library only] at outlined
    cases outlined
    obtain ⟨s, hs, rfl⟩ := mem_builtinNames_of_libraryType? library
    refine ⟨path, .of_array filled, .refl fun name _ named' => ?_⟩
    cases named.symm.trans named'
    exact builtins s hs
  | union tag listed mem =>
    have final := final_of_typed_union typed tag listed next mem
    exact ⟨path, .final final, .of_hasTag tag (by simp)⟩
  | @literal member own tag listed mem property =>
    have object : node.hasTagIn ["TSTypeLiteral", "TSIntersectionType"] :=
      (Value.hasTagIn_of_hasTag tag).trans rfl
    have lists : Lists [node] own := List.append_nil own ▸ .literal tag listed .nil
    rw [outline_of_hasTag tag (by simp), formOutline_of_object object, typeMembers_eq_ok.2 lists,
      ok_bind] at outlined
    obtain ⟨members, flat, outlined⟩ := bind_eq_ok.1 outlined
    cases outlined
    obtain ⟨d, expands⟩ := expands_of_flatten _ _ _ _ flat
    exact ⟨path, .of_object filled (expands.mem_of_property property mem), .of_hasTag tag (by simp)⟩
  | @interface member name tag named declared has =>
    obtain ⟨-, ⟨declaration', refers⟩ | ⟨-, members, expanded, outlined'⟩⟩ :=
      reference_cases builtins h tag named has.has
    · rw [refers.found, Option.getD_some, Value.hasTag_of_hasTag refers.isAlias] at declared
      simp at declared
    · cases outlined.symm.trans outlined'
      obtain ⟨d, expands⟩ := membersOf_eq_ok.1 expanded
      exact ⟨path ++ [name], .of_object filled (has.mem_of_expandsTo expands), .append named⟩

theorem final_of_nullable {m : Value} (h : m.hasTagIn nullableTags) : Final m := by
  obtain ⟨tag, htag, h⟩ := Value.hasTagIn_iff.1 h
  refine Or.inl (Value.hasTagIn_iff.2 ⟨tag, ?_, h⟩)
  simp only [nullableTags, List.mem_cons, List.not_mem_nil, or_false] at htag ⊢
  tauto

/-- What is left of a union without `null` leads where the union does. -/
theorem met_of_union {rest next : Value} {members : List Value} {nullable : Bool}
    (union : node.hasTag "TSUnionType") (split : node.splitNullable = .ok (rest, nullable))
    (inside : Typed types path rest ∨ Final rest)
    (listed : (node.get "types").elements = .ok members) (mem : next ∈ members) :
    Met types path next := by
  have final_union {u : Value} (hu : u.hasTag "TSUnionType") (h : Final u) : False := by
    rcases h with h | ⟨h, -⟩
    · simp [Value.hasTagIn_of_hasTag hu] at h
    · simp [Value.hasTag_of_hasTag hu] at h
  have here : node.withoutParentheses = node :=
    Value.withoutParentheses_of_not_tag (by simp [Value.hasTag_of_hasTag union])
  -- a union that is kept whole or in part lists literals; of any other one member is left
  cases Value.splitsNullable split with
  | whole =>
    rw [here] at inside
    rcases inside with typed | final
    · exact .final (final_of_typed_union typed union listed next mem)
    · exact (final_union union final).elim
  | only _ listed' _ others =>
    rw [here] at listed'
    rw [listed', Value.elements_arr, Except.ok.injEq] at listed
    rcases others next (listed ▸ mem) with rfl | nullable
    · exact inside.elim .typed .final
    · exact .final (final_of_nullable nullable)
  | @several _ remaining _ listed' others =>
    rw [here] at listed' inside
    rw [listed', Value.elements_arr, Except.ok.injEq] at listed
    have smaller : (node.put "types" (.arr remaining)).hasTag "TSUnionType" := by
      rw [Value.hasTag_iff, Value.tag_put (by simp)]
      exact Value.hasTag_iff.1 union
    rcases others next (listed ▸ mem) with left | nullable
    · rcases inside with typed | final
      · refine .final (final_of_typed_union typed smaller ?_ next left)
        rw [Value.get_put (Value.isObject_of_hasTag union), Value.elements_arr]
      · exact (final_union smaller final).elim
    · exact .final (final_of_nullable nullable)

/-- **Typing follows** where an annotation leads that it has met. -/
theorem Met.leads (builtins : NoBuiltins types) (h : Met types path node) {next : Value}
    (leads : Leads types node next) :
    ∃ path', Met types path' next ∧ Passes types path node path' := by
  -- without parentheses and union, splitting off `null` changes nothing
  cases h with
  | typed typed => exact typed.leads builtins leads
  | final final => exact absurd leads (final.not_leads builtins next)
  | @split rest nullable split inside =>
    cases parentheses : node.hasTag "TSParenthesizedType" with
    | true =>
      have other {tag : String} (ne : "TSParenthesizedType" ≠ tag) : ¬ node.hasTag tag :=
        Value.not_hasTag_of_hasTag parentheses ne
      cases leads with
      | layer wraps =>
        cases wraps with
        | parentheses =>
          rw [Value.splitNullable_of_parentheses parentheses] at split
          exact ⟨path, .split split inside, .of_hasTag parentheses (by simp)⟩
        | operator tag | wrapper tag => exact absurd tag (other (by simp))
      | behind tag | element tag | argument tag | union tag | literal tag | interface tag =>
        exact absurd tag (other (by simp))
    | false =>
      cases union : node.hasTag "TSUnionType" with
      | true =>
        cases leads with
        | layer wraps => exact absurd wraps (bare_of_hasTag union (by simp) next)
        | union _ listed mem =>
          exact ⟨path, met_of_union union split inside listed mem, .of_hasTag union (by simp)⟩
        | behind tag | element tag | argument tag | literal tag | interface tag =>
          exact absurd tag (Value.not_hasTag_of_hasTag union (by simp))
      | false =>
        rw [Value.splitNullable_of_not_union parentheses union] at split
        cases split
        rcases inside with typed | final
        · exact typed.leads builtins leads
        · exact absurd leads (final.not_leads builtins next)

/-! ### Circles -/

/-- A reference to a type, by one of the spellings of its name. -/
def RefersTo (node : Value) (name : Scalar) : Prop :=
  node.hasTag "TSTypeReference" ∧ ∃ s : Scalar, node.referenceName = .scalar s ∧ name.same s

/-- A reference to a type whose name is on the path is never met. -/
theorem not_met_of_onPath (builtins : NoBuiltins types) (h : RefersTo node name)
    (declared : types.has name) (back : onPath path name) : ¬ Met types path node := by
  obtain ⟨tag, s, named, same⟩ := h
  have declared' : types.has s := by rwa [← Table.has_congr same]
  have back' : onPath path s := by rwa [← onPath_congr same]
  have untyped : ¬ Typed types path node := by
    rintro ⟨slot, t, h⟩
    rw [(reference_cases builtins h tag named declared').1] at back'
    cases back'
  have unfinal : ¬ Final node := by
    rintro (h | ⟨-, h⟩)
    · simp [Value.hasTagIn_of_hasTag tag] at h
    · cases named.symm.trans h
      rw [builtins "WithDefault" (by decide)] at declared'
      cases declared'
  rintro (typed | final | ⟨split, inside⟩)
  · exact untyped typed
  · exact unfinal final
  · rw [Value.splitNullable_of_not_union (by simp [Value.hasTag_of_hasTag tag])
      (by simp [Value.hasTag_of_hasTag tag])] at split
    cases split
    exact inside.elim untyped unfinal

/-- **A type that leads back to itself has no type.** -/
theorem not_typed_of_circle (builtins : NoBuiltins types) {start back : Value}
    (declared : types.has name) (hstart : RefersTo start name) (hback : RefersTo back name)
    (circle : Relation.TransGen (Leads types) start back) (path : List Scalar) :
    ¬ Typed types path start := by
  intro typed
  -- the first step puts the name on the path, and no later step takes it off
  have met (next : Value) (leads : Relation.TransGen (Leads types) start next) :
      ∃ path', Met types path' next ∧ onPath path' name := by
    induction leads with
    | single leads =>
      obtain ⟨path', met, passes⟩ := typed.leads builtins leads
      obtain ⟨tag, s, named, same⟩ := hstart
      have declared' : types.has s := by rwa [← Table.has_congr same]
      exact ⟨path', met, by rw [onPath_congr same]; exact passes.past s tag named declared'⟩
    | tail _ leads ih =>
      obtain ⟨path', met, here⟩ := ih
      obtain ⟨path'', met', passes⟩ := met.leads builtins leads
      exact ⟨path'', met', passes.grown _ here⟩
  obtain ⟨path', met, here⟩ := met back circle
  exact not_met_of_onPath builtins hback declared here met

/-- **The recursion guard.** Typing a plain annotation ends, in every slot and on every path. A
reference to a declared type that leads back to the type has no type: typing it fails, and not for
want of an end. -/
theorem plain_recursion_ends_and_circles_fail (types : Declarations) (plain : PlainTypes types) :
    (∀ node, node.Plain → ∀ slot path, Ends types ⟨slot, path, node⟩ ∧
      annotate types slot path node ≠ .error .endless) ∧
    (NoBuiltins types → ∀ name, types.has name → ∀ start back, start.Plain → RefersTo start name →
      RefersTo back name → Relation.TransGen (Leads types) start back →
        ∀ slot path, ∃ f, annotate types slot path start = .error f ∧ f ≠ .endless) := by
  have ends (node : Value) (h : node.Plain) (slot : Slot) (path : List Scalar) :
      Ends types ⟨slot, path, node⟩ ∧ annotate types slot path node ≠ .error .endless := by
    have ends : Ends types ⟨slot, path, node⟩ := h.ends plain
    exact ⟨ends, fun h => annotate_avoids_endless_of_ends ends _ h rfl⟩
  refine ⟨ends, fun builtins name declared start back hplain hstart hback circle slot path => ?_⟩
  cases h : annotate types slot path start with
  | ok t =>
    exact absurd ⟨slot, t, h⟩ (not_typed_of_circle builtins declared hstart hback circle path)
  | error f =>
    refine ⟨f, rfl, ?_⟩
    rintro rfl
    exact (ends start hplain slot path).2 h

/-- Trees whose branches are on trees, as an inherited property says. -/
def Sample.forest : Declarations := table [
  ("Tree", aliasNamed "Tree" (literal [property "branches" (arrayOf (reference "Branch" []))])),
  ("Branch", interfaceNamed "Branch" [heritage "Growth"] []),
  ("Growth", interfaceNamed "Growth" []
    [property "tree" (reference "Readonly" [reference "Tree" []])])]

open Sample in
theorem plain_recursion_ends_and_circles_fail_forest :
    PlainTypes forest ∧ NoBuiltins forest ∧ (reference "Tree" []).Plain ∧
      Relation.TransGen (Leads forest) (reference "Tree" []) (reference "Tree" []) ∧
      ∃ f, annotate forest default [] (reference "Tree" []) = .error f ∧ f ≠ .endless := by
  have plain : PlainTypes forest := by
    have all : ∀ e ∈ forest, ∀ u ∈ e.2.parts, u.hasTag "TSIntersectionType" = false ∧
        (u.hasTag "TSTypeLiteral" → ∀ m ∈ (u.get "members").elements.toOption.getD [],
          m.hasTagIn Value.referenceTags = false) := by decide +kernel
    intro name declaration found
    obtain ⟨e, he, rfl⟩ := Option.map_eq_some_iff.1 found
    exact Value.plain_of_forall (all e (List.mem_of_find?_eq_some he))
  have builtins : NoBuiltins forest := by
    unfold NoBuiltins
    decide
  have start : (reference "Tree" []).Plain := Value.plain_of_forall (by decide +kernel)
  have refers : RefersTo (reference "Tree" []) (.str "Tree") :=
    ⟨rfl, .str "Tree", referenceName_reference _ _, by simp⟩
  -- round the circle, from the alias to the inherited property and back
  let branches := arrayOf (reference "Branch" [])
  let readonly := reference "Readonly" [reference "Tree" []]
  have behind : Leads forest (reference "Tree" []) (literal [property "branches" branches]) :=
    show Leads forest _ ((aliasNamed "Tree" (literal [property "branches" branches])).get
      "typeAnnotation") from .behind rfl (referenceName_reference _ _) rfl rfl
  have listed : Leads forest (literal [property "branches" branches]) branches :=
    show Leads forest _ (property "branches" branches).memberType from
      .literal rfl rfl List.mem_cons_self rfl
  have element : Leads forest branches (reference "Branch" []) :=
    show Leads forest _ (branches.get "elementType") from .element rfl
  have own : HasMember forest (.str "Growth") (property "tree" readonly) :=
    .own (.ofInterface rfl rfl rfl rfl) List.mem_cons_self rfl
  have inherited : HasMember forest (.str "Branch") (property "tree" readonly) :=
    .inherited (.ofInterface rfl rfl rfl rfl) List.mem_cons_self rfl (referenceName_heritage _) own
  have branch : Leads forest (reference "Branch" []) readonly :=
    show Leads forest _ (property "tree" readonly).memberType from
      .interface rfl (referenceName_reference _ _) rfl inherited
  have layer : Leads forest readonly (reference "Tree" []) :=
    .layer (.wrapper rfl (by rw [referenceName_reference]; rfl) rfl)
  have circle : Relation.TransGen (Leads forest) (reference "Tree" []) (reference "Tree" []) :=
    ((((Relation.TransGen.single behind).tail listed).tail element).tail branch).tail layer
  exact ⟨plain, builtins, start, circle, (plain_recursion_ends_and_circles_fail forest plain).2
    builtins (.str "Tree") rfl _ _ start refers refers circle default []⟩

end ComponentSpec
