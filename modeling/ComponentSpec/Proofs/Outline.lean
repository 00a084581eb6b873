import ComponentSpec.Proofs.Annotations
import ComponentSpec.Proofs.Expansion

/-!
# One level of an annotation

`outline` reads one level of an annotation without typing anything inside it, and `Outline.fill`
types what is inside. So all that a level depends on is its outline and the answers to the queries
it makes.

* `Outlines` — the outlines with something inside, by rules; the slot has no part in them;
* `Blocked` — the ways in which an outline fails for a circle among the types;
* `Query`, `Asks` — the queries that one level makes;
* `step_below`, `asks_of_step_eq_error` — what the answers to these queries say about the level, and
  what the level says about them.
-/

namespace ComponentSpec

open Checked

variable {types : Declarations} {slot : Slot} {path aliases : List Scalar} {node inner : Value}
  {name : Scalar} {o : Outline} {f : Fault}

/-! ### Outlines -/

/-- **The annotation behind aliases,** none of which is on the path. -/
structure Ahead (types : Declarations) (path : List Scalar) (node inner : Value)
    (aliases : List Scalar) : Prop where
  resolved : resolveAlias types node = .ok (inner, aliases)
  fresh : ∀ a ∈ aliases, onPath path a = false

/-- **An outline with something inside,** of an annotation that no alias stands in front of. -/
inductive Outlines (types : Declarations) (path : List Scalar) (node : Value) : Outline → Prop where
  | array (tag : node.hasTag "TSArrayType") :
      Outlines types path node (.array path (node.get "elementType"))
  | wrapper {name : Scalar} {element : Value} (tag : node.hasTag "TSTypeReference")
      (named : node.referenceName = .scalar name) (library : libraryType? name = some .array)
      (only : node.typeArguments = [element]) : Outlines types path node (.array path element)
  | literal {listed members : List Value}
      (tag : node.hasTagIn ["TSTypeLiteral", "TSIntersectionType"])
      (lists : Lists [node] listed) (flat : flatten types path listed = .ok members) :
      Outlines types path node (.object path members)
  | interface {name : Scalar} {members : List Value} (tag : node.hasTag "TSTypeReference")
      (named : node.referenceName = .scalar name) (library : libraryType? name = none)
      (declared : ((types.find? name).getD .null).hasTag "TSInterfaceDeclaration")
      (fresh : onPath path name = false) (expanded : membersOf types name = .ok members) :
      Outlines types path node (.object (path ++ [name]) members)

theorem form_of_hasTag {tag : String} (h : node.hasTag tag) :
    node.form = Value.form (.record [("type", .str tag)]) := by
  have read : (Value.record [("type", .str tag)]).tag = .str tag := rfl
  rw [Value.form, Value.form, Value.hasTag_iff.1 h, read]

theorem formOutline_of_reference (tag : node.hasTag "TSTypeReference") :
    formOutline types slot path node = referenceOutline types slot path node := by
  have form : node.form = .ok .reference := form_of_hasTag tag
  rw [formOutline, form, ok_bind]

theorem formOutline_of_object (tag : node.hasTagIn ["TSTypeLiteral", "TSIntersectionType"]) :
    formOutline types slot path node =
      typeMembers slot.name node >>= fun listed =>
        flatten types path listed >>= fun members => .ok (.object path members) := by
  have form : node.form = .ok .object := by
    obtain ⟨t, ht, tag⟩ := Value.hasTagIn_iff.1 tag
    rw [form_of_hasTag tag]
    simp only [List.mem_cons, List.not_mem_nil, or_false] at ht
    rcases ht with rfl | rfl <;> rfl
  rw [formOutline, form, ok_bind]
  rfl

theorem formOutline_of_union (tag : node.hasTag "TSUnionType") :
    formOutline types slot path node = enumType slot node >>= fun t => .ok (.leaf t) := by
  have form : node.form = .ok .choice := form_of_hasTag tag
  rw [formOutline, form, ok_bind]
  rfl

theorem formOutline_of_outlines (h : Outlines types path node o) (slot : Slot) :
    formOutline types slot path node = .ok o := by
  cases h with
  | array tag =>
    have form : node.form = .ok .array := form_of_hasTag tag
    rw [formOutline, form]
    rfl
  | wrapper tag named library only =>
    rw [formOutline_of_reference tag]
    simp [referenceOutline, named, Value.key, library, only]
  | literal tag lists flat =>
    rw [formOutline_of_object tag, typeMembers_eq_ok.2 lists, ok_bind, flat, ok_bind]
  | interface tag named library declared fresh expanded =>
    rw [formOutline_of_reference tag]
    simp [referenceOutline, named, Value.key, library, declared, fresh, expanded]

/-- A leaf, or an outline that the rules give. -/
def LeafOr (types : Declarations) (path : List Scalar) (node : Value) (o : Outline) : Prop :=
  (∃ t, o = .leaf t) ∨ Outlines types path node o

theorem yields_referenceOutline (slot : Slot) (tag : node.hasTag "TSTypeReference") :
    Yields (LeafOr types path node) (referenceOutline types slot path node) := by
  intro o h
  obtain ⟨name, hname, h⟩ := bind_eq_ok.1 h
  replace hname := Value.key_eq_ok.1 hname
  -- the types of the library first; a name that means nothing there may be a local interface
  split at h
  · cases h; exact Or.inl ⟨_, rfl⟩
  · cases h; exact Or.inl ⟨_, rfl⟩
  · cases h; exact Or.inl ⟨_, rfl⟩
  · next library =>
    split at h
    · next only => cases h; exact Or.inr (.wrapper tag hname library only)
    · cases h
  · next library =>
    split at h
    · next declared =>
      split at h
      · cases h
      · next fresh =>
        obtain ⟨members, hmembers, h⟩ := bind_eq_ok.1 h
        cases h
        exact Or.inr (.interface tag hname library declared (by simpa using fresh) hmembers)
    · cases h

theorem yields_formOutline (types : Declarations) (slot : Slot) (path : List Scalar)
    (node : Value) :
    Yields (LeafOr types path node) (formOutline types slot path node) := by
  intro o h
  obtain ⟨form, hform, h⟩ := bind_eq_ok.1 h
  have tag := Value.form_eq_ok hform
  cases form with
  | basic | number | other => cases h <;> exact Or.inl ⟨_, rfl⟩
  | array => cases h; exact Or.inr (.array tag)
  | object =>
    obtain ⟨listed, hlisted, h⟩ := bind_eq_ok.1 h
    obtain ⟨members, flat, h⟩ := bind_eq_ok.1 h
    cases h
    exact Or.inr (.literal tag (typeMembers_eq_ok.1 hlisted) flat)
  | choice =>
    obtain ⟨t, -, h⟩ := bind_eq_ok.1 h
    cases h
    exact Or.inl ⟨t, rfl⟩
  | reference => exact yields_referenceOutline slot tag o h

theorem outline_of_ahead (h : Ahead types path node inner aliases) (slot : Slot) :
    outline types slot path node = formOutline types slot (path ++ aliases) inner := by
  -- no alias is on the path, so the guard finds none
  have none_back : aliases.find? (onPath path) = none :=
    List.find?_eq_none.2 fun a ha => by simp [h.fresh a ha]
  simp [outline, h.resolved, none_back]

/-- What is neither wrapped nor an alias is outlined by its form. -/
theorem outline_of_bare (bare : ∀ i, ¬ Wraps node i) (stop : aliasOf types node = .ok none) :
    outline types slot path node = formOutline types slot path node := by
  have ahead : Ahead types path node node [] := ⟨resolveAlias_of_bare bare stop, nofun⟩
  rw [outline_of_ahead ahead, List.append_nil]

/-- Nor is what has a tag of its own. -/
theorem outline_of_hasTag {tag : String} (h : node.hasTag tag)
    (other : tag ∉ ["TSParenthesizedType", "TSTypeOperator", "TSTypeReference"]) :
    outline types slot path node = formOutline types slot path node := by
  have noReference : node.hasTag "TSTypeReference" = false := by
    rw [Value.hasTag_of_hasTag h, decide_eq_false_iff_not]
    rintro rfl
    exact other (by simp)
  exact outline_of_bare (bare_of_hasTag h other) (aliasOf_of_not_reference noReference)

theorem ahead_of_outline_eq_ok (h : outline types slot path node = .ok o) :
    ∃ inner aliases, Ahead types path node inner aliases ∧
      formOutline types slot (path ++ aliases) inner = .ok o := by
  obtain ⟨⟨inner, aliases⟩, resolved, h⟩ := bind_eq_ok.1 h
  cases back : aliases.find? (onPath path) with
  | some a => simp [back] at h
  | none =>
    have ahead : Ahead types path node inner aliases :=
      ⟨resolved, fun a ha => by simpa using List.find?_eq_none.1 back a ha⟩
    refine ⟨inner, aliases, ahead, ?_⟩
    simpa [back] using h

/-- **What an outline with something inside comes from.** -/
theorem outlines_of_outline_eq_ok (h : outline types slot path node = .ok o)
    (noLeaf : ∀ t, o ≠ .leaf t) :
    ∃ inner aliases, Ahead types path node inner aliases ∧
      Outlines types (path ++ aliases) inner o := by
  obtain ⟨inner, aliases, ahead, h⟩ := ahead_of_outline_eq_ok h
  rcases yields_formOutline _ _ _ _ o h with ⟨t, leaf⟩ | outlines
  · exact absurd leaf (noLeaf t)
  · exact ⟨inner, aliases, ahead, outlines⟩

/-- The slot decides what stands at a leaf, and nothing else. -/
theorem outline_congr_slot (h : outline types slot path node = .ok o) (noLeaf : ∀ t, o ≠ .leaf t)
    (slot' : Slot) : outline types slot' path node = .ok o := by
  -- what stands behind the aliases, and its rule, do not mention the slot
  obtain ⟨inner, aliases, ahead, outlines⟩ := outlines_of_outline_eq_ok h noLeaf
  rw [outline_of_ahead ahead]
  exact formOutline_of_outlines outlines slot'

/-! ### Circles -/

/-- **Where one level of an annotation meets a circle among the types.** -/
inductive Blocked (types : Declarations) (path : List Scalar) (node : Value) (f : Fault) :
    Prop where
  | backAlias {inner : Value} {aliases : List Scalar} {back : Scalar}
      (resolved : resolveAlias types node = .ok (inner, aliases)) (mem : back ∈ aliases)
      (back : onPath path back) (reported : f.IsRecursive)
  | backInterface {inner : Value} {aliases : List Scalar} {name : Scalar}
      (ahead : Ahead types path node inner aliases) (tag : inner.hasTag "TSTypeReference")
      (named : inner.referenceName = .scalar name)
      (declared : ((types.find? name).getD .null).hasTag "TSInterfaceDeclaration")
      (back : onPath (path ++ aliases) name) (reported : f.IsRecursive)
  | inlined {inner : Value} {aliases : List Scalar} {listed : List Value}
      (ahead : Ahead types path node inner aliases)
      (lists : Lists [inner] listed) (fails : flatten types (path ++ aliases) listed = .error f)
  | inherited {inner : Value} {aliases : List Scalar} {name : Scalar}
      (ahead : Ahead types path node inner aliases) (tag : inner.hasTag "TSTypeReference")
      (named : inner.referenceName = .scalar name) (fails : membersOf types name = .error f)

theorem avoids_enumType (slot : Slot) (node : Value) :
    Avoids Fault.Circular (enumType slot node) := by
  have avoids_choices : Avoids Fault.Circular (choices node) := by
    unfold choices
    split
    · exact (avoids_elements _).bind fun _ _ => avoids_ok _
    · exact avoids_ok _
  refine avoids_choices.bind fun options _ => ?_
  split
  · exact avoids_error.2 (Fault.not_circular_about id _)
  · refine Avoids.bind ?_ fun _ _ => ?_
    · unfold enumOf
      split
      · exact avoids_ok _
      · split
        · exact avoids_ok _
        · exact avoids_error.2 (Fault.not_circular_about id _)
    · split
      · split
        · exact avoids_ok _
        · exact avoids_error.2 (Fault.not_circular_about id _)
      · split
        · exact avoids_error.2 (Fault.not_circular_about id _)
        · exact avoids_ok _

/-- A reference meets a circle if it names an interface that is on the path, or one whose members
do. -/
theorem referenceOutline_eq_error (h : referenceOutline types slot path node = .error f)
    (circular : f.Circular) :
    ∃ name, node.referenceName = .scalar name ∧
      (((types.find? name).getD .null).hasTag "TSInterfaceDeclaration" ∧ onPath path name ∧
        f.IsRecursive ∨ membersOf types name = .error f) := by
  rcases bind_eq_error.1 h with h | ⟨name, hname, h⟩
  · exact absurd circular (avoids_key _ f h)
  refine ⟨name, Value.key_eq_ok.1 hname, ?_⟩
  split at h
  · cases h
  · cases h
  · cases h
  · split at h
    · cases h
    · cases h
      exact absurd circular (Fault.not_circular_about id _)
  · split at h
    · next declared =>
      split at h
      · next back =>
        cases h
        exact Or.inl ⟨declared, back, circular.resolve_right (Fault.about_ne_endless _ _)⟩
      · rcases bind_eq_error.1 h with h | ⟨members, -, h⟩
        · exact Or.inr h
        · cases h
    · cases h
      exact absurd circular (Fault.not_circular_about id _)

/-- Of the forms, only an object type and a reference can meet a circle. -/
theorem formOutline_eq_error (h : formOutline types slot path node = .error f)
    (circular : f.Circular) :
    (∃ listed, Lists [node] listed ∧ flatten types path listed = .error f) ∨
      node.hasTag "TSTypeReference" ∧ referenceOutline types slot path node = .error f := by
  rcases bind_eq_error.1 h with h | ⟨form, hform, h⟩
  · exact absurd circular (avoids_form node f h)
  have tag := Value.form_eq_ok hform
  cases form with
  | basic | array => cases h
  | number | other =>
    cases h
    exact absurd circular (Fault.not_circular_about id _)
  | object =>
    rcases bind_eq_error.1 h with h | ⟨listed, hlisted, h⟩
    · exact absurd circular (avoids_typeMembers _ node f h)
    rcases bind_eq_error.1 h with h | ⟨members, -, h⟩
    · exact Or.inl ⟨listed, typeMembers_eq_ok.1 hlisted, h⟩
    · cases h
  | choice =>
    rcases bind_eq_error.1 h with h | ⟨t, -, h⟩
    · exact absurd circular (avoids_enumType slot node f h)
    · cases h
  | reference => exact Or.inr ⟨tag, h⟩

/-- A level that fails for a circle is blocked by one. -/
theorem blocked_of_outline_eq_error (h : outline types slot path node = .error f)
    (circular : f.Circular) : Blocked types path node f := by
  rcases bind_eq_error.1 h with h | ⟨⟨inner, aliases⟩, resolved, h⟩
  · exact absurd circular (avoids_resolveAlias types node f h)
  -- an alias on the path is reported before anything behind it is read
  cases back : aliases.find? (onPath path) with
  | some a =>
    simp only [back, throw_eq, error_bind, Except.error.injEq] at h
    cases h
    exact .backAlias resolved (List.mem_of_find?_eq_some back) (List.find?_some back)
      (circular.resolve_right (Fault.about_ne_endless _ _))
  | none =>
    have ahead : Ahead types path node inner aliases :=
      ⟨resolved, fun a ha => by simpa using List.find?_eq_none.1 back a ha⟩
    simp only [back] at h
    rcases formOutline_eq_error h circular with ⟨listed, lists, fails⟩ | ⟨tag, h⟩
    · exact .inlined ahead lists fails
    · obtain ⟨name, named, ⟨declared, back, reported⟩ | fails⟩ :=
        referenceOutline_eq_error h circular
      · exact .backInterface ahead tag named declared back reported
      · exact .inherited ahead tag named fails

theorem outline_avoids_endless (types : Declarations) (slot : Slot) (path : List Scalar)
    (node : Value) : Avoids (· = .endless) (outline types slot path node) := by
  rintro f h rfl
  cases blocked_of_outline_eq_error h Fault.circular_endless with
  | backAlias _ _ _ reported => exact reported
  | backInterface _ _ _ _ _ reported => exact reported
  | inlined _ _ fails => exact flatten_avoids_endless _ _ _ _ fails rfl
  | inherited _ _ _ fails => exact membersOf_avoids_endless _ _ _ fails rfl

/-! ### The queries of one level -/

/-- What is asked of an annotator. -/
structure Query where
  slot : Slot
  path : List Scalar
  node : Value

/-- The answer of an annotator to a query. -/
def Query.answer (query : Query) (inside : Annotator) : Checked SchemaType :=
  inside query.slot query.path query.node

/-- **The queries that filling an outline makes:** one for the element of an array, one for each
member of an object. -/
inductive Outline.Asks (slot : Slot) : Outline → Query → Prop where
  | element {path : List Scalar} {element : Value} {site : Slot × Value}
      (sited : elementSite slot element = .ok site) :
      Asks slot (.array path element) ⟨site.1, path, site.2⟩
  | member {path : List Scalar} {members : List Value} {member : Value} {site : Slot × Value}
      (mem : member ∈ members) (sited : memberSite slot.withDefaults member = .ok site) :
      Asks slot (.object path members) ⟨site.1, path, site.2⟩

/-- **The queries that typing one level makes.** -/
def Asks (types : Declarations) (query asked : Query) : Prop :=
  ∃ o, outline types query.slot query.path query.node = .ok o ∧ o.Asks query.slot asked

variable {query : Query} {inside inside' : Annotator}

/-- A leaf asks for nothing. -/
theorem Asks.outlines {asked : Query} (h : Asks types query asked) :
    ∃ inner aliases o, Ahead types query.path query.node inner aliases ∧
      Outlines types (query.path ++ aliases) inner o ∧ o.Asks query.slot asked := by
  obtain ⟨o, outlined, asks⟩ := h
  have noLeaf (t : SchemaType) : o ≠ .leaf t := by
    rintro rfl
    cases asks
  obtain ⟨inner, aliases, ahead, outlines⟩ := outlines_of_outline_eq_ok outlined noLeaf
  exact ⟨inner, aliases, o, ahead, outlines, asks⟩

theorem avoids_memberSite (withDefaults : Bool) (member : Value) :
    Avoids Fault.Circular (memberSite withDefaults member) := by
  simp only [memberSite]
  split
  · exact avoids_error.2 (Fault.not_circular_about id _)
  · refine (avoids_splitNullable _).bind fun r _ => ?_
    split
    · exact (avoids_splitDefault _ _).bind fun _ _ => avoids_ok _
    · exact avoids_ok _

theorem avoids_elementSite (slot : Slot) (element : Value) :
    Avoids Fault.Circular (elementSite slot element) :=
  (avoids_splitNullable element).bind fun _ _ => avoids_ok _

/-- If a level fails for a circle, its outline does, or something that it asks for. -/
theorem asks_of_step_eq_error (h : query.answer (step types inside) = .error f)
    (circular : f.Circular) :
    outline types query.slot query.path query.node = .error f ∨
      ∃ c, Asks types query c ∧ c.answer inside = .error f := by
  rcases bind_eq_error.1 h with h | ⟨o, outlined, h⟩
  · exact Or.inl h
  -- past the outline only a query can fail for a circle: sites are read off one node
  right
  cases o with
  | leaf t => cases h
  | array path element =>
    rcases bind_eq_error.1 h with h | ⟨site, hsite, h⟩
    · exact absurd circular (avoids_elementSite _ _ f h)
    rcases bind_eq_error.1 h with h | ⟨t, -, h⟩
    · exact ⟨_, ⟨_, outlined, .element hsite⟩, h⟩
    · cases h
  | object path members =>
    rcases bind_eq_error.1 h with h | ⟨entries, -, h⟩
    · obtain ⟨member, mem, h⟩ := exists_mem_of_mapM_eq_error h
      rcases bind_eq_error.1 h with h | ⟨site, hsite, h⟩
      · exact absurd circular (avoids_memberSite _ _ f h)
      rcases bind_eq_error.1 h with h | ⟨t, -, h⟩
      · exact ⟨_, ⟨_, outlined, .member mem hsite⟩, h⟩
      · cases h
    · cases h

/-! ### Better answers -/

/-- **An outcome below another** is the other one, or none yet. -/
def Below {α : Type} (x y : Checked α) : Prop := x = .error .endless ∨ x = y

theorem Below.refl {α : Type} (x : Checked α) : Below x x := Or.inr rfl

theorem Below.bind {α β : Type} {x y : Checked α} {f g : α → Checked β} (h : Below x y)
    (hf : ∀ a, y = .ok a → Below (f a) (g a)) : Below (x >>= f) (y >>= g) := by
  rcases h with rfl | rfl
  -- no first outcome yet, so no outcome of the whole
  · exact Or.inl rfl
  · cases x with
    | ok a => exact hf a rfl
    | error e => exact .refl _

theorem Below.mapM {α β : Type} {f g : α → Checked β} {xs : List α}
    (h : ∀ a ∈ xs, Below (f a) (g a)) : Below (xs.mapM f) (xs.mapM g) := by
  induction xs with
  | nil => exact .refl _
  | cons x xs ih =>
    rw [List.mapM_cons, List.mapM_cons]
    refine (h x List.mem_cons_self).bind fun b _ => ?_
    exact (ih fun a ha => h a (List.mem_cons_of_mem x ha)).bind fun _ _ => .refl _

theorem Below.antisymm {α : Type} {x y : Checked α} (h : Below x y) (h' : Below y x) : x = y := by
  rcases h with h | h
  · rcases h' with h' | h'
    · rw [h, h']
    · exact h'.symm
  · exact h

/-- **Better answers make a better type,** where they answer what is asked. -/
theorem step_below (h : ∀ c, Asks types query c → Below (c.answer inside) (c.answer inside')) :
    Below (query.answer (step types inside)) (query.answer (step types inside')) := by
  -- the outline does not depend on the answers, and each answer that filling it takes is better
  refine (Below.refl _).bind fun o outlined => ?_
  cases o with
  | leaf t => exact .refl _
  | array path element =>
    exact (Below.refl _).bind fun site hsite =>
      (h _ ⟨_, outlined, .element hsite⟩).bind fun _ _ => .refl _
  | object path members =>
    refine Below.bind (.mapM fun member mem => ?_) fun _ _ => .refl _
    exact (Below.refl _).bind fun site hsite =>
      (h _ ⟨_, outlined, .member mem hsite⟩).bind fun _ _ => .refl _

/-- Only the answers to what is asked matter. -/
theorem step_congr (h : ∀ c, Asks types query c → c.answer inside = c.answer inside') :
    query.answer (step types inside) = query.answer (step types inside') :=
  (step_below fun c hc => Or.inr (h c hc)).antisymm (step_below fun c hc => Or.inr (h c hc).symm)

end ComponentSpec
