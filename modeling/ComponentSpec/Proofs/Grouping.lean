import ComponentSpec.Proofs.Rewriting

/-!
# Grouping of intersections

The annotation of an object type is a tree. Intersections branch, layers of readonly or parentheses
stand around a branch, and what is neither is a leaf. Members are gathered leaf by leaf from left to
right (`Groups.typeMembers_eq`), and flattening takes each member by itself on the path it started
with (`flatten_eq_mapM`). So the leaves alone decide which members a type has: parts can be grouped
by further intersections, put in parentheses or made readonly, and neither the properties nor the
fault that is reported changes (`grouping_is_immaterial`, `membersOf_regrouped`).

* `Value.IsLeaf`, `Groups` — annotations and the leaves of their trees;
* `exists_unique_leaves` — every annotation whose intersections can be read has its leaves;
* `LeafLists`, `Value.ReadableLeaf` — what a leaf lists;
* `flatten_append` — flattening distributes over concatenation;
* `Groups.flatten_eq_ok` — the properties of a tree are those of its leaves, one after the other;
* `Regroups` — declarations that differ in the grouping.
-/

namespace ComponentSpec

open Checked

variable {types types' : Declarations} {path : List Scalar} {name : Scalar}
  {typeName node node' inner leaf : Value} {nodes nodes' leaves leaves' members l : List Value}

/-! ### Trees and their leaves -/

/-- There is one annotation inside a layer. -/
theorem Wraps.unique {inner' : Value} (h : Wraps node inner) (h' : Wraps node inner') :
    inner = inner' := by
  -- the tag decides which layer it is
  cases h with
  | parentheses tag | operator tag =>
    rcases h' with tag' | ⟨tag', -⟩ | ⟨tag', -, -⟩
    · rfl
    · rfl
    · exact absurd tag' (Value.not_hasTag_of_hasTag tag (by simp))
  | wrapper tag _ only =>
    rcases h' with tag' | ⟨tag', -⟩ | ⟨-, -, only'⟩
    · exact absurd tag' (Value.not_hasTag_of_hasTag tag (by simp))
    · exact absurd tag' (Value.not_hasTag_of_hasTag tag (by simp))
    · rw [only] at only'
      injection only'

/-- **A leaf:** an annotation that is no intersection and has no layer around it. -/
structure Value.IsLeaf (node : Value) : Prop where
  bare : ∀ inner, ¬ Wraps node inner
  single : node.hasTag "TSIntersectionType" = false

/-- **The leaves of annotations,** from left to right. An annotation groups what is grouped inside a
layer or by the parts of an intersection, and a leaf groups itself. -/
inductive Groups : List Value → List Value → Prop where
  | nil : Groups [] []
  | leaf {node : Value} {nodes leaves : List Value} (isLeaf : node.IsLeaf)
      (rest : Groups nodes leaves) : Groups (node :: nodes) (node :: leaves)
  | layer {node inner : Value} {nodes leaves leaves' : List Value} (wraps : Wraps node inner)
      (inside : Groups [inner] leaves) (rest : Groups nodes leaves') :
      Groups (node :: nodes) (leaves ++ leaves')
  | intersection {node : Value} {parts nodes leaves leaves' : List Value}
      (tag : node.hasTag "TSIntersectionType") (listed : (node.get "types").elements = .ok parts)
      (inside : Groups parts leaves) (rest : Groups nodes leaves') :
      Groups (node :: nodes) (leaves ++ leaves')

namespace Groups

theorem append (h : Groups nodes leaves) (h' : Groups nodes' leaves') :
    Groups (nodes ++ nodes') (leaves ++ leaves') := by
  induction h with
  | nil => exact h'
  | leaf isLeaf _ ih => exact .leaf isLeaf ih
  | layer wraps inside _ _ ih =>
    rw [List.append_assoc]
    exact .layer wraps inside ih
  | intersection tag listed inside _ _ ih =>
    rw [List.append_assoc]
    exact .intersection tag listed inside ih

theorem isLeaf (h : Groups nodes leaves) : ∀ leaf ∈ leaves, leaf.IsLeaf := by
  induction h with
  | nil => exact nofun
  | leaf isLeaf _ ih => exact List.forall_mem_cons.2 ⟨isLeaf, ih⟩
  | layer _ _ _ ihInside ihRest => exact List.forall_mem_append.2 ⟨ihInside, ihRest⟩
  | intersection _ _ _ _ ihInside ihRest => exact List.forall_mem_append.2 ⟨ihInside, ihRest⟩

/-- A tree has one sequence of leaves. -/
theorem unique (h : Groups nodes leaves) (h' : Groups nodes leaves') : leaves = leaves' := by
  -- a leaf, a layer and an intersection exclude each other
  induction h generalizing leaves' with
  | nil =>
    cases h'
    rfl
  | leaf isLeaf _ ih =>
    cases h' with
    | leaf _ rest => rw [ih rest]
    | layer wraps => exact absurd wraps (isLeaf.bare _)
    | intersection tag =>
      rw [isLeaf.single] at tag
      cases tag
  | layer wraps _ _ ihInside ihRest =>
    cases h' with
    | leaf isLeaf => exact absurd wraps (isLeaf.bare _)
    | layer wraps' inside rest =>
      obtain rfl := wraps.unique wraps'
      rw [ihInside inside, ihRest rest]
    | intersection tag => exact absurd wraps (bare_of_hasTag tag (by simp) _)
  | intersection tag listed _ _ ihInside ihRest =>
    cases h' with
    | leaf isLeaf =>
      rw [isLeaf.single] at tag
      cases tag
    | layer wraps => exact absurd wraps (bare_of_hasTag tag (by simp) _)
    | intersection _ listed' inside rest =>
      cases listed.symm.trans listed'
      rw [ihInside inside, ihRest rest]

theorem of_wraps (wraps : Wraps node inner) (inside : Groups [inner] leaves) :
    Groups [node] leaves := by
  rw [← List.append_nil leaves]
  exact .layer wraps inside .nil

theorem of_intersection {parts : List Value} (tag : node.hasTag "TSIntersectionType")
    (listed : (node.get "types").elements = .ok parts) (inside : Groups parts leaves) :
    Groups [node] leaves := by
  rw [← List.append_nil leaves]
  exact .intersection tag listed inside .nil

/-- The layers can be put back around what was unwrapped. -/
theorem of_withoutReadonly (h : Groups [node.withoutReadonly] leaves) : Groups [node] leaves :=
  withoutReadonly_induction (P := fun node => Groups [node] leaves) node h
    fun _ _ wraps inside => of_wraps wraps inside

end Groups

theorem exists_groups_of_forall (h : ∀ node ∈ nodes, ∃ leaves, Groups [node] leaves) :
    ∃ leaves, Groups nodes leaves := by
  induction nodes with
  | nil => exact ⟨[], .nil⟩
  | cons node nodes ih =>
    obtain ⟨first, others⟩ := List.forall_mem_cons.1 h
    obtain ⟨leaves, grouped⟩ := first
    obtain ⟨leaves', grouped'⟩ := ih others
    exact ⟨leaves ++ leaves', grouped.append grouped'⟩

/-- **Every annotation has its leaves,** if its intersections can be read. -/
theorem exists_unique_leaves (node : Value)
    (readable : ∀ part ∈ node.parts, part.hasTag "TSIntersectionType" →
      ∃ items, (part.get "types").elements = .ok items) : ∃! leaves, Groups [node] leaves := by
  suffices grouped : ∃ leaves, Groups [node] leaves by
    obtain ⟨leaves, h⟩ := grouped
    exact ⟨leaves, h, fun _ h' => h'.unique h⟩
  -- what is behind the layers is a leaf if it does not branch
  have unbranched (node : Value)
      (single : node.withoutReadonly.hasTag "TSIntersectionType" = false) :
      ∃ leaves, Groups [node] leaves :=
    ⟨_, .of_withoutReadonly (.leaf ⟨bare_withoutReadonly node, single⟩ .nil)⟩
  induction node using typeMembers.induct with
  | case1 node inner tag => exact unbranched node (by simp [inner, Value.hasTag_of_hasTag tag])
  | case2 node inner _ tag f unread =>
    obtain ⟨items, listed⟩ := readable inner (Value.withoutReadonly_mem_parts node) tag
    rw [listed] at unread
    cases unread
  | case3 node inner _ tag parts listed ih =>
    have below : node.withoutReadonly ∈ node.parts := Value.withoutReadonly_mem_parts node
    have inside (part : Value) (hpart : part ∈ parts) : ∃ leaves, Groups [part] leaves := by
      refine ih part hpart fun u hu branch => readable u ?_ branch
      have within : u ∈ (inner.get "types").parts :=
        Value.mem_parts_of_mem_elements listed hpart hu (Value.isObject_of_hasTag branch)
      exact Value.mem_parts_trans (Value.mem_parts_trans within _ (Value.get_tag_mem_parts tag _))
        _ below
    obtain ⟨leaves, grouped⟩ := exists_groups_of_forall inside
    exact ⟨leaves, .of_withoutReadonly (.of_intersection tag listed grouped)⟩
  | case4 node inner _ single _ => exact unbranched node (by simpa using single)
  | case5 node inner _ single _ => exact unbranched node (by simpa using single)

/-! ### What the leaves list -/

/-- **What a leaf lists:** a literal its members, a reference itself. -/
inductive LeafLists : Value → List Value → Prop where
  | literal {leaf : Value} {members : List Value} (tag : leaf.hasTag "TSTypeLiteral")
      (listed : (leaf.get "members").elements = .ok members) : LeafLists leaf members
  | reference {leaf : Value} (tag : leaf.hasTag "TSTypeReference") : LeafLists leaf [leaf]

/-- Whether an annotation is a literal or a reference. -/
def Value.isObjectLike (node : Value) : Bool :=
  node.hasTagIn ["TSTypeLiteral", "TSTypeReference"]

/-- **A leaf as a parser writes it:** the members of a literal can be run through, and the place of
what is neither a literal nor a reference can be told. -/
structure Value.ReadableLeaf (leaf : Value) : Prop where
  listed : leaf.hasTag "TSTypeLiteral" → ∃ members, (leaf.get "members").elements = .ok members
  placed : leaf.isObjectLike = false → ∃ place, Place.ofNode leaf = .ok place

theorem Value.isObjectLike_iff :
    node.isObjectLike ↔ node.hasTag "TSTypeLiteral" ∨ node.hasTag "TSTypeReference" := by
  simp [isObjectLike, hasTagIn_iff]

theorem Value.ReadableLeaf.exists_lists (h : leaf.ReadableLeaf) (object : leaf.isObjectLike) :
    ∃ members, LeafLists leaf members := by
  rcases Value.isObjectLike_iff.1 object with tag | tag
  · obtain ⟨members, listed⟩ := h.listed tag
    exact ⟨members, .literal tag listed⟩
  · exact ⟨[leaf], .reference tag⟩

theorem LeafLists.isObjectLike (h : LeafLists leaf members) : leaf.isObjectLike := by
  cases h with
  | literal tag => exact Value.isObjectLike_iff.2 (.inl tag)
  | reference tag => exact Value.isObjectLike_iff.2 (.inr tag)

namespace Value.IsLeaf

theorem typeMembers_eq_ok (h : leaf.IsLeaf) :
    typeMembers typeName leaf = .ok members ↔ LeafLists leaf members := by
  constructor
  · intro given
    rw [typeMembers_eq, withoutReadonly_of_bare h.bare] at given
    split at given
    · next tag => exact .literal tag given
    · split at given
      · next branch =>
        rw [h.single] at branch
        cases branch
      · split at given
        · next tag =>
          cases given
          exact .reference tag
        · cases given
  · rintro (⟨tag, listed⟩ | tag)
    · rw [typeMembers_eq, withoutReadonly_of_bare h.bare, if_pos tag, listed]
    · rw [typeMembers_eq, withoutReadonly_of_bare h.bare,
        if_neg (Value.not_hasTag_of_hasTag tag (by simp)), if_neg (by simp [h.single]), if_pos tag]

/-- A leaf that is neither a literal nor a reference is reported. -/
theorem typeMembers_of_other (h : leaf.IsLeaf) (other : leaf.isObjectLike = false)
    (typeName : Value) :
    typeMembers typeName leaf = .error (.about (.typeMissing typeName) leaf) := by
  have neither : ¬ (leaf.hasTag "TSTypeLiteral" ∨ leaf.hasTag "TSTypeReference") := by
    rw [← Value.isObjectLike_iff, other]
    exact Bool.false_ne_true
  rw [typeMembers_eq, withoutReadonly_of_bare h.bare, if_neg fun tag => neither (.inl tag),
    if_neg (by simp [h.single]), if_neg fun tag => neither (.inr tag)]

end Value.IsLeaf

namespace Groups

/-- **Members are gathered leaf by leaf,** whatever the tree. -/
theorem flatten_mapM_typeMembers (h : Groups nodes leaves) (typeName : Value) :
    List.flatten <$> nodes.mapM (typeMembers typeName) =
      List.flatten <$> leaves.mapM (typeMembers typeName) := by
  -- on the tree: layers change nothing, and an intersection gathers from its parts as a list does
  induction h with
  | nil => rfl
  | leaf _ _ ih => rw [flatten_mapM_cons, flatten_mapM_cons, ih]
  | layer wraps _ _ ihInside ihRest =>
    rw [flatten_mapM_singleton] at ihInside
    rw [flatten_mapM_cons, typeMembers_of_wraps wraps, ihInside, ihRest, flatten_mapM_append]
  | intersection tag listed _ _ ihInside ihRest =>
    rw [flatten_mapM_cons, typeMembers_of_intersection tag listed, ihInside, ihRest,
      flatten_mapM_append]

theorem typeMembers_eq (h : Groups [node] leaves) (typeName : Value) :
    typeMembers typeName node = List.flatten <$> leaves.mapM (typeMembers typeName) := by
  rw [← h.flatten_mapM_typeMembers, flatten_mapM_singleton]

/-- Trees with the same leaves have the same members, or fail in the same way. -/
theorem typeMembers_congr (h : Groups [node] leaves) (h' : Groups [node'] leaves)
    (typeName : Value) : typeMembers typeName node = typeMembers typeName node' :=
  (h.typeMembers_eq typeName).trans (h'.typeMembers_eq typeName).symm

/-- **The members of a tree** are what its leaves list, one after the other. -/
theorem typeMembers_eq_ok (h : Groups [node] leaves) :
    typeMembers typeName node = .ok members ↔
      ∃ lists, List.Forall₂ LeafLists leaves lists ∧ lists.flatten = members := by
  have read (lists : List (List Value)) :
      leaves.mapM (typeMembers typeName) = .ok lists ↔ List.Forall₂ LeafLists leaves lists := by
    rw [mapM_eq_ok]
    constructor
    · intro given
      exact ((List.forall₂_and_left _ _).2 ⟨h.isLeaf, given⟩).imp fun _ _ ⟨isLeaf, members⟩ =>
        isLeaf.typeMembers_eq_ok.1 members
    · intro listed
      exact ((List.forall₂_and_left _ _).2 ⟨h.isLeaf, listed⟩).imp fun _ _ ⟨isLeaf, members⟩ =>
        isLeaf.typeMembers_eq_ok.2 members
  simp only [h.typeMembers_eq, map_eq_ok, read]

/-- A tree of literals and references has members. -/
theorem exists_typeMembers (h : Groups [node] leaves)
    (readable : ∀ leaf ∈ leaves, leaf.ReadableLeaf)
    (object : ∀ leaf ∈ leaves, leaf.isObjectLike) (typeName : Value) :
    ∃ members, typeMembers typeName node = .ok members := by
  rw [h.typeMembers_eq]
  cases gathered : leaves.mapM (typeMembers typeName) with
  | ok lists => exact ⟨_, rfl⟩
  | error f =>
    obtain ⟨leaf, hleaf, failed⟩ := exists_mem_of_mapM_eq_error gathered
    obtain ⟨members, lists⟩ := (readable leaf hleaf).exists_lists (object leaf hleaf)
    rw [(h.isLeaf leaf hleaf).typeMembers_eq_ok.2 lists] at failed
    cases failed

/-- **A tree with another leaf is malformed:** a leaf that is neither a literal nor a reference is
reported. -/
theorem typeMembers_of_other (h : Groups [node] leaves)
    (readable : ∀ leaf ∈ leaves, leaf.ReadableLeaf)
    (other : ∃ leaf ∈ leaves, leaf.isObjectLike = false) (typeName : Value) :
    ∃ r, typeMembers typeName node = .error (.report r) ∧ r.cause = .typeMissing typeName ∧
      r.node ∈ leaves ∧ r.node.isObjectLike = false := by
  rw [h.typeMembers_eq]
  cases gathered : leaves.mapM (typeMembers typeName) with
  | ok lists =>
    -- the other leaf cannot have been passed
    obtain ⟨leaf, hleaf, other⟩ := other
    obtain ⟨members, given⟩ := exists_of_mem_of_mapM_eq_ok gathered hleaf
    rw [(h.isLeaf leaf hleaf).typeMembers_of_other other] at given
    cases given
  | error f =>
    obtain ⟨leaf, hleaf, failed⟩ := exists_mem_of_mapM_eq_error gathered
    have isLeaf := h.isLeaf leaf hleaf
    cases kind : leaf.isObjectLike with
    | true =>
      obtain ⟨members, lists⟩ := (readable leaf hleaf).exists_lists kind
      rw [isLeaf.typeMembers_eq_ok.2 lists] at failed
      cases failed
    | false =>
      obtain ⟨place, placed⟩ := (readable leaf hleaf).placed kind
      rw [isLeaf.typeMembers_of_other kind, Fault.about_of_placed placed] at failed
      cases failed
      exact ⟨_, rfl, rfl, hleaf, kind⟩

/-- With leaves as a parser writes them, a tree has members exactly if they are literals and
references. -/
theorem exists_typeMembers_iff (h : Groups [node] leaves)
    (readable : ∀ leaf ∈ leaves, leaf.ReadableLeaf) :
    (∃ members, typeMembers typeName node = .ok members) ↔ ∀ leaf ∈ leaves, leaf.isObjectLike := by
  constructor
  · rintro ⟨members, given⟩ leaf hleaf
    obtain ⟨lists, listed, -⟩ := h.typeMembers_eq_ok.1 given
    obtain ⟨own, -, listed⟩ := exists_mem_of_forall₂ listed hleaf
    exact listed.isObjectLike
  · intro object
    exact h.exists_typeMembers readable object typeName

/-- It is malformed exactly if one of the leaves is neither. -/
theorem malformed_iff (h : Groups [node] leaves)
    (readable : ∀ leaf ∈ leaves, leaf.ReadableLeaf) :
    (∃ r, typeMembers typeName node = .error (.report r) ∧ r.cause.category = .malformed) ↔
      ∃ leaf ∈ leaves, leaf.isObjectLike = false := by
  constructor
  · rintro ⟨r, failed, -⟩
    by_contra others
    have object : ∀ leaf ∈ leaves, leaf.isObjectLike := by
      intro leaf hleaf
      by_contra other
      exact others ⟨leaf, hleaf, by simpa using other⟩
    obtain ⟨members, given⟩ := h.exists_typeMembers readable object typeName
    cases given.symm.trans failed
  · intro other
    obtain ⟨r, failed, cause, -⟩ := h.typeMembers_of_other readable other typeName
    exact ⟨r, failed, by rw [cause]; rfl⟩

end Groups

/-! ### One member at a time -/

/-- **Each member is flattened by itself,** on the path around the whole list. -/
theorem flatten_cons (types : Declarations) (path : List Scalar) (member : Value)
    (members : List Value) :
    flatten types path (member :: members) =
      flatten types path [member] >>= fun own => (own ++ ·) <$> flatten types path members := by
  cases role types member with
  | property tag =>
    rw [flatten_cons_property tag, flatten_cons_property tag, flatten_nil]
    rfl
  | unnamed tag unnamed =>
    rw [flatten_cons_unnamed tag unnamed, flatten_cons_unnamed tag unnamed]
    rfl
  | foreign tag name named undeclared =>
    rw [flatten_cons_foreign tag named undeclared, flatten_cons_foreign tag named undeclared,
      flatten_nil]
    rfl
  | declared tag name named declared =>
    cases back : onPath path name with
    | true =>
      rw [flatten_cons_back tag named declared back, flatten_cons_back tag named declared back]
      rfl
    | false =>
      rw [flatten_cons_declared tag named declared back,
        flatten_cons_declared tag named declared back, flatten_nil]
      simp only [bind_assoc, map_ok, ok_bind, List.append_nil]
  | other noProperty noReference =>
    rw [flatten_cons_other noProperty noReference, flatten_cons_other noProperty noReference]
    rfl

theorem flatten_eq_mapM (types : Declarations) (path : List Scalar) (members : List Value) :
    flatten types path members =
      List.flatten <$> members.mapM fun member => flatten types path [member] := by
  induction members with
  | nil =>
    rw [flatten_nil]
    rfl
  | cons member members ih => rw [flatten_cons, flatten_mapM_cons, ih]

/-- **Flattening distributes over concatenation.** -/
theorem flatten_append (types : Declarations) (path : List Scalar)
    (members members' : List Value) :
    flatten types path (members ++ members') =
      flatten types path members >>= fun l => (l ++ ·) <$> flatten types path members' := by
  rw [flatten_eq_mapM, flatten_mapM_append, ← flatten_eq_mapM, ← flatten_eq_mapM]

theorem flatten_append_eq_ok {members' : List Value} :
    flatten types path (members ++ members') = .ok l ↔
      ∃ own own', flatten types path members = .ok own ∧
        flatten types path members' = .ok own' ∧ own ++ own' = l := by
  simp only [flatten_append, bind_eq_ok, map_eq_ok, exists_and_left]

/-- **The properties of a tree** are those of its leaves, one after the other. -/
theorem Groups.flatten_eq_ok (h : Groups [node] leaves) :
    (typeMembers typeName node >>= flatten types path) = .ok l ↔
      ∃ lists, List.Forall₂ (fun leaf own =>
        (typeMembers typeName leaf >>= flatten types path) = .ok own) leaves lists ∧
        lists.flatten = l := by
  rw [h.typeMembers_eq]
  clear h
  -- on the leaves: what the first one lists is flattened by itself
  induction leaves generalizing l with
  | nil => simp [eq_comm]
  | cons leaf leaves ih =>
    rw [flatten_mapM_cons, bind_assoc]
    constructor
    · intro given
      obtain ⟨first, hfirst, given⟩ := bind_eq_ok.1 given
      obtain ⟨whole, gathered, given⟩ := bind_eq_ok.1 given
      obtain ⟨rest, hrest, rfl⟩ := map_eq_ok.1 gathered
      obtain ⟨own, own', flat, flat', rfl⟩ := flatten_append_eq_ok.1 given
      obtain ⟨lists, others, rfl⟩ := ih.1 (bind_eq_ok.2 ⟨rest, hrest, flat'⟩)
      exact ⟨own :: lists, .cons (bind_eq_ok.2 ⟨first, hfirst, flat⟩) others, rfl⟩
    · rintro ⟨lists, listed, rfl⟩
      cases listed with
      | @cons _ own _ lists head others =>
        obtain ⟨first, hfirst, flat⟩ := bind_eq_ok.1 head
        obtain ⟨rest, hrest, flat'⟩ := bind_eq_ok.1 (ih.2 ⟨lists, others, rfl⟩)
        have whole := flatten_append_eq_ok.2 ⟨own, lists.flatten, flat, flat', rfl⟩
        exact bind_eq_ok.2 ⟨first, hfirst, bind_eq_ok.2 ⟨first ++ rest, map_eq_ok.2
          ⟨rest, hrest, rfl⟩, whole⟩⟩

/-! ### Grouping an alias otherwise -/

/-- **A declaration that is grouped otherwise:** the same one, or an alias for another annotation
with the same leaves. -/
inductive Regroups : Value → Value → Prop where
  | same (declaration : Value) : Regroups declaration declaration
  | ofAlias {declaration declaration' : Value} {leaves : List Value}
      (tag : declaration.hasTag "TSTypeAliasDeclaration")
      (tag' : declaration'.hasTag "TSTypeAliasDeclaration")
      (tree : Groups [declaration.get "typeAnnotation"] leaves)
      (tree' : Groups [declaration'.get "typeAnnotation"] leaves) :
      Regroups declaration declaration'

/-- **Two tables that differ in the grouping** of what their aliases stand for. -/
def RegroupedTypes (types types' : Declarations) : Prop :=
  ∀ name, Option.Rel Regroups (types.find? name) (types'.find? name)

namespace RegroupedTypes

theorem has_eq (h : RegroupedTypes types types') (name : Scalar) :
    types.has name = types'.has name := by
  have regrouped := h name
  rw [← Table.isSome_find?, ← Table.isSome_find?]
  generalize types.find? name = declared at regrouped ⊢
  generalize types'.find? name = declared' at regrouped ⊢
  cases regrouped with
  | some | none => rfl

theorem membersDeclared_eq (h : RegroupedTypes types types') (name : Scalar) :
    membersDeclared types name = membersDeclared types' name := by
  have regrouped := h name
  generalize found : types.find? name = declared at regrouped
  generalize found' : types'.find? name = declared' at regrouped
  cases regrouped with
  | none => rw [membersDeclared, membersDeclared, found, found']
  | some regroups =>
    cases regroups with
    | same => rw [membersDeclared, membersDeclared, found, found']
    | ofAlias tag tag' tree tree' =>
      rw [membersDeclared_of_find? found tag, membersDeclared_of_find? found' tag',
        declaredMembers_of_alias tag, declaredMembers_of_alias tag', tree.typeMembers_congr tree']

theorem flatten_eq (h : RegroupedTypes types types') (path : List Scalar) (members : List Value) :
    flatten types path members = flatten types' path members :=
  flatten_congr (P := fun _ => True)
    (fun _ name _ _ _ => ⟨h.has_eq name, h.membersDeclared_eq name⟩)
    (fun _ _ _ _ _ _ _ _ _ => trivial) path members fun _ _ => trivial

end RegroupedTypes

/-- **The members of a type do not depend on the grouping** in any alias of the file. -/
theorem membersOf_regrouped (h : RegroupedTypes types types') (name : Scalar) :
    membersOf types name = membersOf types' name := by
  rw [membersOf, membersOf, h.membersDeclared_eq]
  exact bind_congr_ok fun members _ => h.flatten_eq [name] members

/-! ### What grouping leaves as it is -/

/-- **Grouping is immaterial.** Through any tree of intersections and layers, the members of an
annotation are what the leaves list, from left to right; with leaves as a parser writes them, it has
members exactly if they are literals and references, and it is malformed exactly if one of them is
neither. So two trees with the same leaves have the same properties, or fail in the same way, and
what is flattened of a concatenation is the concatenation of what is flattened. -/
theorem grouping_is_immaterial (types : Declarations) (path : List Scalar) (typeName : Value) :
    (∀ node leaves, Groups [node] leaves →
      (∀ members, typeMembers typeName node = .ok members ↔
        ∃ lists, List.Forall₂ LeafLists leaves lists ∧ lists.flatten = members) ∧
      ((∀ leaf ∈ leaves, leaf.ReadableLeaf) →
        ((∃ members, typeMembers typeName node = .ok members) ↔
          ∀ leaf ∈ leaves, leaf.isObjectLike) ∧
        ((∃ r, typeMembers typeName node = .error (.report r) ∧ r.cause.category = .malformed) ↔
          ∃ leaf ∈ leaves, leaf.isObjectLike = false))) ∧
    (∀ node node' leaves, Groups [node] leaves → Groups [node'] leaves →
      (typeMembers typeName node >>= flatten types path) =
        (typeMembers typeName node' >>= flatten types path)) ∧
    (∀ members members', flatten types path (members ++ members') =
      flatten types path members >>= fun l => (l ++ ·) <$> flatten types path members') := by
  refine ⟨fun node leaves tree => ⟨fun members => tree.typeMembers_eq_ok, fun readable =>
    ⟨tree.exists_typeMembers_iff readable, tree.malformed_iff readable⟩⟩, ?_,
    flatten_append types path⟩
  intro node node' leaves tree tree'
  rw [tree.typeMembers_congr tree']

namespace Sample

def parenthesized (type : Value) : Value :=
  Sample.node "TSParenthesizedType" [("typeAnnotation", type)]

def readonly (type : Value) : Value :=
  Sample.node "TSTypeOperator" [("operator", .str "readonly"), ("typeAnnotation", type)]

def textProperty (name : String) : Value := property name (keyword "TSStringKeyword")

/-- `Readonly<(Base & { title }) & readonly { hint }>` -/
def nestedLabel : Value :=
  reference "Readonly" [intersection [
    parenthesized (intersection [reference "Base" [], literal [textProperty "title"]]),
    readonly (literal [textProperty "hint"])]]

/-- `Base & ({ title } & $ReadOnly<{ hint }>)` -/
def levelLabel : Value :=
  intersection [reference "Base" [], parenthesized (intersection [
    literal [textProperty "title"], reference "$ReadOnly" [literal [textProperty "hint"]]])]

def labelLeaves : List Value :=
  [reference "Base" [], literal [textProperty "title"], literal [textProperty "hint"]]

def labelTypes : Declarations :=
  table [("Base", aliasNamed "Base" (literal [textProperty "base"]))]

theorem groups_literal (members nodes : List Value) {leaves : List Value}
    (rest : Groups nodes leaves) :
    Groups (literal members :: nodes) (literal members :: leaves) := by
  have tag : (literal members).hasTag "TSTypeLiteral" := by simp [literal]
  exact .leaf ⟨bare_of_hasTag tag (by simp), by simp [literal]⟩ rest

theorem groups_base (nodes : List Value) {leaves : List Value} (rest : Groups nodes leaves) :
    Groups (reference "Base" [] :: nodes) (reference "Base" [] :: leaves) :=
  .leaf ⟨bare_reference "Base" [] (by decide), by simp [reference]⟩ rest

theorem groups_intersection {parts leaves : List Value} (inside : Groups parts leaves) :
    Groups [intersection parts] leaves :=
  .of_intersection (by simp [intersection]) (Value.elements_arr parts) inside

theorem wraps_parenthesized (type : Value) : Wraps (parenthesized type) type := by
  have tag : (parenthesized type).hasTag "TSParenthesizedType" := by simp [parenthesized]
  exact .parentheses tag

theorem wraps_readonly (type : Value) : Wraps (readonly type) type := by
  have tag : (readonly type).hasTag "TSTypeOperator" := by simp [readonly]
  exact .operator tag rfl

theorem wraps_reference {name : String} (named : name ∈ readonlyWrappers) (type : Value) :
    Wraps (reference name [type]) type := by
  refine .wrapper (by simp [reference]) ?_ rfl
  rw [referenceName_reference]
  simpa [Value.isOneOf] using named

theorem groups_nestedLabel : Groups [nestedLabel] labelLeaves := by
  have inner : Groups [parenthesized (intersection
      [reference "Base" [], literal [textProperty "title"]])]
      [reference "Base" [], literal [textProperty "title"]] :=
    .of_wraps (wraps_parenthesized _)
      (groups_intersection (groups_base _ (groups_literal _ _ .nil)))
  have hint : Groups [readonly (literal [textProperty "hint"])] [literal [textProperty "hint"]] :=
    .of_wraps (wraps_readonly _) (groups_literal _ _ .nil)
  exact .of_wraps (wraps_reference (by decide) _) (groups_intersection (inner.append hint))

theorem groups_levelLabel : Groups [levelLabel] labelLeaves := by
  have hint : Groups [reference "$ReadOnly" [literal [textProperty "hint"]]]
      [literal [textProperty "hint"]] :=
    .of_wraps (wraps_reference (by decide) _) (groups_literal _ _ .nil)
  have inner : Groups [parenthesized (intersection [literal [textProperty "title"],
      reference "$ReadOnly" [literal [textProperty "hint"]]])]
      [literal [textProperty "title"], literal [textProperty "hint"]] :=
    .of_wraps (wraps_parenthesized _) (groups_intersection (groups_literal _ _ hint))
  exact groups_intersection (groups_base _ inner)

theorem flatten_base :
    flatten labelTypes [.str "Props"] [reference "Base" []] = .ok [textProperty "base"] := by
  have declares : Declares labelTypes (.str "Base") ([textProperty "base"] ++ []) :=
    .ofAlias rfl rfl (.literal rfl rfl .nil)
  rw [flatten_cons_declared rfl (referenceName_reference _ _) rfl (by decide),
    membersDeclared_eq_ok.2 declares, ok_bind, List.append_nil, flatten_cons_property rfl,
    flatten_nil, flatten_nil]
  rfl

end Sample

open Sample in
/-- A base, a title and a hint, grouped in two ways, and a text among the parts. -/
theorem grouping_is_immaterial_labels :
    (Groups [nestedLabel] labelLeaves ∧ Groups [levelLabel] labelLeaves ∧
      typeMembers (.str "Props") nestedLabel =
        .ok [reference "Base" [], textProperty "title", textProperty "hint"] ∧
      (typeMembers (.str "Props") levelLabel >>= flatten labelTypes [.str "Props"]) =
        .ok [textProperty "base", textProperty "title", textProperty "hint"]) ∧
    ∃ r, typeMembers (.str "Props")
        (intersection [literal [textProperty "title"], keyword "TSStringKeyword"]) =
          .error (.report r) ∧ r.cause.category = .malformed := by
  obtain ⟨gathers, same, distributes⟩ :=
    grouping_is_immaterial labelTypes [.str "Props"] (.str "Props")
  constructor
  · have lists : List.Forall₂ LeafLists labelLeaves
        [[reference "Base" []], [textProperty "title"], [textProperty "hint"]] :=
      .cons (.reference rfl) (.cons (.literal rfl rfl) (.cons (.literal rfl rfl) .nil))
    have members := ((gathers _ _ groups_nestedLabel).1 _).2 ⟨_, lists, rfl⟩
    have own : flatten labelTypes [.str "Props"] [textProperty "title", textProperty "hint"] =
        .ok [textProperty "title", textProperty "hint"] := by
      rw [flatten_cons_property rfl, flatten_cons_property rfl, flatten_nil]
      rfl
    refine ⟨groups_nestedLabel, groups_levelLabel, members, ?_⟩
    calc typeMembers (.str "Props") levelLabel >>= flatten labelTypes [.str "Props"]
      _ = typeMembers (.str "Props") nestedLabel >>= flatten labelTypes [.str "Props"] :=
          same _ _ _ groups_levelLabel groups_nestedLabel
      _ = flatten labelTypes [.str "Props"]
            ([reference "Base" []] ++ [textProperty "title", textProperty "hint"]) := by
          rw [members]
          rfl
      _ = .ok [textProperty "base", textProperty "title", textProperty "hint"] := by
          rw [distributes, flatten_base, own]
          rfl
  · have tag : (keyword "TSStringKeyword").hasTag "TSStringKeyword" := rfl
    have text : (keyword "TSStringKeyword").IsLeaf := ⟨bare_of_hasTag tag (by simp), rfl⟩
    have tree : Groups [intersection [literal [textProperty "title"], keyword "TSStringKeyword"]]
        [literal [textProperty "title"], keyword "TSStringKeyword"] :=
      groups_intersection (groups_literal _ _ (.leaf text .nil))
    have readable : ∀ leaf ∈ [literal [textProperty "title"], keyword "TSStringKeyword"],
        leaf.ReadableLeaf := by
      refine List.forall_mem_cons.2 ⟨⟨fun _ => ⟨_, rfl⟩, fun _ => ⟨.unknown, rfl⟩⟩,
        List.forall_mem_singleton.2 ⟨fun tag => ?_, fun _ => ⟨.unknown, rfl⟩⟩⟩
      cases tag
    exact ((gathers _ _ tree).2 readable).2.2 ⟨keyword "TSStringKeyword", by simp, rfl⟩

end ComponentSpec
