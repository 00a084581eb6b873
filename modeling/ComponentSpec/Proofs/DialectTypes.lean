import ComponentSpec.Proofs.Outline
import ComponentSpec.Proofs.Tables
import ComponentSpec.Proofs.Twins

/-!
# Types in two dialects

The declared types of a file and of its rewriting have the same names and, under each, a declaration
and its rewriting. Members are found alike in both, and an annotation has the same type in both, or
no type in either, for a reason of the same kind.

* `Dialect.Tables` — the declared types;
* `Twins.withoutReadonly`, `typeMembers_alike`, `flatten_alike`, `membersOf_alike` — members;
* `splitNullable_alike`, `resolveAlias_alike`, `outline_alike` — one level of an annotation;
* `annotate_alike` — types.
-/

namespace ComponentSpec.Dialect

open Checked

variable {d : Dialect} {node node' : Value} {types types' : Declarations}

/-! ### Declared types -/

/-- **The same names,** each with a declaration and its rewriting. -/
abbrev Tables (d : Dialect) (types types' : Declarations) : Prop :=
  List.Forall₂ (fun e e' => e.1 = e'.1 ∧ d.Writes e.2 e'.2) types types'

namespace Tables

/-- A name stands for a declaration and its rewriting, or for nothing in either table. -/
theorem declaration (h : d.Tables types types') (name : Scalar) :
    d.Writes ((types.find? name).getD .null) ((types'.find? name).getD .null) := by
  induction h with
  | nil => exact .scalar .null
  | @cons e e' types types' head _ ih =>
    rw [Table.find?_cons, Table.find?_cons, ← head.1]
    split
    · exact head.2
    · exact ih

/-- The same names are declared. -/
theorem has (h : d.Tables types types') (name : Scalar) : types'.has name = types.has name := by
  induction h with
  | nil => rfl
  | @cons e e' types types' head _ ih => rw [Table.has_cons, Table.has_cons, ← head.1, ih]

theorem set (h : d.Tables types types') (name : Scalar) {declaration declaration' : Value}
    (written : d.Writes declaration declaration') :
    d.Tables (types.set name declaration) (types'.set name declaration') := by
  induction h with
  | nil => exact .cons ⟨rfl, written⟩ .nil
  | @cons e e' types types' head tail ih =>
    rw [Table.set, Table.set, ← head.1]
    split
    · exact .cons ⟨rfl, written⟩ tail
    · exact .cons ⟨rfl, head.2⟩ ih

/-- The tables are as long and as heavy, so typing is bounded at the same depth. -/
theorem depthBound (h : d.Tables types types') (weight : Nat) :
    depthBound types' weight = depthBound types weight := by
  have heavy : Value.weightEntries types' = Value.weightEntries types := by
    induction h with
    | nil => rfl
    | @cons e e' types types' head _ ih =>
      rw [Value.weightEntries, Value.weightEntries, ih, head.2.weight]
  rw [ComponentSpec.depthBound, ComponentSpec.depthBound, heavy, h.length_eq]

end Tables

/-! ### Members of an annotation -/

/-- A wrapper wraps the rewriting of what it wrapped. -/
theorem Twins.wraps (h : d.Twins node node') {inner : Value} (wraps : Wraps node inner) :
    ∃ inner', Wraps node' inner' ∧ d.Writes inner inner' := by
  cases wraps with
  | parentheses tag =>
    exact ⟨_, .parentheses (h.hasTag "TSParenthesizedType" rfl ▸ tag), h.getType_of_hasTag tag rfl⟩
  | operator tag readonly =>
    exact ⟨_, .operator (h.hasTag "TSTypeOperator" rfl ▸ tag)
      ((h.get "operator" rfl).isText "readonly" ▸ readonly), h.getType_of_hasTag tag rfl⟩
  | wrapper tag readonly only =>
    have arguments := h.typeArguments
    rw [only] at arguments
    obtain ⟨inner', rest, written, none, only'⟩ := List.forall₂_cons_left_iff.1 arguments
    cases none
    exact ⟨inner', .wrapper (h.hasTag "TSTypeReference" rfl ▸ tag) (h.referenceName ▸ readonly)
      only', written⟩

theorem Twins.bare (h : d.Twins node node') (bare : ∀ inner, ¬ Wraps node inner) (inner' : Value) :
    ¬ Wraps node' inner' := by
  rintro (tag | ⟨tag, readonly⟩ | ⟨tag, readonly, only⟩)
  · exact bare _ (.parentheses (h.hasTag "TSParenthesizedType" rfl ▸ tag))
  · exact bare _ (.operator (h.hasTag "TSTypeOperator" rfl ▸ tag)
      ((h.get "operator" rfl).isText "readonly" ▸ readonly))
  · have arguments := h.typeArguments
    rw [only] at arguments
    obtain ⟨inner, rest, -, none, only⟩ := List.forall₂_cons_right_iff.1 arguments
    cases none
    exact bare inner (.wrapper (h.hasTag "TSTypeReference" rfl ▸ tag) (h.referenceName ▸ readonly)
      only)

/-- Along the wrappers. -/
theorem Twins.withoutReadonly (h : d.Twins node node') :
    d.Twins node.withoutReadonly node'.withoutReadonly := by
  have alike : ∀ node', d.Twins node node' →
      d.Twins node.withoutReadonly node'.withoutReadonly := by
    refine withoutReadonly_induction (P := fun node => ∀ node', d.Twins node node' →
      d.Twins node.withoutReadonly node'.withoutReadonly) node (fun node' h => ?_)
      fun node inner wraps ih node' h => ?_
    · have bare := bare_withoutReadonly node
      rwa [withoutReadonly_of_bare bare, withoutReadonly_of_bare (h.bare bare)]
    · obtain ⟨inner', wraps', written⟩ := h.wraps wraps
      rw [withoutReadonly_of_wraps wraps, withoutReadonly_of_wraps wraps']
      exact ih inner' written.twins
  exact alike node' h

/-- **The members of an annotation.** The parts of an intersection are gone through in step. -/
theorem typeMembers_alike {node node' : Value} (h : d.Twins node node')
    (typeName typeName' : Value) :
    Alike (List.Forall₂ d.Twins) (typeMembers typeName node) (typeMembers typeName' node') := by
  have inside := h.withoutReadonly
  rw [typeMembers_eq, typeMembers_eq, inside.hasTag "TSTypeLiteral" rfl,
    inside.hasTag "TSIntersectionType" rfl, inside.hasTag "TSTypeReference" rfl]
  split
  · exact (inside.get "members" rfl).elements_alike
  · split
    · refine (inside.get "types" rfl).elements_alike.bind fun parts parts' listed twins => ?_
      refine Alike.map (Alike.mapM twins fun part part' mem twins => ?_) fun _ _ given =>
        List.rel_flatten given
      exact typeMembers_alike twins typeName typeName'
    · split
      · exact .ok (.cons inside .nil)
      · exact .error (inside.about rfl)
  termination_by node.weight
  decreasing_by
    have := Value.weight_le_of_mem_elements listed mem
    have := Value.weight_get_lt (Value.isObject_of_hasTag ‹_›) "types"
    have := Value.weight_withoutReadonly_le node
    omega

/-- Extends clauses may have another tag, but they stand first in either dialect. -/
theorem declaredMembers_alike (h : d.Writes node node') (typeName typeName' : Value) :
    Alike (List.Forall₂ d.Twins) (declaredMembers typeName node)
      (declaredMembers typeName' node') := by
  rw [declaredMembers, declaredMembers, h.twins.hasTag "TSInterfaceDeclaration" rfl,
    h.twins.hasTag "TSTypeAliasDeclaration" rfl]
  split
  · have listed := h.twins.interfaceMembers
    generalize node.interfaceMembers = own, node'.interfaceMembers = own' at listed ⊢
    cases listed with
    | none => exact .error (h.twins.about rfl)
    | some written =>
      have own := written.imp fun _ _ => Twins.written
      exact (h.twins.get "extends" rfl).elements_alike.bind fun _ _ _ extended =>
        .ok (List.rel_append extended own)
  · split
    · next tag => exact typeMembers_alike (h.twins.getType_of_hasTag tag rfl).twins _ _
    · exact .error (h.twins.about rfl)

namespace Tables

theorem membersDeclared_alike (h : d.Tables types types') (name : Scalar) :
    Alike (List.Forall₂ d.Twins) (membersDeclared types name) (membersDeclared types' name) := by
  have written := h.declaration name
  rw [membersDeclared, membersDeclared, written.isNull]
  split
  · exact .error rfl
  · exact declaredMembers_alike written _ _

/-- **Members with the declared types inlined,** on the same path. -/
theorem flatten_alike (h : d.Tables types types') (path : List Scalar)
    {members members' : List Value} (twins : List.Forall₂ d.Twins members members') :
    Alike (List.Forall₂ d.Twins) (flatten types path members) (flatten types' path members') := by
  -- along the recursion: both members are properties, or refer to the same type, or are refused
  induction path, members using flatten.induct types generalizing members' with
  | case1 path =>
    cases twins
    rw [flatten_nil, flatten_nil]
    exact .ok .nil
  | case2 path member members property ih =>
    cases twins with
    | cons head tail =>
      rw [flatten_cons_property property,
        flatten_cons_property (head.hasTag "TSPropertySignature" rfl ▸ property)]
      exact (ih tail).map fun _ _ rest => .cons head rest
  | case3 path member members _ reference ihInner ihRest =>
    cases twins with
    | @cons _ member' _ members' head tail =>
      have reference' : member'.hasTagIn Value.referenceTags :=
        head.hasTagIn Value.referenceTags rfl ▸ reference
      have rest := ihRest tail
      cases role types member with
      | property property => rw [not_property_of_reference reference] at property; cases property
      | unnamed _ unnamed =>
        rw [flatten_cons_unnamed reference unnamed,
          flatten_cons_unnamed reference' (head.referenceName ▸ unnamed)]
        exact .error rfl
      | foreign _ name named undeclared =>
        rw [flatten_cons_foreign reference named undeclared,
          flatten_cons_foreign reference' (head.referenceName.trans named)
            ((h.has name).trans undeclared)]
        exact rest.map fun _ _ rest => .cons head rest
      | declared _ name named declared =>
        have named' := head.referenceName.trans named
        have declared' := (h.has name).trans declared
        cases back : onPath path name with
        | true =>
          rw [flatten_cons_back reference named declared back,
            flatten_cons_back reference' named' declared' back]
          exact .error (head.about rfl)
        | false =>
          rw [flatten_cons_declared reference named declared back,
            flatten_cons_declared reference' named' declared' back]
          refine (h.membersDeclared_alike name).bind fun inner inner' _ twins => ?_
          refine (ihInner name declared (by simp [back]) inner twins).bind fun l l' _ inlined => ?_
          exact rest.map fun _ _ rest => List.rel_append inlined rest
      | other _ noReference => rw [reference] at noReference; cases noReference
  | case4 path member members noProperty noReference =>
    cases twins with
    | cons head tail =>
      rw [Bool.not_eq_true] at noProperty noReference
      rw [flatten_cons_other noProperty noReference,
        flatten_cons_other ((head.hasTag "TSPropertySignature" rfl).trans noProperty)
          ((head.hasTagIn Value.referenceTags rfl).trans noReference)]
      exact .error (head.about rfl)

theorem membersOf_alike (h : d.Tables types types') (name : Scalar) :
    Alike (List.Forall₂ d.Twins) (membersOf types name) (membersOf types' name) :=
  (h.membersDeclared_alike name).bind fun _ _ _ twins => h.flatten_alike [name] twins

end Tables

/-! ### Unions without `null` -/

/-- The parts of an object with one entry written. -/
theorem mem_parts_put {value u : Value} {key : String} (h : u ∈ (node.put key value).parts) :
    u = node.put key value ∨ u ∈ node.parts ∨ u ∈ value.parts := by
  cases node with
  | scalar | arr => exact Or.inr (Or.inl h)
  | obj es =>
    simp only [Value.put, Value.parts, List.mem_cons, Value.mem_entryParts] at h ⊢
    rcases h with rfl | rfl | ⟨e, he, hu⟩
    · exact Or.inl rfl
    · exact Or.inr (Or.inl (Or.inr (Or.inl rfl)))
    · rcases Table.mem_set he with he | rfl
      · exact Or.inr (Or.inl (Or.inr (Or.inr ⟨e, he, hu⟩)))
      · exact Or.inr (Or.inr hu)

/-- A union with other members survives, if they do. -/
theorem proper_put (h : d.Proper node) {members : List Value} (proper : d.Proper (.arr members)) :
    d.Proper (node.put "types" (.arr members)) := by
  have tag : (node.put "types" (.arr members)).tag = node.tag := Value.tag_put (by decide)
  have get {key : String} (other : "types" ≠ key) :
      (node.put "types" (.arr members)).get key = node.get key := Value.get_put_of_ne other _
  constructor <;> intro u hu <;> rcases mem_parts_put hu with rfl | hu | hu
  · have regular := h.isRegular
    rwa [Value.isRegular, Value.hasTagIn, tag, get (by decide), get (by decide),
      Value.hasKey_put_of_ne (by decide)]
  · exact h.regular u hu
  · exact proper.regular u hu
  · have apart := h.keepsApart
    rwa [Dialect.keepsApart, Value.isFunction, Value.hasTagIn, tag, get (by decide),
      get (by decide), get (by decide)]
  · exact h.apart u hu
  · exact proper.apart u hu

/-- A union without its `null` is rewritten like the whole one, which is why it is a twin again. -/
theorem write_put (union : node.hasTag "TSUnionType") (members : List Value) :
    d.write (node.put "types" (.arr members)) =
      (d.write node).put "types" (.arr (members.map d.write)) := by
  obtain ⟨es, rfl⟩ := Value.isObject_iff.1 (Value.isObject_of_hasTag union)
  have tagged : ((Value.obj es).put "types" (.arr members)).hasTag "TSUnionType" := by
    rwa [Value.hasTag, Value.tag_put (by decide)]
  -- a union is no function, with these members or with others
  have signs {node : Value} (union : node.hasTag "TSUnionType") : d.signs node = false :=
    signs_of_hasTag union rfl
  have same (k : Scalar) : (d.key false k).same (.str "types") = k.same (.str "types") :=
    d.key_same (Or.inr (by decide)) (Or.inl rfl) k
  have entries (es : Table Value) :
      (Table.set es (.str "types") (.arr members)).map (d.writeEntry false) =
        Table.set (es.map (d.writeEntry false)) (.str "types") (.arr (members.map d.write)) := by
    have here (k : Scalar) : d.writeEntry false (k, .arr members) =
        (d.key false k, .arr (members.map d.write)) := by
      simp [writeEntry, retags, Value.isText]
    induction es with
    | nil => simp [Table.set, here, Dialect.key]
    | cons e es ih =>
      rw [Table.set, List.map_cons, Table.set, writeEntry, same]
      split
      · rw [List.map_cons, here]
      · rw [List.map_cons, ih, writeEntry]
  rw [write_obj, signs union]
  rw [Value.put] at tagged ⊢
  rw [write_obj, signs tagged, entries]
  rfl

theorem Twins.withoutParentheses {node node' : Value} (h : d.Twins node node') :
    d.Twins node.withoutParentheses node'.withoutParentheses := by
  have tagged := h.hasTag "TSParenthesizedType" rfl
  induction node using Value.withoutParentheses.induct generalizing node' with
  | case1 node tag ih =>
    rw [Value.withoutParentheses_of_tag tag, Value.withoutParentheses_of_tag (tagged.trans tag)]
    have inside := (h.getType_of_hasTag tag rfl).twins
    exact ih inside (inside.hasTag _ rfl)
  | case2 node bare =>
    rw [Bool.not_eq_true] at bare
    rwa [Value.withoutParentheses_of_not_tag bare,
      Value.withoutParentheses_of_not_tag (tagged.trans bare)]

/-- Annotations that are read alike, with the same remark. -/
abbrev Remarked {α : Type} (d : Dialect) (r r' : Value × α) : Prop :=
  d.Twins r.1 r'.1 ∧ r.2 = r'.2

/-- The members that are left over are left over after rewriting. -/
theorem filter_map_write {members : List Value} (proper : d.Proper (.arr members)) :
    (members.map d.write).filter (fun t => !t.hasTagIn nullableTags) =
      (members.filter fun t => !t.hasTagIn nullableTags).map d.write := by
  rw [List.filter_map]
  refine congrArg _ (List.filter_congr fun t ht => ?_)
  have written : d.Writes t (d.write t) := ⟨proper.of_mem_items ht, rfl⟩
  rw [Function.comp_apply, written.twins.hasTagIn nullableTags rfl]

/-- No node is run through in the place of a list. -/
theorem not_hasTagIn_of_elements {members : List Value} (ran : node.elements = .ok members)
    (noList : ∀ items, node ≠ .arr items) (tags : List String) :
    ∀ t ∈ members, t.hasTagIn tags = false := by
  intro t ht
  by_contra tagged
  rw [Bool.not_eq_false] at tagged
  exact noList members (Value.eq_arr_of_mem_elements ran ht (Value.mem_parts_self t)
    (Value.isObject_of_hasTagIn tagged))

/-- **A union without `null`.** -/
theorem Twins.splitNullable_alike (h : d.Twins node node') :
    Alike d.Remarked node.splitNullable node'.splitNullable := by
  have inside := h.withoutParentheses
  simp only [Value.splitNullable, inside.hasTag "TSUnionType" rfl]
  split
  · exact .ok ⟨inside, rfl⟩
  · next union =>
    replace union : node.withoutParentheses.hasTag "TSUnionType" := by simpa using union
    have types := inside.get "types" rfl
    by_cases listed : ∃ members, node.withoutParentheses.get "types" = .arr members
    · obtain ⟨members, listed⟩ := listed
      rw [listed] at types ⊢
      have written := inside.writes_of_isObject (Value.isObject_of_hasTag union)
      rw [types.eq, write_arr, Value.elements_arr, Value.elements_arr, ok_bind, ok_bind,
        filter_map_write types.proper, List.length_map, List.length_map]
      split
      · exact .ok ⟨inside, rfl⟩
      · -- one member is left over, or another union
        have left : ∀ t ∈ members.filter fun t => !t.hasTagIn nullableTags, d.Proper t :=
          fun t ht => types.proper.of_mem_items (List.mem_of_mem_filter ht)
        generalize members.filter (fun t => !t.hasTagIn nullableTags) = remaining at left
        have smaller : d.Remarked (node.withoutParentheses.put "types" (.arr remaining), true)
            (node'.withoutParentheses.put "types" (.arr (remaining.map d.write)), true) := by
          refine ⟨.written ⟨proper_put written.proper (.arr left), ?_⟩, rfl⟩
          rw [written.eq, write_put union]
        cases remaining with
        | nil => exact .ok smaller
        | cons only others =>
          cases others with
          | nil => exact .ok ⟨.written ⟨left only List.mem_cons_self, rfl⟩, rfl⟩
          | cons => exact .ok smaller
    · rw [not_exists] at listed
      refine types.elements_alike.bind fun members members' ran twins => ?_
      have keep := not_hasTagIn_of_elements ran listed nullableTags
      have keep' : ∀ t ∈ members', t.hasTagIn nullableTags = false :=
        (forall_mem_iff_of_forall₂ twins fun t t' twins => by
          rw [twins.hasTagIn nullableTags rfl]).1 keep
      rw [List.filter_eq_self.2 fun t ht => by simp [keep t ht],
        List.filter_eq_self.2 fun t ht => by simp [keep' t ht], if_pos rfl, if_pos rfl]
      exact .ok ⟨inside, rfl⟩

/-! ### Defaults -/

theorem Twins.typeLiteral? (h : d.Twins node node') : node'.typeLiteral? = node.typeLiteral? := by
  rw [Value.typeLiteral?, Value.typeLiteral?, h.hasTag "TSNullKeyword" rfl,
    h.hasTag "TSLiteralType" rfl, (h.get "literal" rfl).twins.literal?]

/-- **A type and its default.** -/
theorem Twins.splitDefault_alike (h : d.Twins node node') (name : Value) :
    Alike d.Remarked (splitDefault name node) (splitDefault name node') := by
  rw [splitDefault, splitDefault, h.hasTag "TSTypeReference" rfl,
    h.referenceName]
  split
  · have arguments := h.typeArguments
    generalize node.typeArguments = as, node'.typeArguments = as' at arguments ⊢
    match arguments with
    | .cons type (.cons literal .nil) =>
      simp only [literal.twins.typeLiteral?]
      split
      · exact .ok ⟨type.twins, rfl⟩
      · exact .error (literal.twins.about rfl)
    | .nil | .cons _ .nil | .cons _ (.cons _ (.cons _ _)) => exact .error (h.about rfl)
  · exact .ok ⟨h, rfl⟩

/-! ### Aliases -/

/-- An annotation and its rewriting refer to the same alias. -/
theorem Tables.aliasOf_alike (h : d.Tables types types') (twins : d.Twins node node') :
    Alike (Option.Rel fun r r' => r.1 = r'.1 ∧ d.Writes r.2 r'.2) (aliasOf types node)
      (aliasOf types' node') := by
  rw [aliasOf, aliasOf, twins.hasTag "TSTypeReference" rfl,
    twins.referenceName]
  generalize (if node.hasTag "TSTypeReference" then node.referenceName else .null) = name
  simp only
  split
  · exact .ok .none
  · refine Alike.bind_eq (.of_eq rfl) fun name => ?_
    have written := h.declaration name
    rw [written.twins.hasTag "TSTypeAliasDeclaration" rfl]
    split
    · exact .ok (.some ⟨rfl, written⟩)
    · exact .ok .none

/-- **The annotation behind aliases,** after the same names. -/
theorem Tables.resolveAliasFrom_alike (h : d.Tables types types') {node node' : Value}
    (twins : d.Twins node node') (followed : List Scalar) :
    Alike d.Remarked (resolveAliasFrom types followed node)
      (resolveAliasFrom types' followed node') := by
  have inside := twins.withoutReadonly
  rw [resolveAliasFrom_eq, resolveAliasFrom_eq]
  refine (h.aliasOf_alike inside).bind fun a a' refers related => ?_
  cases related with
  | none => exact .ok ⟨inside, rfl⟩
  | @some r r' related =>
    obtain ⟨name, declaration⟩ := r
    obtain ⟨name', declaration'⟩ := r'
    obtain ⟨same, written⟩ := related
    subst same
    simp only
    by_cases back : onPath followed name
    · rw [if_pos back, if_pos back]
      exact .ok ⟨inside, rfl⟩
    · rw [if_neg back, if_neg back]
      have isAlias := (aliasOf_eq_some.1 refers).isAlias
      have inside := (written.twins.getType_of_hasTag isAlias rfl).twins
      exact h.resolveAliasFrom_alike inside (followed ++ [name])
  termination_by namesAhead types followed
  decreasing_by exact namesAhead_append_lt (has_of_aliasOf refers) back

/-! ### Leaves -/

/-- No dialect touches the tags that forms are told by. -/
theorem Twins.form_alike (h : d.Twins node node') : Alike (· = ·) node.form node'.form := by
  rcases h.tag with same | ⟨tag, tag'⟩
  · rw [Value.form, Value.form, same]
    cases node.tag with
    | scalar s => rw [write_scalar]; exact .of_eq rfl
    | arr | obj => simp only [write_arr, write_obj]; exact .error rfl
  · rw [Value.form, Value.form, Value.hasTag_iff.1 tag, Value.hasTag_iff.1 tag']
    exact .ok rfl

/-- The literals among union members. -/
theorem mapM_typeLiteral? {members members' : List Value}
    (twins : List.Forall₂ d.Twins members members') :
    (members'.mapM fun member => member.typeLiteral?.filter fun v => !v.isNull) =
      members.mapM fun member => member.typeLiteral?.filter fun v => !v.isNull := by
  induction twins with
  | nil => rfl
  | cons head _ ih => rw [List.mapM_cons, List.mapM_cons, ih, head.typeLiteral?]

/-- The options of an enum are literals, which stay. -/
theorem Twins.choices_alike (h : d.Twins node node') :
    Alike (· = ·) (choices node) (choices node') := by
  rw [choices, choices, h.hasTag "TSUnionType" rfl]
  split
  · exact (h.get "types" rfl).elements_alike.bind fun _ _ _ twins =>
      .ok (mapM_typeLiteral? twins).symm
  · exact .ok (mapM_typeLiteral? (.cons h .nil)).symm

/-- **The type of a union of literals.** -/
theorem Twins.enumType_alike (h : d.Twins node node') (slot : Slot) :
    Alike (· = ·) (enumType slot node) (enumType slot node') := by
  refine h.choices_alike.bind_eq fun options => ?_
  cases options with
  | none => exact .error (h.about rfl)
  | some options =>
    have enum : Alike (· = ·) (enumOf slot node options) (enumOf slot node' options) := by
      rw [enumOf, enumOf]
      split
      · exact .ok rfl
      · split
        · exact .ok rfl
        · exact .error (h.about rfl)
    refine enum.bind_eq fun enum => ?_
    cases slot.default with
    | some default =>
      simp only
      split
      · exact .ok rfl
      · exact .error (h.about rfl)
    | none =>
      simp only
      split
      · exact .error (h.about rfl)
      · exact .ok rfl

/-! ### One level -/

/-- **Outlines that are alike:** the same type, or the same path around what is inside. -/
inductive Outlined (d : Dialect) : Outline → Outline → Prop where
  | leaf (type : SchemaType) : Outlined d (.leaf type) (.leaf type)
  | array (path : List Scalar) {element element' : Value} (twins : d.Twins element element') :
      Outlined d (.array path element) (.array path element')
  | object (path : List Scalar) {members members' : List Value}
      (twins : List.Forall₂ d.Twins members members') :
      Outlined d (.object path members) (.object path members')

/-- The name of a reference says the same; its arguments may stand under the other key. -/
theorem Tables.referenceOutline_alike (h : d.Tables types types') (twins : d.Twins node node')
    (slot : Slot) (path : List Scalar) :
    Alike d.Outlined (referenceOutline types slot path node)
      (referenceOutline types' slot path node') := by
  rw [referenceOutline, referenceOutline, twins.referenceName]
  refine Alike.bind_eq (.of_eq rfl) fun name => ?_
  rw [(h.declaration name).twins.hasTag "TSInterfaceDeclaration" rfl]
  split
  · exact .ok (.leaf _)
  · exact .ok (.leaf _)
  · exact .ok (.leaf _)
  · have arguments := twins.typeArguments
    generalize node.typeArguments = as, node'.typeArguments = as' at arguments ⊢
    cases arguments with
    | nil => exact .error (twins.about rfl)
    | cons element others =>
      cases others with
      | nil => exact .ok (.array path element.twins)
      | cons => exact .error (twins.about rfl)
  · split
    · split
      · exact .error (twins.about rfl)
      · exact (h.membersOf_alike name).bind fun _ _ _ members => .ok (.object _ members)
    · exact .error (twins.about rfl)

/-- **One level** behind the aliases, form by form. -/
theorem Tables.formOutline_alike (h : d.Tables types types') (twins : d.Twins node node')
    (slot : Slot) (path : List Scalar) :
    Alike d.Outlined (formOutline types slot path node) (formOutline types' slot path node') := by
  refine twins.form_alike.bind_eq fun form => ?_
  cases form with
  | basic basic => exact .ok (.leaf _)
  | number | other => exact .error (twins.about rfl)
  | array => exact .ok (.array path (twins.get "elementType" rfl).twins)
  | object =>
    refine (typeMembers_alike twins slot.name slot.name).bind fun _ _ _ members => ?_
    exact (h.flatten_alike path members).bind fun _ _ _ members => .ok (.object path members)
  | choice => exact (twins.enumType_alike slot).bind_eq fun type => .ok (.leaf type)
  | reference => exact h.referenceOutline_alike twins slot path

/-- **The outline of an annotation.** -/
theorem Tables.outline_alike (h : d.Tables types types') (twins : d.Twins node node') (slot : Slot)
    (path : List Scalar) : Alike d.Outlined (outline types slot path node)
      (outline types' slot path node') := by
  refine (h.resolveAliasFrom_alike twins []).bind_fst fun inner inner' aliases inside => ?_
  simp only
  split
  · exact .error (inside.about rfl)
  · exact h.formOutline_alike inside slot (path ++ aliases)

/-! ### Members and elements -/

/-- **The slot and the annotation of a member.** -/
theorem Twins.memberSite_alike (h : d.Twins node node') (withDefaults : Bool) :
    Alike (fun s s' : Slot × Value => s.1 = s'.1 ∧ d.Twins s.2 s'.2)
      (memberSite withDefaults node) (memberSite withDefaults node') := by
  rw [memberSite, memberSite]
  simp only [h.keyName, h.hasTag "TSPropertySignature" rfl]
  split
  · exact .error (h.about rfl)
  · next named =>
    have property : node.hasTag "TSPropertySignature" := by
      simp only [Bool.or_eq_true, not_or, Bool.not_eq_true, Bool.not_eq_false'] at named
      exact named.1
    have type := (h.getType_of_hasTag property rfl).withoutWrapper
    refine type.twins.splitNullable_alike.bind_fst fun inner inner' nullable inside => ?_
    simp only [(h.get "optional" rfl).truthy]
    split
    · exact (inside.splitDefault_alike _).bind_fst fun _ _ _ inside => .ok ⟨rfl, inside⟩
    · exact .ok ⟨rfl, inside⟩

theorem Twins.elementSite_alike (h : d.Twins node node') (slot : Slot) :
    Alike (fun s s' : Slot × Value => s.1 = s'.1 ∧ d.Twins s.2 s'.2)
      (elementSite slot node) (elementSite slot node') := by
  exact h.splitNullable_alike.bind_fst fun _ _ _ inside => .ok ⟨rfl, inside⟩

/-! ### Types -/

/-- Two ways to type annotations that give the same types. -/
abbrev Typed (d : Dialect) (inside inside' : Annotator) : Prop :=
  ∀ slot path node node', d.Twins node node' →
    Alike (· = ·) (inside slot path node) (inside' slot path node')

variable {inside inside' : Annotator}

theorem Typed.memberEntry_alike (typed : d.Typed inside inside') (h : d.Twins node node')
    (withDefaults : Bool) (path : List Scalar) :
    Alike (· = ·) (memberEntry inside withDefaults path node)
      (memberEntry inside' withDefaults path node') := by
  refine (h.memberSite_alike withDefaults).bind_snd fun slot type type' twins => ?_
  exact (typed slot path type type' twins).bind_eq fun type => .ok rfl

/-- What is inside is typed alike, and so is the level around it. -/
theorem Typed.fill_alike (typed : d.Typed inside inside') {o o' : Outline} (h : d.Outlined o o')
    (slot : Slot) : Alike (· = ·) (o.fill inside slot) (o'.fill inside' slot) := by
  cases h with
  | leaf type => exact .ok rfl
  | array path twins =>
    refine (twins.elementSite_alike slot).bind_snd fun slot type type' twins => ?_
    exact (typed slot path type type' twins).bind_eq fun type => .ok rfl
  | object path twins =>
    have entries := Alike.mapM_eq twins fun _ _ _ twins =>
      typed.memberEntry_alike twins slot.withDefaults path
    exact entries.bind_eq fun entries => .ok rfl

/-- **Typing to a depth,** level by level. -/
theorem Tables.annotateTo_typed (h : d.Tables types types') (depth : Nat) :
    d.Typed (annotateTo types depth) (annotateTo types' depth) := by
  induction depth with
  | zero => exact fun _ _ _ _ _ => .error rfl
  | succ depth ih =>
    intro slot path node node' twins
    exact (h.outline_alike twins slot path).bind fun _ _ _ outlined => ih.fill_alike outlined slot

/-- **The type of an annotation.** -/
theorem Tables.annotate_typed (h : d.Tables types types') :
    d.Typed (annotate types) (annotate types') := by
  intro slot path node node' twins
  rw [annotate, annotate, h.depthBound, twins.weight]
  exact h.annotateTo_typed _ slot path node node' twins

theorem Tables.entryOf_alike (h : d.Tables types types') (withDefaults : Bool)
    (twins : d.Twins node node') :
    Alike (· = ·) (entryOf types withDefaults node) (entryOf types' withDefaults node') :=
  h.annotate_typed.memberEntry_alike twins withDefaults []

end ComponentSpec.Dialect
