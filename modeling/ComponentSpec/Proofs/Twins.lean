import ComponentSpec.Proofs.Dialect

/-!
# What is read off a tree and its rewriting

A node and its rewriting are read alike: each accessor gives the same text, or again a node and its
rewriting. Where a list is expected but an object stands, it is run through by its keys, and those
need not agree. They are scalars, though, and in the place of a node one scalar is as good as
another. So the relation of two nodes, `Dialect.Twins`, admits any two scalars, while what is read
under a key is related by `Dialect.Writes`.

* `Dialect.Writes`, `Dialect.Twins` — the relations;
* `Writes.listOrEmpty`, `Writes.elements_alike`, `Writes.first_alike` — lists of nodes;
* `Twins.get`, `Twins.hasTag` — entries and tags that stay;
* `Twins.identifierName`, `Twins.keyName`, … — names;
* `Twins.typeArguments`, `Twins.memberType`, `Writes.signature` — what stands under several keys;
* `Twins.about` — faults at a node.
-/

namespace ComponentSpec

open Checked

/-! ### Recursions over a node, without the proofs that they end -/

namespace Value

theorem identifierName_eq (node : Value) : node.identifierName =
    if node.hasTag "Identifier" then node.get "name"
    else if node.hasTag "TSQualifiedName" then (node.get "right").identifierName
    else .null := by
  rw [identifierName]
  split <;> rfl

theorem qualifiedName_eq (node : Value) : node.qualifiedName =
    if node.hasTag "Identifier" then node.get "name"
    else if node.hasTag "TSQualifiedName" then
      if (node.get "left").qualifiedName.truthy && (node.get "right").identifierName.truthy then
        .str ((node.get "left").qualifiedName.shown ++ "."
          ++ (node.get "right").identifierName.shown)
      else .null
    else .null := by
  rw [qualifiedName]
  split <;> rfl

theorem literal?_eq (node : Value) : node.literal? =
    if node.hasTagIn ["StringLiteral", "NumericLiteral", "BooleanLiteral"] then
      some (node.get "value")
    else if node.hasTag "NullLiteral" then some .null
    else if node.hasTag "Literal" then some (node.get "value")
    else if node.hasTag "UnaryExpression" then
      if (node.get "operator").isText "-" then (node.get "argument").literal?.bind negated?
      else none
    else none := by
  rw [literal?]
  split <;> rfl

end Value

namespace Dialect

variable {d : Dialect} {v v' node node' : Value}

/-- **A tree that survives, and itself rewritten.** -/
structure Writes (d : Dialect) (v v' : Value) : Prop where
  proper : d.Proper v
  eq : v' = d.write v

/-- **Two nodes that are read alike:** one rewritten, or two scalars. -/
inductive Twins (d : Dialect) (v v' : Value) : Prop where
  | written (h : d.Writes v v')
  | scalars (h : v.isScalar) (h' : v'.isScalar)

/-! ### Values -/

namespace Writes

theorem twins (h : d.Writes v v') : d.Twins v v' := .written h

theorem scalar (s : Scalar) : d.Writes (.scalar s) (.scalar s) :=
  ⟨.scalar s, (d.write_scalar s).symm⟩

/-- No dialect changes a scalar. -/
theorem eq_of_isScalar (h : d.Writes v v') (scalar : v.isScalar) : v' = v := by
  obtain ⟨s, rfl⟩ := Value.isScalar_iff.1 scalar
  rw [h.eq, write_scalar]

theorem isObject (h : d.Writes v v') : v'.isObject = v.isObject := by
  rw [h.eq]
  cases v <;> simp [Value.isObject]

theorem isNull (h : d.Writes v v') : v'.isNull = v.isNull := by
  rw [h.eq]
  cases v <;> simp [Value.isNull]

theorem truthy (h : d.Writes v v') : v'.truthy = v.truthy := by
  rw [h.eq]
  cases v <;> simp [Value.truthy]

theorem isText (h : d.Writes v v') (s : String) : v'.isText s = v.isText s := by
  rw [h.eq]
  cases v <;> simp [Value.isText]

theorem weight (h : d.Writes v v') : v'.weight = v.weight := by rw [h.eq, weight_write]

theorem forall₂_map {items : List Value} (proper : d.Proper (.arr items)) :
    List.Forall₂ d.Writes items (items.map d.write) := by
  rw [List.forall₂_map_right_iff, List.forall₂_same]
  exact fun v hv => ⟨proper.of_mem_items hv, rfl⟩

/-- A list is a list in either dialect, item by item. -/
theorem list? (h : d.Writes v v') : Option.Rel (List.Forall₂ d.Writes) v.list? v'.list? := by
  rw [h.eq]
  cases v with
  | arr items => rw [write_arr]; exact .some (forall₂_map h.proper)
  | scalar | obj => simp only [write_scalar, write_obj]; exact .none

/-- What is no list is as empty rewritten. -/
theorem listOrEmpty (h : d.Writes v v') : List.Forall₂ d.Writes v.listOrEmpty v'.listOrEmpty := by
  rw [h.eq]
  cases v with
  | arr items => rw [write_arr]; exact forall₂_map h.proper
  | scalar | obj => simp only [write_scalar, write_obj]; exact .nil

end Writes

/-- Two lists of scalars, as long as each other. -/
theorem twins_of_scalars {α β : Type} {xs : List α} {ys : List β} {f : α → Scalar} {g : β → Scalar}
    (long : xs.length = ys.length) :
    List.Forall₂ d.Twins (xs.map fun x => .scalar (f x)) (ys.map fun y => .scalar (g y)) := by
  induction xs generalizing ys with
  | nil =>
    cases ys with
    | nil => exact .nil
    | cons => cases long
  | cons x xs ih =>
    cases ys with
    | nil => cases long
    | cons y ys => exact .cons (.scalars rfl rfl) (ih (Nat.succ.inj long))

/-- **What is run through.** The keys of an object are not the same, but scalars. -/
theorem Writes.elements_alike (h : d.Writes v v') :
    Alike (List.Forall₂ d.Twins) v.elements v'.elements := by
  cases truthy : v.truthy with
  | false =>
    have truthy' : v'.truthy = false := h.truthy.trans truthy
    simp only [Value.elements, truthy, truthy', Bool.not_false, if_true]
    exact .ok .nil
  | true =>
    have truthy' : v'.truthy = true := h.truthy.trans truthy
    simp only [Value.elements, truthy, truthy', Bool.not_true, Bool.false_eq_true, if_false]
    rw [h.eq]
    cases v with
    | arr items => rw [write_arr]; exact .ok ((forall₂_map h.proper).imp fun _ _ => .written)
    | obj es =>
      rw [write_obj]
      exact .ok (twins_of_scalars (List.length_map _).symm)
    | scalar s =>
      rw [write_scalar]
      cases s with
      | str t => exact .ok (twins_of_scalars (d := d) (f := fun c => .str (Text.ofCodes [c])) rfl)
      | null | bool | int | float => exact .error rfl

/-- The first of a list is its first item, rewritten; the first of a text is a scalar either way. -/
theorem Writes.first_alike (h : d.Writes v v') : Alike d.Twins v.first v'.first := by
  rw [h.eq]
  cases v with
  | arr items =>
    rw [write_arr]
    cases items with
    | nil => exact .error rfl
    | cons item items => exact .ok (.written ⟨h.proper.of_mem_items List.mem_cons_self, rfl⟩)
  | obj es => rw [write_obj]; exact .error rfl
  | scalar s =>
    rw [write_scalar]
    cases s with
    | str t =>
      simp only [Value.first]
      split
      · exact .ok (.scalars rfl rfl)
      · exact .error rfl
    | null | bool | int | float => exact .error rfl

/-! ### Entries and tags -/

namespace Twins

/-- **An entry that is not moved.** -/
theorem getIn {key : String} (h : d.Twins node node') (untagged : key ≠ "type")
    (fixed : key ∉ argumentKeys) (own : d.signs node = false ∨ key ∉ functionKeys) :
    d.Writes (node.get key) (node'.get key) := by
  cases h with
  | written h => exact ⟨h.proper.get key, by rw [h.eq, get_write untagged (Or.inr fixed) own]⟩
  | scalars h h' => rw [Value.get_of_isScalar h, Value.get_of_isScalar h']; exact .scalar .null

/-- An entry that is moved in no node. -/
theorem get (h : d.Twins node node') (key : String) (plain : rewrittenKeys.contains key = false) :
    d.Writes (node.get key) (node'.get key) := by
  have plain : key ∉ rewrittenKeys := by simpa using plain
  simp only [rewrittenKeys, List.cons_append, List.mem_cons, List.mem_append, not_or] at plain
  exact h.getIn plain.1 plain.2.1 (Or.inr plain.2.2)

/-- An object is met as an object. -/
theorem writes_of_isObject (h : d.Twins node node') (object : node.isObject) :
    d.Writes node node' := by
  cases h with
  | written h => exact h
  | scalars h _ =>
    obtain ⟨s, rfl⟩ := Value.isScalar_iff.1 h
    cases object

theorem isObject (h : d.Twins node node') : node'.isObject = node.isObject := by
  cases h with
  | written h => exact h.isObject
  | scalars h h' =>
    obtain ⟨s, rfl⟩ := Value.isScalar_iff.1 h
    obtain ⟨s', rfl⟩ := Value.isScalar_iff.1 h'
    rfl

theorem weight (h : d.Twins node node') : node'.weight = node.weight := by
  cases h with
  | written h => exact h.weight
  | scalars h h' =>
    obtain ⟨s, rfl⟩ := Value.isScalar_iff.1 h
    obtain ⟨s', rfl⟩ := Value.isScalar_iff.1 h'
    rw [Value.weight, Value.weight]

/-- The tag, the same unless it is that of an extends clause. -/
theorem tag (h : d.Twins node node') : node'.tag = d.write node.tag ∨
    node.hasTag "TSExpressionWithTypeArguments" ∧ node'.hasTag "TSInterfaceHeritage" := by
  cases h with
  | written h => rw [h.eq]; exact tag_write node
  | scalars h h' =>
    rw [Value.tag, Value.tag, Value.get_of_isScalar h, Value.get_of_isScalar h', write_scalar]
    exact Or.inl rfl

/-- **Tags are told apart alike,** unless the two tags of extends clauses are. -/
theorem hasTagIn (h : d.Twins node node') (tags : List String)
    (both : tags.contains "TSExpressionWithTypeArguments" = tags.contains "TSInterfaceHeritage") :
    node'.hasTagIn tags = node.hasTagIn tags := by
  rcases h.tag with same | ⟨tag, tag'⟩
  · rw [Value.hasTagIn, Value.hasTagIn, same]
    cases node.tag <;> simp [Value.isOneOf]
  · rw [Value.hasTagIn_of_hasTag tag, Value.hasTagIn_of_hasTag tag', both]

/-- A single tag is told alike, if it is not that of an extends clause. -/
theorem hasTag (h : d.Twins node node') (tag : String) (other : extendsTags.contains tag = false) :
    node'.hasTag tag = node.hasTag tag := by
  have single (v : Value) : v.hasTag tag = v.hasTagIn [tag] := by
    rw [Bool.eq_iff_iff, Value.hasTagIn_iff]
    simp
  have other : tag ∉ extendsTags := by simpa using other
  simp only [extendsTags, List.mem_cons, List.not_mem_nil, or_false, not_or] at other
  rw [single, single, h.hasTagIn [tag] (by simp [Ne.symm other.1, Ne.symm other.2])]

/-- The type under `typeAnnotation`, in a node that is no function. -/
theorem getType (h : d.Twins node node') (own : d.signs node = false) :
    d.Writes (node.get "typeAnnotation") (node'.get "typeAnnotation") :=
  h.getIn (by decide) (by decide) (Or.inl own)

/-- In particular where the tag shows that a node is no function. -/
theorem getType_of_hasTag {tag : String} (h : d.Twins node node') (tagged : node.hasTag tag)
    (other : Value.functionTags.contains tag = false) :
    d.Writes (node.get "typeAnnotation") (node'.get "typeAnnotation") :=
  h.getType (signs_of_hasTag tagged other)

/-! ### Scalars -/

/-- Only trees that survive are rewritten, so every node at hand is regular. -/
theorem isRegular (h : d.Twins node node') : node.isRegular := by
  cases h with
  | written h => exact h.proper.isRegular
  | scalars h _ =>
    obtain ⟨s, rfl⟩ := Value.isScalar_iff.1 h
    exact (Proper.scalar (d := d) s).isRegular

theorem keepsApart (h : d.Twins node node') : d.keepsApart node := by
  cases h with
  | written h => exact h.proper.keepsApart
  | scalars h _ =>
    obtain ⟨s, rfl⟩ := Value.isScalar_iff.1 h
    exact (Proper.scalar s).keepsApart

/-- The name of a node. -/
theorem get_name (h : d.Twins node node') : node'.get "name" = node.get "name" := by
  have regular := h.isRegular
  simp only [Value.isRegular, Bool.and_eq_true] at regular
  exact (h.get "name" rfl).eq_of_isScalar regular.1.1

/-- The value of a literal. -/
theorem get_value (h : d.Twins node node') (tag : node.hasTagIn Value.literalTags) :
    node'.get "value" = node.get "value" := by
  have regular := h.isRegular
  simp only [Value.isRegular, tag, Bool.and_eq_true, Bool.not_true, Bool.false_or] at regular
  exact (h.get "value" rfl).eq_of_isScalar regular.1.2

/-! ### Names -/

/-- **Names stay,** the last parts of qualified ones too. -/
theorem identifierName (h : d.Twins node node') : node'.identifierName = node.identifierName := by
  induction node using Value.identifierName.induct generalizing node' with
  | case1 node tag =>
    rw [Value.identifierName_eq node', Value.identifierName_eq node, h.hasTag "Identifier" rfl,
      if_pos tag, if_pos tag, h.get_name]
  | case2 node other tag ih =>
    rw [Value.identifierName_eq node', Value.identifierName_eq node, h.hasTag "Identifier" rfl,
      h.hasTag "TSQualifiedName" rfl, if_neg other, if_neg other, if_pos tag, if_pos tag]
    exact ih (h.get "right" rfl).twins
  | case3 node other unqualified =>
    rw [Value.identifierName_eq node', Value.identifierName_eq node, h.hasTag "Identifier" rfl,
      h.hasTag "TSQualifiedName" rfl, if_neg other, if_neg other, if_neg unqualified,
      if_neg unqualified]

/-- Along the left parts of a qualified name. -/
theorem qualifiedName {node node' : Value} (h : d.Twins node node') :
    node'.qualifiedName = node.qualifiedName := by
  rw [Value.qualifiedName_eq node', Value.qualifiedName_eq node, h.hasTag "Identifier" rfl,
    h.hasTag "TSQualifiedName" rfl, h.get_name, (h.get "right" rfl).twins.identifierName]
  split
  · rfl
  · split
    · rw [qualifiedName (h.get "left" rfl).twins]
    · rfl
  termination_by node.weight
  decreasing_by exact Value.weight_get_lt (Value.isObject_of_hasTag ‹_›) _

theorem referenceName (h : d.Twins node node') : node'.referenceName = node.referenceName := by
  rw [Value.referenceName, Value.referenceName, h.hasTag "TSTypeReference" rfl,
    h.hasTagIn ["TSExpressionWithTypeArguments", "TSInterfaceHeritage"] rfl,
    (h.get "typeName" rfl).twins.identifierName, (h.get "expression" rfl).twins.identifierName]

/-- A key is an identifier or a literal, and both keep what they say. -/
theorem keyName (h : d.Twins node node') : node'.keyName = node.keyName := by
  have named := h.get "key" rfl
  simp only [Value.keyName, named.twins.identifierName,
    named.twins.hasTagIn ["StringLiteral", "Literal"] rfl]
  split
  · next literal =>
    rw [Bool.and_eq_true] at literal
    exact named.twins.get_value (Value.hasTagIn_mono (by decide) literal.2)
  · rfl

theorem declarationName (h : d.Twins node node') :
    node'.declarationName = node.declarationName :=
  (h.get "id" rfl).twins.identifierName

/-- **Literals stay,** however often they are negated. -/
theorem literal? {node node' : Value} (h : d.Twins node node') :
    node'.literal? = node.literal? := by
  rw [Value.literal?_eq node', Value.literal?_eq node,
    h.hasTagIn ["StringLiteral", "NumericLiteral", "BooleanLiteral"] rfl,
    h.hasTag "NullLiteral" rfl, h.hasTag "Literal" rfl, h.hasTag "UnaryExpression" rfl,
    (h.get "operator" rfl).isText]
  split
  · next tag => rw [h.get_value (Value.hasTagIn_mono (by decide) tag)]
  · split
    · rfl
    · split
      · next tag => rw [h.get_value (Value.hasTagIn_of_hasTag tag ▸ rfl)]
      · split
        · split
          · rw [literal? (h.get "argument" rfl).twins]
          · rfl
        · rfl
  termination_by node.weight
  decreasing_by exact Value.weight_get_lt (Value.isObject_of_hasTag ‹_›) _

/-! ### Calls -/

theorem withoutCast (h : d.Twins node node') : d.Twins node.withoutCast node'.withoutCast := by
  rw [Value.withoutCast, Value.withoutCast,
    h.hasTagIn ["TSAsExpression", "TSSatisfiesExpression"] rfl]
  split
  · exact (h.get "expression" rfl).twins
  · exact h

theorem calleeName (h : d.Twins node node') : node'.calleeName = node.calleeName := by
  rw [Value.calleeName, Value.calleeName, h.hasTag "CallExpression" rfl,
    (h.get "callee" rfl).twins.identifierName]

theorem callArguments (h : d.Twins node node') :
    List.Forall₂ d.Writes node.callArguments node'.callArguments :=
  (h.get "arguments" rfl).listOrEmpty

end Twins

/-! ### Type arguments -/

/-- Nothing is listed in what counts as nothing. -/
theorem listOrEmpty_get_of_not_truthy (h : v.truthy = false) (key : String) :
    (v.get key).listOrEmpty = [] := by
  cases v with
  | scalar | arr => rfl
  | obj es =>
    cases es with
    | nil => rfl
    | cons e es => cases h

/-- Where type arguments are not written under the newer key, they stand under the older one. -/
theorem typeArguments_of_not_hasKey (h : node.hasKey "typeArguments" = false) :
    node.typeArguments = ((node.get "typeParameters").get "params").listOrEmpty := by
  simp [Value.typeArguments, Value.get_of_not_hasKey h, Value.truthy, Scalar.truthy]

/-- The type arguments of a rewritten node are in the place of the older ones, rewritten. -/
theorem typeArguments_write (h : node.hasKey "typeArguments" = false) :
    (d.write node).typeArguments =
      ((d.write (node.get "typeParameters")).get "params").listOrEmpty := by
  cases node with
  | scalar | arr => simp [Value.typeArguments, Value.get]
  | obj es =>
    cases new : d.typeArguments with
    | false =>
      have absent : (d.write (.obj es)).hasKey "typeArguments" = false := by
        rw [hasKey_write (Or.inl new) (Or.inr (by decide)), h]
      rw [typeArguments_of_not_hasKey absent,
        get_write (by decide) (Or.inl new) (Or.inr (by decide))]
    | true =>
      have moved : d.key (d.signs (.obj es)) (.str "typeParameters") = .str "typeArguments" := by
        simp [Dialect.key, new]
      obtain ⟨under, left⟩ := get_write_moved (by decide) moved h
      simp only [Value.typeArguments, under, Value.get_of_not_hasKey left]
      split
      · rfl
      · next none =>
        rw [Bool.not_eq_true] at none
        rw [listOrEmpty_get_of_not_truthy none]
        rfl

/-- **Type arguments,** under whichever of the two keys they stand. -/
theorem Twins.typeArguments (h : d.Twins node node') :
    List.Forall₂ d.Writes node.typeArguments node'.typeArguments := by
  have regular := h.isRegular
  have apart := h.keepsApart
  simp only [Value.isRegular, Dialect.keepsApart, Bool.and_eq_true, Bool.not_eq_true']
    at regular apart
  cases h with
  | written h =>
    rw [typeArguments_of_not_hasKey regular.2, h.eq, typeArguments_write regular.2]
    -- what holds the arguments is no function, so its list is not moved
    have held : d.Writes (node.get "typeParameters") (d.write (node.get "typeParameters")) :=
      ⟨h.proper.get _, rfl⟩
    exact (held.twins.getIn (by decide) (by decide)
      (Or.inl apart.1)).listOrEmpty
  | scalars h h' =>
    obtain ⟨s, rfl⟩ := Value.isScalar_iff.1 h
    obtain ⟨s', rfl⟩ := Value.isScalar_iff.1 h'
    exact .nil

/-! ### Members -/

/-- A wrapper is no function, so what it wraps stays where it is. -/
theorem Writes.withoutWrapper (h : d.Writes v v') :
    d.Writes v.withoutWrapper v'.withoutWrapper := by
  rw [Value.withoutWrapper, Value.withoutWrapper, h.twins.hasTag "TSTypeAnnotation" rfl]
  split
  · next tag => exact h.twins.getType_of_hasTag tag rfl
  · exact h

namespace Twins

/-- The annotation of a member that is no function. -/
theorem memberType (h : d.Twins node node') (own : d.signs node = false) :
    d.Writes node.memberType node'.memberType :=
  (h.getType own).withoutWrapper

/-- The body of an interface is read under keys that no dialect moves. -/
theorem interfaceMembers (h : d.Twins node node') :
    Option.Rel (List.Forall₂ d.Writes) node.interfaceMembers node'.interfaceMembers :=
  ((h.get "body" rfl).twins.get "body" rfl).list?

end Twins

/-! ### Functions -/

/-- **The parameters and the return type of a function.** -/
theorem Writes.signature (h : d.Writes node node') :
    d.Writes (signature node).1 (signature node').1 ∧
      d.Writes (signature node).2 (signature node').2 := by
  cases signs : d.signs node with
  | false =>
    -- everything stands under the same key as before
    have get (key : String) (fixed : key ∉ "type" :: argumentKeys) :
        d.Writes (node.get key) (node'.get key) := by
      rw [List.mem_cons, not_or] at fixed
      exact h.twins.getIn fixed.1 fixed.2 (Or.inl signs)
    have hasKey : node'.hasKey "typeAnnotation" = node.hasKey "typeAnnotation" := by
      rw [h.eq, hasKey_write (Or.inr (by decide)) (Or.inl signs)]
    have type := get "typeAnnotation" (by decide)
    simp only [ComponentSpec.signature, hasKey, (get "parameters" (by decide)).isNull]
    constructor
    · split
      · exact get "params" (by decide)
      · exact get "parameters" (by decide)
    · split
      · exact type.withoutWrapper.withoutWrapper
      · exact (get "returnType" (by decide)).withoutWrapper
  | true =>
    -- the parameters are a list and the type has one wrapper; both are found where they are moved
    have signature := signs
    simp only [Dialect.signs, Value.isSignature, Bool.and_eq_true, Bool.not_eq_true'] at signature
    obtain ⟨-, ⟨⟨⟨⟨function, list⟩, wrapped⟩, single⟩, noParams⟩, noReturnType⟩ := signature
    obtain ⟨es, rfl⟩ := Value.isObject_iff.1 (Value.isObject_of_hasTagIn function)
    have moved : d.key (d.signs (.obj es)) (.str "parameters") = .str "params" := by
      simp [Dialect.key, signs]
    have moved' : d.key (d.signs (.obj es)) (.str "typeAnnotation") = .str "returnType" := by
      simp [Dialect.key, signs]
    obtain ⟨params, noParameters⟩ := get_write_moved (by decide) moved noParams
    obtain ⟨returnType, noType⟩ := get_write_moved (by decide) moved' noReturnType
    have present : ((Value.obj es).get "parameters").isNull = false := by
      cases held : (Value.obj es).get "parameters" <;> simp [held, Value.list?] at list
      rfl
    have typed : (Value.obj es).hasKey "typeAnnotation" = true := by
      by_contra absent
      rw [Bool.not_eq_true] at absent
      rw [Value.get_of_not_hasKey absent] at wrapped
      cases wrapped
    have unwrapped : (Value.obj es).memberType.withoutWrapper =
        ((Value.obj es).get "typeAnnotation").withoutWrapper := by
      rw [Value.memberType, Value.withoutWrapper, if_neg]
      rw [Value.withoutWrapper, if_pos wrapped, single]
      exact Bool.false_ne_true
    have older : ComponentSpec.signature (.obj es) = ((Value.obj es).get "parameters",
        ((Value.obj es).get "typeAnnotation").withoutWrapper) := by
      simp [ComponentSpec.signature, present, typed, unwrapped]
    have newer : ComponentSpec.signature (d.write (.obj es)) =
        (d.write ((Value.obj es).get "parameters"),
          (d.write ((Value.obj es).get "typeAnnotation")).withoutWrapper) := by
      simp [ComponentSpec.signature, -write_obj, Value.get_of_not_hasKey noParameters, Value.isNull,
        params, noType, returnType]
    have written (key : String) :
        d.Writes ((Value.obj es).get key) (d.write ((Value.obj es).get key)) :=
      ⟨h.proper.get key, rfl⟩
    rw [h.eq, older, newer]
    exact ⟨written _, (written _).withoutWrapper⟩

/-- No parameter of a function is rewritten as one. -/
theorem signs_of_mem_parameters (proper : d.Proper node) (function : node.isFunction)
    {param : Value} (h : param ∈ (signature node).1.listOrEmpty) : d.signs param = false := by
  have apart := proper.keepsApart
  simp only [Dialect.keepsApart, function, Bool.not_true, Bool.false_or, Bool.and_eq_true,
    List.all_append, List.all_eq_true, Bool.not_eq_true'] at apart
  simp only [signature] at h
  split at h
  · exact apart.2.2 param h
  · exact apart.2.1 param h

/-! ### Faults -/

theorem writes_empty : d.Writes (.obj []) (.obj []) := ⟨.empty, by simp⟩

/-- The entries in which a place is looked for are not moved. -/
theorem entryOrEmpty_writes (h : d.Writes v v') (key : String)
    (plain : rewrittenKeys.contains key = false) :
    entryOrEmpty v key = .error .member ∧ entryOrEmpty v' key = .error .member ∨
      ∃ w w', entryOrEmpty v key = .ok w ∧ entryOrEmpty v' key = .ok w' ∧ d.Writes w w' := by
  have entry := h.twins.get key plain
  have object := h.isObject
  cases v with
  | obj es =>
    obtain ⟨es', rfl⟩ := Value.isObject_iff.1 object
    refine Or.inr ⟨_, _, rfl, rfl, ?_⟩
    rw [entry.truthy]
    split
    · exact entry
    · exact writes_empty
  | scalar | arr =>
    cases v' with
    | obj => cases object
    | scalar | arr => exact Or.inl ⟨rfl, rfl⟩

/-- The place of a node can be told, or the place of its rewriting cannot either. -/
theorem Twins.place (h : d.Twins node node') :
    (∃ m, Place.ofNode node = .error m ∧ Place.ofNode node' = .error m) ∨
      ∃ p p', Place.ofNode node = .ok p ∧ Place.ofNode node' = .ok p' := by
  rw [Place.ofNode, Place.ofNode, h.isObject]
  cases h with
  | scalars h h' =>
    obtain ⟨s, rfl⟩ := Value.isScalar_iff.1 h
    exact Or.inr ⟨_, _, rfl, rfl⟩
  | written h =>
    split
    · rcases entryOrEmpty_writes h "loc" rfl with ⟨e, e'⟩ | ⟨loc, loc', e, e', h⟩
      · exact Or.inl ⟨.member, by simp [e, bind, Except.bind], by simp [e', bind, Except.bind]⟩
      · simp only [e, e', bind, Except.bind]
        rcases entryOrEmpty_writes h "start" rfl with ⟨e, e'⟩ | ⟨start, start', e, e', h⟩
        · exact Or.inl ⟨.member, by simp [e], by simp [e']⟩
        · simp only [e, e', h.isObject]
          split
          · exact Or.inr ⟨_, _, rfl, rfl⟩
          · exact Or.inl ⟨.member, rfl, rfl⟩
    · exact Or.inr ⟨_, _, rfl, rfl⟩

/-- **A fault at a node.** -/
theorem Twins.about (h : d.Twins node node') {cause cause' : Cause}
    (same : cause.category = cause'.category) :
    (Fault.about cause node).kind = (Fault.about cause' node').kind := by
  rcases h.place with ⟨m, e, e'⟩ | ⟨p, p', e, e'⟩
  · rw [Fault.about_of_unplaced e, Fault.about_of_unplaced e']
  · rw [Fault.about_of_placed e, Fault.about_of_placed e']
    exact congrArg Fault.Kind.report same

end Dialect

end ComponentSpec
