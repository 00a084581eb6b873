import ComponentSpec.Annotate
import ComponentSpec.Proofs.Members

/-!
# Reading an annotation

The steps that come before an annotation is typed: its `null` is split off, its default is split
off, and the aliases in front of it are followed. Each reads the annotation or a declaration, and
fails, if it does, for what it reads.

* `Value.SplitsNullable` — the outcomes of splitting off `null`;
* `Value.mem_parts_of_splitNullable`, `mem_parts_of_splitDefault` — what is left is a part of what
  was there, or a union;
* `Resolves` — following aliases, by rules; `resolves_of_resolveAlias` says that `resolveAlias`
  follows the rules, and `Resolves.resolveAliasFrom_eq_ok` how they lead back to it;
* `avoids_splitNullable`, `avoids_resolveAlias`, … — none of the steps raises a fault of a circle.
-/

namespace ComponentSpec

open Checked

/-! ### Splitting -/

/-- What is inside parentheses is a part of the node. -/
theorem Value.withoutParentheses_mem_parts (node : Value) :
    node.withoutParentheses ∈ node.parts := by
  fun_induction Value.withoutParentheses node with
  | case1 a tag ih => exact Value.mem_parts_trans ih _ (Value.get_tag_mem_parts tag _)
  | case2 a => exact Value.mem_parts_self a

/-- Writing another entry leaves the tag as it is. -/
theorem Value.tag_put {node value : Value} {key : String} (h : key ≠ "type") :
    (node.put key value).tag = node.tag :=
  get_put_of_ne h value

/-- **The outcomes of splitting off `null`.** What is gone from a union is nullable. -/
inductive Value.SplitsNullable (node : Value) : Value → Bool → Prop where
  | whole : SplitsNullable node node.withoutParentheses false
  | only {members : List Value} {rest : Value}
      (union : node.withoutParentheses.hasTag "TSUnionType")
      (listed : node.withoutParentheses.get "types" = .arr members) (member : rest ∈ members)
      (others : ∀ m ∈ members, m = rest ∨ m.hasTagIn nullableTags) : SplitsNullable node rest true
  | several {members remaining : List Value} (union : node.withoutParentheses.hasTag "TSUnionType")
      (listed : node.withoutParentheses.get "types" = .arr members)
      (others : ∀ m ∈ members, m ∈ remaining ∨ m.hasTagIn nullableTags) :
      SplitsNullable node (node.withoutParentheses.put "types" (.arr remaining)) true

/-- **What is split off** is none of the annotation, or the `null` and `undefined` members of a
union. -/
theorem Value.splitsNullable {node rest : Value} {nullable : Bool}
    (h : node.splitNullable = .ok (rest, nullable)) : node.SplitsNullable rest nullable := by
  simp only [splitNullable] at h
  split at h
  · cases h
    exact .whole
  · next union =>
    replace union : node.withoutParentheses.hasTag "TSUnionType" := by simpa using union
    obtain ⟨members, hmembers, h⟩ := bind_eq_ok.1 h
    split at h
    · cases h
      exact .whole
    · next dropped =>
      -- something was dropped, which is a node, so the members stand in a list
      obtain ⟨t, ht, htag⟩ : ∃ t ∈ members, t.hasTagIn nullableTags := by
        by_contra none
        refine dropped (congrArg List.length (List.filter_eq_self.2 fun t ht => ?_))
        simpa using fun htag => none ⟨t, ht, htag⟩
      have listed :=
        eq_arr_of_mem_elements hmembers ht (mem_parts_self t) (isObject_of_hasTagIn htag)
      have others (m : Value) (hm : m ∈ members) :
          m ∈ members.filter (fun t => !t.hasTagIn nullableTags) ∨ m.hasTagIn nullableTags := by
        cases nullable : m.hasTagIn nullableTags with
        | true => exact Or.inr rfl
        | false => exact Or.inl (List.mem_filter.2 ⟨hm, by simp [nullable]⟩)
      split at h
      · next only hremaining =>
        cases h
        have mem : rest ∈ members.filter fun t => !t.hasTagIn nullableTags := by
          rw [hremaining]
          exact List.mem_singleton_self rest
        rw [hremaining] at others
        exact .only union listed (List.mem_of_mem_filter mem)
          fun m hm => (others m hm).imp_left List.mem_singleton.1
      · cases h
        exact .several union listed others

theorem Value.withoutParentheses_of_tag {node : Value} (tag : node.hasTag "TSParenthesizedType") :
    node.withoutParentheses = (node.get "typeAnnotation").withoutParentheses := by
  rw [withoutParentheses, dif_pos tag]

theorem Value.splitNullable_of_parentheses {node : Value}
    (tag : node.hasTag "TSParenthesizedType") :
    node.splitNullable = (node.get "typeAnnotation").splitNullable := by
  rw [splitNullable, splitNullable, withoutParentheses_of_tag tag]

theorem Value.withoutParentheses_of_not_tag {node : Value}
    (h : node.hasTag "TSParenthesizedType" = false) : node.withoutParentheses = node := by
  rw [withoutParentheses, dif_neg (by simp [h])]

/-- There is nothing to split off what is no union. -/
theorem Value.splitNullable_of_not_union {node : Value}
    (parentheses : node.hasTag "TSParenthesizedType" = false)
    (union : node.hasTag "TSUnionType" = false) : node.splitNullable = .ok (node, false) := by
  simp [splitNullable, withoutParentheses_of_not_tag parentheses, union]

/-- What is left without `null` is a part of the annotation, or a union. -/
theorem Value.mem_parts_of_splitNullable {node rest : Value} {nullable : Bool}
    (h : node.splitNullable = .ok (rest, nullable)) :
    rest ∈ node.parts ∨ rest.hasTag "TSUnionType" := by
  have inside := withoutParentheses_mem_parts node
  cases splitsNullable h with
  | whole => exact Or.inl inside
  | @only members _ union listed member _ =>
    have rest_mem : rest ∈ (node.withoutParentheses.get "types").listOrEmpty := by
      rw [listed]
      exact member
    exact Or.inl (mem_parts_trans (mem_parts_of_mem_listOrEmpty_get rest_mem) _ inside)
  | several union =>
    right
    rw [hasTag_iff, tag_put (by simp)]
    exact hasTag_iff.1 union

/-- The type that a default is declared with is a part of the annotation. -/
theorem mem_parts_of_splitDefault {name node type : Value} {default : Option Value}
    (h : splitDefault name node = .ok (type, default)) : type ∈ node.parts := by
  unfold splitDefault at h
  split at h
  · split at h
    · next t literal hargs =>
      split at h
      · cases h
        exact Value.mem_parts_of_mem_typeArguments (by simp [hargs])
      · cases h
    · cases h
  · cases h
    exact Value.mem_parts_self node

/-- Reading a union follows no type, and so meets no circle. -/
theorem avoids_splitNullable (node : Value) : Avoids Fault.Circular node.splitNullable := by
  simp only [Value.splitNullable]
  split
  · exact avoids_ok _
  · refine (avoids_elements _).bind fun members _ => ?_
    split
    · exact avoids_ok _
    · split <;> exact avoids_ok _

theorem avoids_splitDefault (name node : Value) :
    Avoids Fault.Circular (splitDefault name node) := by
  unfold splitDefault
  split
  · split
    · split
      · exact avoids_ok _
      · exact avoids_error.2 (Fault.not_circular_about id _)
    · exact avoids_error.2 (Fault.not_circular_about id _)
  · exact avoids_ok _

theorem avoids_key (v : Value) : Avoids Fault.Circular v.key := by
  cases v <;> simp [Value.key]

/-! ### Following aliases -/

variable {types : Declarations} {followed names : List Scalar} {name : Scalar}
  {node inner declaration : Value}

/-- **A reference to a local alias.** -/
structure RefersToAlias (types : Declarations) (node : Value) (name : Scalar)
    (declaration : Value) : Prop where
  tag : node.hasTag "TSTypeReference"
  named : node.referenceName = .scalar name
  truthy : name.truthy
  found : types.find? name = some declaration
  isAlias : declaration.hasTag "TSTypeAliasDeclaration"

/-- An alias is found exactly if the annotation refers to one. -/
theorem aliasOf_eq_some :
    aliasOf types node = .ok (some (name, declaration)) ↔
      RefersToAlias types node name declaration := by
  constructor
  · intro h
    have declared := has_of_aliasOf h
    unfold aliasOf at h
    cases tag : node.hasTag "TSTypeReference" with
    | false => simp [tag, Value.truthy, Scalar.truthy] at h
    | true =>
      simp only [tag, if_true] at h
      split at h
      · cases h
      · next truthy =>
        simp only [Bool.not_eq_true', Bool.not_eq_false] at truthy
        obtain ⟨s, hs, h⟩ := bind_eq_ok.1 h
        replace hs := Value.key_eq_ok.1 hs
        rw [hs] at truthy
        simp only [pure_eq, Except.ok.injEq, Option.ite_none_right_eq_some, Option.some.injEq,
          Prod.mk.injEq] at h
        obtain ⟨isAlias, rfl, hd⟩ := h
        -- the name is declared, so what was read is its declaration and not `null`
        rw [← Table.isSome_find?] at declared
        obtain ⟨d, found⟩ := Option.isSome_iff_exists.1 declared
        rw [found, Option.getD_some] at isAlias hd
        exact ⟨tag, hs, truthy, hd ▸ found, hd ▸ isAlias⟩
  · rintro ⟨tag, named, truthy, found, isAlias⟩
    simp [aliasOf, tag, named, Value.truthy, truthy, Value.key, found, isAlias]

theorem avoids_aliasOf (types : Declarations) (node : Value) :
    Avoids Fault.Circular (aliasOf types node) := by
  unfold aliasOf
  -- whatever the name is, only its look-up can fail, and that for its kind
  generalize (if node.hasTag "TSTypeReference" then node.referenceName else .null) = name
  simp only
  split
  · exact avoids_ok _
  · exact (avoids_key _).bind fun _ _ => avoids_ok _

/-- **The annotation behind local aliases,** with the names that are followed after those in front.
It is no alias, or one that was followed already. -/
inductive Resolves (types : Declarations) : List Scalar → Value → Value → List Scalar → Prop where
  | here {followed : List Scalar} {node : Value}
      (stop : ∀ name declaration, RefersToAlias types node.withoutReadonly name declaration →
        onPath followed name) :
      Resolves types followed node node.withoutReadonly []
  | follow {followed names : List Scalar} {node inner declaration : Value} {name : Scalar}
      (refers : RefersToAlias types node.withoutReadonly name declaration)
      (fresh : onPath followed name = false)
      (behind : Resolves types (followed ++ [name]) (declaration.get "typeAnnotation") inner
        names) :
      Resolves types followed node inner (name :: names)

/-- One round of following. -/
theorem resolveAliasFrom_eq (types : Declarations) (followed : List Scalar) (node : Value) :
    resolveAliasFrom types followed node =
      aliasOf types node.withoutReadonly >>= fun
        | none => .ok (node.withoutReadonly, followed)
        | some (name, declaration) =>
          if onPath followed name then .ok (node.withoutReadonly, followed)
          else resolveAliasFrom types (followed ++ [name]) (declaration.get "typeAnnotation") := by
  rw [resolveAliasFrom]
  split
  · next h => rw [h, error_bind]
  · next h => rw [h, ok_bind]
  · next h =>
    rw [h, ok_bind]
    simp only [dite_eq_ite]

/-- **What resolving gives.** The names that it adds lead, one to the next, to the annotation behind
them. -/
theorem yields_resolveAliasFrom (types : Declarations) (followed : List Scalar) (node : Value) :
    Yields (fun r => ∃ names, r.2 = followed ++ names ∧ Resolves types followed node r.1 names)
      (resolveAliasFrom types followed node) := by
  induction followed, node using resolveAliasFrom.induct types with
  | case1 followed node inner f h =>
    rw [resolveAliasFrom_eq, h]
    exact yields_error f
  | case2 followed node inner h =>
    -- no alias stands here
    rw [resolveAliasFrom_eq, h, ok_bind, yields_ok]
    refine ⟨[], (List.append_nil _).symm, .here fun name declaration refers => ?_⟩
    rw [aliasOf_eq_some.2 refers] at h
    cases h
  | case3 followed node inner name declaration h back =>
    -- an alias that was followed already: its node is what comes out, and the rules stop there too
    rw [resolveAliasFrom_eq, h, ok_bind]
    simp only [back, if_true, yields_ok]
    refine ⟨[], (List.append_nil _).symm, .here fun name' declaration' refers => ?_⟩
    have same := (aliasOf_eq_some.2 refers).symm.trans h
    simp only [Except.ok.injEq, Option.some.injEq, Prod.mk.injEq] at same
    rw [same.1]
    exact back
  | case4 followed node inner name declaration h fresh ih =>
    rw [resolveAliasFrom_eq, h, ok_bind]
    simp only [fresh]
    intro r hr
    obtain ⟨names, hnames, behind⟩ := ih r hr
    refine ⟨name :: names, by rw [hnames, List.append_assoc]; rfl, ?_⟩
    exact .follow (aliasOf_eq_some.1 h) (by simpa using fresh) behind

/-- **What `resolveAlias` gives,** the rules give. -/
theorem resolves_of_resolveAlias {aliases : List Scalar}
    (h : resolveAlias types node = .ok (inner, aliases)) :
    Resolves types [] node inner aliases := by
  obtain ⟨names, hnames, resolves⟩ := yields_resolveAliasFrom types [] node _ h
  obtain rfl : aliases = names := hnames
  exact resolves

theorem avoids_resolveAlias (types : Declarations) (node : Value) :
    Avoids Fault.Circular (resolveAlias types node) := by
  unfold resolveAlias
  generalize ([] : List Scalar) = followed
  induction followed, node using resolveAliasFrom.induct types with
  | case1 followed node inner f h =>
    rw [resolveAliasFrom_eq, h, error_bind, avoids_error]
    exact avoids_aliasOf types inner f h
  | case2 followed node inner h =>
    rw [resolveAliasFrom_eq, h]
    exact avoids_ok _
  | case3 followed node inner name declaration h back =>
    rw [resolveAliasFrom_eq, h, ok_bind]
    simp [back]
  | case4 followed node inner name declaration h fresh ih =>
    rw [resolveAliasFrom_eq, h, ok_bind]
    simpa [fresh] using ih

namespace Resolves

/-- Every alias that is followed is declared. -/
theorem declared (h : Resolves types followed node inner names) : ∀ s ∈ names, types.has s := by
  induction h with
  | here => exact fun _ h => nomatch h
  | follow refers _ _ ih =>
    exact List.forall_mem_cons.2 ⟨Table.has_of_find? refers.found, ih⟩

/-- The annotation behind aliases is a part of the annotation in front, or of a declaration. -/
theorem mem_parts (h : Resolves types followed node inner names) :
    inner ∈ node.parts ∨ ∃ s d, types.find? s = some d ∧ inner ∈ d.parts := by
  induction h with
  | here => exact Or.inl (Value.withoutReadonly_mem_parts _)
  | @follow followed names node inner declaration name refers _ _ ih =>
    right
    rcases ih with below | below
    · exact ⟨name, declaration, refers.found,
        Value.mem_parts_trans below _ (Value.get_tag_mem_parts refers.isAlias _)⟩
    · exact below

/-- Where no alias is followed, only wrappers are taken off. -/
theorem eq_withoutReadonly (h : Resolves types followed node inner []) :
    inner = node.withoutReadonly := by
  cases h
  rfl

/-- No alias is followed that was on the way already. -/
theorem fresh (h : Resolves types followed node inner names) :
    ∀ s ∈ names, onPath followed s = false := by
  induction h with
  | here => exact fun _ h => nomatch h
  | @follow followed names _ _ _ name _ fresh _ ih =>
    refine List.forall_mem_cons.2 ⟨fresh, fun s hs => ?_⟩
    have later := ih s hs
    simp only [onPath, List.any_append, Bool.or_eq_false_iff] at later
    exact later.1

/-- Aliases that end at no alias are followed in the same way with fewer of them followed before. -/
theorem resolveAliasFrom_eq_ok {earlier : List Scalar}
    (h : Resolves types followed node inner names) (stop : aliasOf types inner = .ok none)
    (sub : ∀ s, onPath earlier s → onPath followed s) :
    resolveAliasFrom types earlier node = .ok (inner, earlier ++ names) := by
  induction h generalizing earlier with
  | here => rw [resolveAliasFrom_eq, stop, ok_bind, List.append_nil]
  | @follow followed names node inner declaration name refers fresh _ ih =>
    -- fewer names in front refuse less, so the round is taken as before
    have fresh' : onPath earlier name = false := by
      cases back : onPath earlier name with
      | false => rfl
      | true => rw [sub name back] at fresh; cases fresh
    have longer (s : Scalar) (hs : onPath (earlier ++ [name]) s) :
        onPath (followed ++ [name]) s := by
      simp only [onPath, List.any_append, Bool.or_eq_true] at hs ⊢
      exact hs.imp_left (sub s)
    have behind := ih stop longer
    rw [resolveAliasFrom_eq, aliasOf_eq_some.2 refers, ok_bind]
    simp only [fresh', Bool.false_eq_true, if_false]
    rw [behind, List.append_assoc]
    rfl

end Resolves

/-- What is neither wrapped nor an alias is what it stands for. -/
theorem resolveAlias_of_bare (bare : ∀ i, ¬ Wraps node i) (stop : aliasOf types node = .ok none) :
    resolveAlias types node = .ok (node, []) := by
  rw [resolveAlias, resolveAliasFrom_eq, withoutReadonly_of_bare bare, stop, ok_bind]

/-- Only a reference is an alias. -/
theorem aliasOf_of_not_reference (h : node.hasTag "TSTypeReference" = false) :
    aliasOf types node = .ok none := by
  simp [aliasOf, h, Value.truthy, Scalar.truthy]

/-- A name that is declared as something else, or not at all, stands for no alias. -/
theorem aliasOf_of_no_alias (named : node.referenceName = .scalar name)
    (no_alias : ((types.find? name).getD .null).hasTag "TSTypeAliasDeclaration" = false) :
    aliasOf types node = .ok none := by
  cases tag : node.hasTag "TSTypeReference" with
  | false => exact aliasOf_of_not_reference tag
  | true =>
    simp only [aliasOf, tag, if_true, named]
    split
    · rfl
    · simp [Value.key, no_alias]

/-- A wrapper in front of an annotation changes nothing about its aliases. -/
theorem resolveAlias_of_wraps (h : Wraps node inner) :
    resolveAlias types node = resolveAlias types inner := by
  rw [resolveAlias, resolveAlias, resolveAliasFrom_eq, resolveAliasFrom_eq types [] inner,
    withoutReadonly_of_wraps h]

/-! ### Forms -/

theorem avoids_form (node : Value) : Avoids Fault.Circular node.form := by
  refine (avoids_key _).bind fun tag _ => ?_
  split <;> exact avoids_ok _

/-- The form of an annotation is that of its tag. -/
theorem Value.form_eq_ok {node : Value} {form : Form} (h : node.form = .ok form) :
    match form with
    | .array => node.hasTag "TSArrayType"
    | .object => node.hasTagIn ["TSTypeLiteral", "TSIntersectionType"]
    | .choice => node.hasTagIn ["TSUnionType", "TSLiteralType"]
    | .reference => node.hasTag "TSTypeReference"
    | _ => True := by
  obtain ⟨s, hs, h⟩ := bind_eq_ok.1 h
  replace hs := key_eq_ok.1 hs
  simp only [hasTag_iff, hasTagIn, hs]
  split at h <;> cases h <;> trivial

end ComponentSpec
