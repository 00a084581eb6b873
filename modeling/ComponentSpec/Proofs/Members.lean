import ComponentSpec.Proofs.Checked
import ComponentSpec.Proofs.Parts

/-!
# The members of one declaration

Before anything is flattened, a declaration gives a list of members: an interface its extends
clauses and then its body, an alias what its annotation lists through wrappers and intersections.
`Lists` and `Declares` say so by rules, and the two recursions that gather the members agree with
the rules.

* `Wraps` — the layers around an annotation that `withoutReadonly` takes off, one at a time;
* `typeMembers_eq_ok`, `membersDeclared_eq_ok` — what is gathered is what the rules list;
* `Declares.exists_mem_parts` — the members of a type are parts of its declaration.

A step over members fails for what it reads or for a circle among the types. `Fault.Circular`
singles out the second kind of fault. Nothing that reads the members of one declaration raises it
(`avoids_membersDeclared`).
-/

namespace ComponentSpec

open Checked

/-! ### Faults of a circle -/

/-- The causes that name a type as recursive. -/
def Cause.IsRecursive : Cause → Prop
  | .recursiveProps _ | .recursiveType .. => True
  | _ => False

/-- A report that a type is recursive. -/
def Fault.IsRecursive : Fault → Prop
  | .report r => r.cause.IsRecursive
  | _ => False

/-- **The faults of a circle among types:** one that is reported, or one that is never noticed. -/
def Fault.Circular (f : Fault) : Prop := f.IsRecursive ∨ f = .endless

theorem Fault.circular_endless : Fault.Circular .endless := Or.inr rfl

@[simp] theorem Fault.not_circular_misfit (m : Misfit) : ¬ (Fault.misfit m).Circular := by
  simp [Circular, IsRecursive]

theorem Fault.about_ne_endless (cause : Cause) (node : Value) :
    Fault.about cause node ≠ .endless := by
  unfold about
  split <;> simp

theorem Fault.not_circular_about {cause : Cause} (h : ¬ cause.IsRecursive) (node : Value) :
    ¬ (Fault.about cause node).Circular := by
  unfold about
  split
  · simpa [Circular, IsRecursive] using h
  · simp

/-! ### Members of one declaration -/

theorem avoids_elements (v : Value) : Avoids Fault.Circular v.elements := by
  unfold Value.elements
  split
  · simp
  · split <;> simp

/-- The recursion of `typeMembers`, without the proof that it ends. -/
theorem typeMembers_eq (typeName node : Value) :
    typeMembers typeName node =
      if node.withoutReadonly.hasTag "TSTypeLiteral" then
        (node.withoutReadonly.get "members").elements
      else if node.withoutReadonly.hasTag "TSIntersectionType" then do
        let parts ← (node.withoutReadonly.get "types").elements
        List.flatten <$> parts.mapM (typeMembers typeName)
      else if node.withoutReadonly.hasTag "TSTypeReference" then .ok [node.withoutReadonly]
      else .error (.about (.typeMissing typeName) node.withoutReadonly) := by
  rw [typeMembers]
  simp only
  split
  · rfl
  · split
    · split
      · next f hp => rw [hp]; rfl
      · next parts hp =>
        rw [hp, ok_bind, List.mapM_subtype (g := typeMembers typeName) fun _ _ => rfl,
          List.unattach_attach]
    · rfl

theorem avoids_typeMembers (typeName node : Value) :
    Avoids Fault.Circular (typeMembers typeName node) := by
  induction node using typeMembers.induct with
  | case1 node inner h =>
    rw [typeMembers_eq, if_pos h]
    exact avoids_elements _
  | case2 node inner h₁ h₂ f hp =>
    rw [typeMembers_eq, if_neg h₁, if_pos h₂]
    exact (avoids_elements _).bind fun parts hparts => by simp [inner, hp] at hparts
  | case3 node inner h₁ h₂ parts hp ih =>
    rw [typeMembers_eq, if_neg h₁, if_pos h₂, hp, ok_bind]
    exact (Avoids.mapM ih).map
  | case4 node inner h₁ h₂ h₃ =>
    rw [typeMembers_eq, if_neg h₁, if_neg h₂, if_pos h₃]
    exact avoids_ok _
  | case5 node inner h₁ h₂ h₃ =>
    rw [typeMembers_eq, if_neg h₁, if_neg h₂, if_neg h₃]
    exact avoids_error.2 (Fault.not_circular_about id _)

/-! ### The members of an annotation, by rules -/

/-- **A layer of readonly or parentheses** around an annotation. -/
inductive Wraps : Value → Value → Prop where
  | parentheses {node : Value} (tag : node.hasTag "TSParenthesizedType") :
      Wraps node (node.get "typeAnnotation")
  | operator {node : Value} (tag : node.hasTag "TSTypeOperator")
      (readonly : (node.get "operator").isText "readonly") :
      Wraps node (node.get "typeAnnotation")
  | wrapper {node inner : Value} (tag : node.hasTag "TSTypeReference")
      (readonly : node.referenceName.isOneOf readonlyWrappers)
      (only : node.typeArguments = [inner]) : Wraps node inner

theorem withoutReadonly_of_wraps {node inner : Value} (h : Wraps node inner) :
    node.withoutReadonly = inner.withoutReadonly := by
  cases h with
  | parentheses tag => rw [Value.withoutReadonly, dif_pos tag]
  | operator tag readonly =>
    rw [Value.withoutReadonly, dif_neg (by simp [Value.hasTag_of_hasTag tag]),
      dif_pos ⟨tag, readonly⟩]
  | wrapper tag readonly only =>
    rw [Value.withoutReadonly, dif_neg (by simp [Value.hasTag_of_hasTag tag]),
      dif_neg (by simp [Value.hasTag_of_hasTag tag]), if_pos (by simp [tag, readonly])]
    split
    · next inner' h => rw [only] at h; cases h; rfl
    · next h => exact absurd only (h inner)

/-- **Unwrapping, layer by layer.** What holds behind the last layer and goes through a layer holds
in front of them all. -/
theorem withoutReadonly_induction {P : Value → Prop} (node : Value) (last : P node.withoutReadonly)
    (layer : ∀ node inner, Wraps node inner → P inner → P node) : P node := by
  fun_induction Value.withoutReadonly node with
  | case1 node tag ih => exact layer _ _ (.parentheses tag) (ih last)
  | case2 node _ tag ih => exact layer _ _ (.operator tag.1 tag.2) (ih last)
  | case3 node _ _ tag inner only ih =>
    obtain ⟨tag, readonly⟩ := Bool.and_eq_true_iff.1 tag
    exact layer _ _ (.wrapper tag readonly only) (ih last)
  | case4 => exact last
  | case5 => exact last

theorem mem_parts_of_wraps {node inner : Value} (h : Wraps node inner) : inner ∈ node.parts := by
  cases h with
  | parentheses tag => exact Value.get_tag_mem_parts tag _
  | operator tag _ => exact Value.get_tag_mem_parts tag _
  | wrapper _ _ only => exact Value.mem_parts_of_mem_typeArguments (by simp [only])

/-- No layer is left after unwrapping. -/
theorem bare_withoutReadonly (node inner : Value) : ¬ Wraps node.withoutReadonly inner := by
  revert inner
  -- three cases take a layer off; the last two stop, at a wrapper without its one argument or at
  -- what is no layer
  fun_induction Value.withoutReadonly node with
  | case1 node tag ih => exact ih
  | case2 node _ tag ih => exact ih
  | case3 node _ _ tag inner only ih => exact ih
  | case4 node h₁ h₂ _ several =>
    rintro inner (tag | ⟨tag, readonly⟩ | ⟨-, -, only⟩)
    · exact h₁ tag
    · exact h₂ ⟨tag, readonly⟩
    · exact several inner only
  | case5 node h₁ h₂ h₃ =>
    rintro inner (tag | ⟨tag, readonly⟩ | ⟨tag, readonly, -⟩)
    · exact h₁ tag
    · exact h₂ ⟨tag, readonly⟩
    · exact h₃ (by simp [tag, readonly])

theorem withoutReadonly_of_bare {node : Value} (bare : ∀ inner, ¬ Wraps node inner) :
    node.withoutReadonly = node := by
  fun_cases Value.withoutReadonly node with
  | case1 tag => exact absurd (.parentheses tag) (bare _)
  | case2 _ tag => exact absurd (.operator tag.1 tag.2) (bare _)
  | case3 _ _ tag inner only =>
    obtain ⟨tag, readonly⟩ := Bool.and_eq_true_iff.1 tag
    exact absurd (.wrapper tag readonly only) (bare inner)
  | case4 => rfl
  | case5 => rfl

/-- What is no reference, operator or parenthesis has no layer. -/
theorem bare_of_hasTag {tag : String} {node : Value} (h : node.hasTag tag)
    (other : tag ∉ ["TSParenthesizedType", "TSTypeOperator", "TSTypeReference"]) (inner : Value) :
    ¬ Wraps node inner := by
  rintro (tag' | ⟨tag', -⟩ | ⟨tag', -, -⟩) <;>
    · rw [Value.hasTag_of_hasTag h, decide_eq_true_eq] at tag'
      exact other (by simp [tag'])

/-- **What a list of annotations lists,** one after the other: a literal its members, an
intersection what its parts list, and a reference itself. -/
inductive Lists : List Value → List Value → Prop where
  | nil : Lists [] []
  | layer {node inner : Value} {nodes members : List Value} (wraps : Wraps node inner)
      (inside : Lists (inner :: nodes) members) : Lists (node :: nodes) members
  | literal {node : Value} {own nodes members : List Value} (tag : node.hasTag "TSTypeLiteral")
      (listed : (node.get "members").elements = .ok own) (rest : Lists nodes members) :
      Lists (node :: nodes) (own ++ members)
  | intersection {node : Value} {parts nodes members : List Value}
      (tag : node.hasTag "TSIntersectionType") (listed : (node.get "types").elements = .ok parts)
      (inside : Lists (parts ++ nodes) members) : Lists (node :: nodes) members
  | reference {node : Value} {nodes members : List Value} (tag : node.hasTag "TSTypeReference")
      (bare : ∀ inner, ¬ Wraps node inner) (rest : Lists nodes members) :
      Lists (node :: nodes) (node :: members)

theorem Lists.append {nodes nodes' members members' : List Value} (h : Lists nodes members)
    (h' : Lists nodes' members') : Lists (nodes ++ nodes') (members ++ members') := by
  induction h with
  | nil => exact h'
  | layer wraps _ ih => exact .layer wraps ih
  | literal tag listed _ ih =>
    rw [List.append_assoc]
    exact .literal tag listed ih
  | intersection tag listed _ ih =>
    rw [List.append_assoc] at ih
    exact .intersection tag listed ih
  | reference tag bare _ ih => exact .reference tag bare ih

theorem lists_of_withoutReadonly {node : Value} {members : List Value}
    (h : Lists [node.withoutReadonly] members) : Lists [node] members :=
  withoutReadonly_induction (P := fun node => Lists [node] members) node h
    fun _ _ wraps inside => .layer wraps inside

theorem lists_of_forall₂ {nodes : List Value} {lists : List (List Value)}
    (h : List.Forall₂ (fun node members => Lists [node] members) nodes lists) :
    Lists nodes lists.flatten := by
  induction h with
  | nil => exact .nil
  | cons h _ ih => exact h.append ih

/-- What `typeMembers` gives, the rules give. -/
theorem yields_typeMembers (typeName node : Value) :
    Yields (fun members => Lists [node] members) (typeMembers typeName node) := by
  -- along the recursion, with the layers put back around what was unwrapped
  induction node using typeMembers.induct with
  | case1 node inner tag =>
    rw [typeMembers_eq, if_pos tag]
    intro members h
    exact lists_of_withoutReadonly (List.append_nil members ▸ .literal tag h .nil)
  | case2 node inner h₁ tag f hp =>
    rw [typeMembers_eq, if_neg h₁, if_pos tag, hp]
    exact yields_error f
  | case3 node inner h₁ tag parts hp ih =>
    rw [typeMembers_eq, if_neg h₁, if_pos tag, hp, ok_bind]
    intro members h
    obtain ⟨lists, hlists, rfl⟩ := map_eq_ok.1 h
    -- each part of the intersection lists its members, by the induction hypothesis
    have parts_listed : Lists parts lists.flatten :=
      lists_of_forall₂ (forall₂_of_mapM_of_yields ih hlists)
    refine lists_of_withoutReadonly (.intersection tag hp ?_)
    rwa [List.append_nil]
  | case4 node inner h₁ h₂ tag =>
    rw [typeMembers_eq, if_neg h₁, if_neg h₂, if_pos tag, yields_ok]
    exact lists_of_withoutReadonly (.reference tag (bare_withoutReadonly node) .nil)
  | case5 node inner h₁ h₂ h₃ =>
    rw [typeMembers_eq, if_neg h₁, if_neg h₂, if_neg h₃]
    exact yields_error _

theorem typeMembers_of_wraps {node inner : Value} (h : Wraps node inner) (typeName : Value) :
    typeMembers typeName node = typeMembers typeName inner := by
  rw [typeMembers_eq, typeMembers_eq, withoutReadonly_of_wraps h]

/-- An intersection gathers from its parts, one after the other. -/
theorem typeMembers_of_intersection {node : Value} {parts : List Value}
    (tag : node.hasTag "TSIntersectionType")
    (listed : (node.get "types").elements = .ok parts) (typeName : Value) :
    typeMembers typeName node = List.flatten <$> parts.mapM (typeMembers typeName) := by
  have bare : node.withoutReadonly = node := withoutReadonly_of_bare (bare_of_hasTag tag (by simp))
  rw [typeMembers_eq, bare, if_neg (Value.not_hasTag_of_hasTag tag (by simp)), if_pos tag, listed,
    ok_bind]

/-- What the rules give, `typeMembers` gives. -/
theorem typeMembers_of_lists {nodes members : List Value} (h : Lists nodes members)
    (typeName : Value) : List.flatten <$> nodes.mapM (typeMembers typeName) = .ok members := by
  -- on the derivation: a rule works on the first annotation, as one step of `mapM` does
  induction h with
  | nil => rfl
  | layer wraps _ ih =>
    rw [flatten_mapM_cons, typeMembers_of_wraps wraps, ← flatten_mapM_cons, ih]
  | @literal node own nodes members tag listed _ ih =>
    have bare : node.withoutReadonly = node :=
      withoutReadonly_of_bare (bare_of_hasTag tag (by simp))
    rw [flatten_mapM_cons, typeMembers_eq, bare, if_pos tag, listed, ok_bind, ih, map_ok]
  | intersection tag listed _ ih =>
    rw [flatten_mapM_cons, typeMembers_of_intersection tag listed, ← ih, flatten_mapM_append]
  | @reference node nodes members tag bare _ ih =>
    rw [flatten_mapM_cons, typeMembers_eq, withoutReadonly_of_bare bare,
      if_neg (by simp [Value.hasTag_of_hasTag tag]), if_neg (by simp [Value.hasTag_of_hasTag tag]),
      if_pos tag, ok_bind, ih, map_ok]
    rfl

/-- **The members of an annotation** are what the rules list. -/
theorem typeMembers_eq_ok {typeName node : Value} {members : List Value} :
    typeMembers typeName node = .ok members ↔ Lists [node] members := by
  refine ⟨yields_typeMembers typeName node members, fun h => ?_⟩
  -- the rules speak of lists of annotations, of which this is the one with a single annotation
  have listed := typeMembers_of_lists h typeName
  rw [flatten_mapM_cons] at listed
  obtain ⟨l, hl, rest⟩ := bind_eq_ok.1 listed
  rw [hl]
  simpa using rest

/-- The nodes among the members are parts of the annotations. -/
theorem mem_parts_of_lists {nodes members : List Value} (h : Lists nodes members) {m : Value}
    (hm : m ∈ members) (hobj : m.isObject) : ∃ node ∈ nodes, m ∈ node.parts := by
  induction h with
  | nil => cases hm
  | @layer node inner nodes members wraps _ ih =>
    obtain ⟨n, hn, below⟩ := ih hm
    rcases List.mem_cons.1 hn with rfl | hn
    · exact ⟨node, List.mem_cons_self, Value.mem_parts_trans below _ (mem_parts_of_wraps wraps)⟩
    · exact ⟨n, List.mem_cons_of_mem _ hn, below⟩
  | @literal node own nodes members tag listed _ ih =>
    rcases List.mem_append.1 hm with hm | hm
    -- a member of this literal, or one that comes later
    · exact ⟨node, List.mem_cons_self, Value.mem_parts_trans
        (Value.mem_parts_of_mem_elements listed hm (Value.mem_parts_self m) hobj) _
        (Value.get_tag_mem_parts tag _)⟩
    · obtain ⟨n, hn, below⟩ := ih hm
      exact ⟨n, List.mem_cons_of_mem _ hn, below⟩
  | @intersection node parts nodes members tag listed _ ih =>
    obtain ⟨n, hn, below⟩ := ih hm
    -- a part of the intersection is itself a part of the node
    rcases List.mem_append.1 hn with hn | hn
    · exact ⟨node, List.mem_cons_self, Value.mem_parts_trans
        (Value.mem_parts_of_mem_elements listed hn below hobj) _ (Value.get_tag_mem_parts tag _)⟩
    · exact ⟨n, List.mem_cons_of_mem _ hn, below⟩
  | @reference node nodes members _ _ _ ih =>
    rcases List.mem_cons.1 hm with rfl | hm
    · exact ⟨m, List.mem_cons_self, Value.mem_parts_self m⟩
    · obtain ⟨n, hn, below⟩ := ih hm
      exact ⟨n, List.mem_cons_of_mem _ hn, below⟩

/-! ### Members of a declared type -/

/-- **The members that a declaration gives a name,** before flattening: the extends clauses of an
interface and then its body, or what the annotation of an alias lists. -/
inductive Declares (types : Declarations) (name : Scalar) : List Value → Prop where
  | ofInterface {declaration : Value} {heritage body : List Value}
      (found : types.find? name = some declaration)
      (tag : declaration.hasTag "TSInterfaceDeclaration")
      (inherits : (declaration.get "extends").elements = .ok heritage)
      (readable : declaration.interfaceMembers = some body) :
      Declares types name (heritage ++ body)
  | ofAlias {declaration : Value} {members : List Value}
      (found : types.find? name = some declaration)
      (tag : declaration.hasTag "TSTypeAliasDeclaration")
      (listed : Lists [declaration.get "typeAnnotation"] members) :
      Declares types name members

variable {types : Declarations} {name : Scalar} {path : List Scalar} {member : Value}
  {members : List Value}

theorem declaredMembers_of_interface {typeName declaration : Value} {body : List Value}
    (tag : declaration.hasTag "TSInterfaceDeclaration")
    (readable : declaration.interfaceMembers = some body) :
    declaredMembers typeName declaration =
      (· ++ body) <$> (declaration.get "extends").elements := by
  rw [declaredMembers, if_pos tag, readable]
  rfl

theorem declaredMembers_of_alias {typeName declaration : Value}
    (tag : declaration.hasTag "TSTypeAliasDeclaration") :
    declaredMembers typeName declaration =
      typeMembers typeName (declaration.get "typeAnnotation") := by
  rw [declaredMembers, if_neg (by simp [Value.hasTag_of_hasTag tag]), if_pos tag]

theorem membersDeclared_of_find? {declaration : Value} {tag : String}
    (found : types.find? name = some declaration) (h : declaration.hasTag tag) :
    membersDeclared types name = declaredMembers (.scalar name) declaration := by
  -- what has a tag is an object, so the guard for missing declarations lets it through
  have hnull : declaration.isNull = false := Value.isNull_of_hasTag h
  simp [membersDeclared, found, hnull]

/-- **The members of a declared type** are those that its declaration gives it. -/
theorem membersDeclared_eq_ok :
    membersDeclared types name = .ok members ↔ Declares types name members := by
  constructor
  · intro h
    simp only [membersDeclared] at h
    cases hf : types.find? name with
    | none => simp [hf, Value.isNull] at h
    | some declaration =>
      rw [hf, Option.getD_some] at h
      split at h
      · cases h
      -- an interface, an alias, or a declaration without members
      · by_cases tag : declaration.hasTag "TSInterfaceDeclaration"
        · cases readable : declaration.interfaceMembers with
          | none => rw [declaredMembers, if_pos tag, readable] at h; cases h
          | some body =>
            rw [declaredMembers_of_interface tag readable] at h
            obtain ⟨heritage, inherits, rfl⟩ := map_eq_ok.1 h
            exact .ofInterface hf tag inherits readable
        · by_cases tag' : declaration.hasTag "TSTypeAliasDeclaration"
          · rw [declaredMembers_of_alias tag', typeMembers_eq_ok] at h
            exact .ofAlias hf tag' h
          · rw [declaredMembers, if_neg tag, if_neg tag'] at h
            cases h
  · rintro (⟨found, tag, inherits, readable⟩ | ⟨found, tag, listed⟩)
    · rw [membersDeclared_of_find? found tag, declaredMembers_of_interface tag readable, inherits,
        map_ok]
    · rw [membersDeclared_of_find? found tag, declaredMembers_of_alias tag]
      exact typeMembers_eq_ok.2 listed

theorem avoids_membersDeclared (types : Declarations) (name : Scalar) :
    Avoids Fault.Circular (membersDeclared types name) := by
  simp only [membersDeclared]
  -- a missing declaration, an interface whose body cannot be read, another kind of declaration
  split
  · refine avoids_error.2 ?_
    simp [Fault.bare, Fault.Circular, Fault.IsRecursive, Cause.IsRecursive]
  · unfold declaredMembers
    split
    · split
      · exact avoids_error.2 (Fault.not_circular_about id _)
      · exact (avoids_elements _).bind fun _ _ => avoids_ok _
    · split
      · exact avoids_typeMembers _ _
      · exact avoids_error.2 (Fault.not_circular_about id _)

/-- The nodes among the members of a declared type are parts of its declaration. -/
theorem Declares.exists_mem_parts (h : Declares types name members) (hm : member ∈ members)
    (hobj : member.isObject) :
    ∃ declaration, types.find? name = some declaration ∧ member ∈ declaration.parts := by
  cases h with
  | @ofInterface declaration heritage body found tag inherits readable =>
    refine ⟨declaration, found, ?_⟩
    rcases List.mem_append.1 hm with hm | hm
    · exact Value.mem_parts_trans
        (Value.mem_parts_of_mem_elements inherits hm (Value.mem_parts_self member) hobj) _
        (Value.get_tag_mem_parts tag _)
    -- the body is read as a list, which it has to be for its members to be readable
    · have listed : member ∈ ((declaration.get "body").get "body").listOrEmpty := by
        have hlist : ((declaration.get "body").get "body").list? = some body := readable
        simpa [Value.listOrEmpty, hlist] using hm
      exact Value.mem_parts_trans (Value.mem_parts_of_mem_listOrEmpty_get listed) _
        (Value.get_tag_mem_parts tag _)
  | @ofAlias declaration _ found tag listed =>
    obtain ⟨node, hnode, below⟩ := mem_parts_of_lists listed hm hobj
    obtain rfl := List.mem_singleton.1 hnode
    exact ⟨declaration, found, Value.mem_parts_trans below _ (Value.get_tag_mem_parts tag _)⟩

end ComponentSpec
