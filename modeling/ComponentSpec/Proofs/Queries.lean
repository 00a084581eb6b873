import ComponentSpec.Proofs.Outline

/-!
# Where queries lead

Each query that typing one level asks goes on with a path that is the same or has fewer names
ahead, and with a node from the documents at hand: a part of the node or of a declaration. Only a
union that lost its `null` is a new node, and a union asks for nothing.

* `asks_path`, `asks_within` — where the path and the node of an asked query come from;
* `Origin` — the same in detail, for what is inside an outline;
* `not_asks_of_union` — a union is an end.
-/

namespace ComponentSpec

open Checked

variable {types : Declarations} {query asked : Query} {slot : Slot} {path aliases : List Scalar}
  {node inner : Value} {o : Outline}

/-! ### Paths -/

/-- Fewer names are ahead when some of them have joined the path. -/
theorem namesAhead_append_lt_of_mem {names : List Scalar} {name : Scalar} (mem : name ∈ names)
    (declared : types.has name) (fresh : onPath path name = false) :
    namesAhead types (path ++ names) < namesAhead types path := by
  obtain ⟨e, he, same⟩ := List.any_eq_true.1 declared
  -- the entry with the name is ahead of the path, and no longer once the name has joined it
  refine countP_lt_of_mem (fun e h => ?_) he ?_ ?_
  · simp only [onPath, List.any_append, Bool.not_or, Bool.and_eq_true] at h ⊢
    exact h.1
  · simp only [onPath, Bool.not_eq_true', List.any_eq_false] at fresh ⊢
    exact fun s hs h => fresh s hs (Scalar.same_trans h same)
  · simp only [onPath, Bool.not_eq_true', Bool.not_eq_false, List.any_eq_true]
    exact ⟨name, List.mem_append_right _ mem, Scalar.same_symm same⟩

/-- Names that are the same are on the same paths. -/
theorem onPath_congr {s t : Scalar} (same : s.same t) (path : List Scalar) :
    onPath path s = onPath path t := by
  unfold onPath
  congr 1
  funext p
  rw [Scalar.same_comm, Scalar.same_congr same, Scalar.same_comm]

/-- A path that is the same, or leaves fewer names ahead. -/
def PathGrows (types : Declarations) (path path' : List Scalar) : Prop :=
  path' = path ∨ namesAhead types path' < namesAhead types path

theorem Ahead.path_grows (h : Ahead types path node inner aliases) :
    PathGrows types path (path ++ aliases) := by
  cases aliases with
  | nil => exact Or.inl (List.append_nil path)
  | cons a aliases =>
    have declared := (resolves_of_resolveAlias h.resolved).declared a List.mem_cons_self
    exact Or.inr (namesAhead_append_lt_of_mem List.mem_cons_self declared
      (h.fresh a List.mem_cons_self))

theorem has_of_hasTag_find? {name : Scalar} {tag : String}
    (h : ((types.find? name).getD .null).hasTag tag) : types.has name := by
  cases found : types.find? name with
  | some d => exact Table.has_of_find? found
  | none => rw [found] at h; cases h

theorem Outlines.path_grows (h : Outlines types path node o) (asks : o.Asks slot asked) :
    PathGrows types path asked.path := by
  cases h with
  | array | wrapper => cases asks; exact Or.inl rfl
  | literal => cases asks; exact Or.inl rfl
  | interface _ _ _ declared fresh =>
    cases asks
    exact Or.inr (namesAhead_append_lt (has_of_hasTag_find? declared) (by simp [fresh]))

/-- **The path of an asked query** is the path of the query, or leaves fewer names ahead. -/
theorem asks_path (h : Asks types query asked) : PathGrows types query.path asked.path := by
  -- first the aliases join the path, then the name of an interface
  obtain ⟨inner, aliases, o, ahead, outlines, asks⟩ := h.outlines
  rcases ahead.path_grows with same | fewer
  · rw [← same]
    exact outlines.path_grows asks
  · rcases outlines.path_grows asks with same' | fewer'
    · rw [same']
      exact Or.inr fewer
    · exact Or.inr (Nat.lt_trans fewer' fewer)

/-! ### Nodes -/

/-- **A part of the documents at hand:** of a node, or of a declaration. -/
def Within (types : Declarations) (node part : Value) : Prop :=
  part ∈ node.parts ∨ ∃ name declaration, types.find? name = some declaration ∧
    part ∈ declaration.parts

theorem Within.trans {part : Value} (h : Within types node inner) (h' : Within types inner part) :
    Within types node part := by
  rcases h' with below | declared
  · rcases h with h | ⟨name, declaration, found, h⟩
    · exact Or.inl (Value.mem_parts_trans below _ h)
    · exact Or.inr ⟨name, declaration, found, Value.mem_parts_trans below _ h⟩
  · exact Or.inr declared

theorem splitDefault_of_union {name : Value} (h : node.hasTag "TSUnionType") :
    splitDefault name node = .ok (node, none) := by
  simp [splitDefault, Value.hasTag_of_hasTag h]

/-- **How a member is read:** a named property, whose annotation loses its `null` and its default.
-/
structure ReadsMember (withDefaults : Bool) (member : Value) (site : Slot × Value) : Prop where
  property : member.hasTag "TSPropertySignature"
  named : site.1.name = member.keyName
  keepsDefaults : site.1.withDefaults = withDefaults
  typed : ∃ rest nullable, member.memberType.splitNullable = .ok (rest, nullable) ∧
    (site.2 = rest ∨ ∃ default, splitDefault member.keyName rest = .ok (site.2, default))

theorem readsMember_of_memberSite {withDefaults : Bool} {member : Value} {site : Slot × Value}
    (h : memberSite withDefaults member = .ok site) : ReadsMember withDefaults member site := by
  simp only [memberSite] at h
  split at h
  · cases h
  · next named =>
    obtain ⟨⟨rest, nullable⟩, split, h⟩ := bind_eq_ok.1 h
    have tag : member.hasTag "TSPropertySignature" := by
      simp only [Bool.or_eq_true, not_or, Bool.not_eq_true', Bool.not_eq_false] at named
      exact named.1
    split at h
    · obtain ⟨⟨rest', default⟩, split', h⟩ := bind_eq_ok.1 h
      cases h
      exact ⟨tag, rfl, rfl, rest, nullable, split, Or.inr ⟨default, split'⟩⟩
    · cases h
      exact ⟨tag, rfl, rfl, rest, nullable, split, Or.inl rfl⟩

theorem elementSite_eq_ok {element : Value} {site : Slot × Value}
    (h : elementSite slot element = .ok site) :
    site.1.withDefaults = slot.withDefaults ∧
      ∃ nullable, element.splitNullable = .ok (site.2, nullable) := by
  obtain ⟨⟨rest, nullable⟩, split, h⟩ := bind_eq_ok.1 h
  cases h
  exact ⟨rfl, nullable, split⟩

/-- The annotation of an element is a part of what stands in its place, or a union. -/
theorem mem_parts_of_elementSite {element : Value} {site : Slot × Value}
    (h : elementSite slot element = .ok site) :
    site.2 ∈ element.parts ∨ site.2.hasTag "TSUnionType" := by
  obtain ⟨-, nullable, split⟩ := elementSite_eq_ok h
  exact Value.mem_parts_of_splitNullable split

/-- The annotation of a member is a part of what stands in its place, or a union. -/
theorem mem_parts_of_memberSite {withDefaults : Bool} {member : Value} {site : Slot × Value}
    (h : memberSite withDefaults member = .ok site) :
    site.2 ∈ member.memberType.parts ∨ site.2.hasTag "TSUnionType" := by
  obtain ⟨rest, nullable, split, h⟩ := (readsMember_of_memberSite h).typed
  rcases h with rfl | ⟨default, split'⟩
  · exact Value.mem_parts_of_splitNullable split
  -- a default is split off after `null`, and never off a union
  · rcases Value.mem_parts_of_splitNullable split with below | union
    · exact Or.inl (Value.mem_parts_trans (mem_parts_of_splitDefault split') _ below)
    · rw [splitDefault_of_union union] at split'
      cases split'
      exact Or.inr union

theorem isObject_of_memberSite {withDefaults : Bool} {member : Value} {site : Slot × Value}
    (h : memberSite withDefaults member = .ok site) : member.isObject :=
  Value.isObject_of_hasTag (readsMember_of_memberSite h).property

theorem mem_parts_of_lists_singleton {listed : List Value} (h : Lists [node] listed) {m : Value}
    (hm : m ∈ listed) (hobj : m.isObject) : m ∈ node.parts := by
  obtain ⟨n, hn, below⟩ := mem_parts_of_lists h hm hobj
  rwa [List.mem_singleton.1 hn] at below

theorem Expands.within {members l : List Value} {d : Derivation} (h : Expands types members d l)
    (all : ∀ m ∈ members, m.isObject → Within types node m) :
    ∀ m ∈ l, m.isObject → Within types node m := by
  refine h.forall_mem (fun reference name inner _ _ _ declares m hm hobj => ?_) all
  obtain ⟨declaration, found, below⟩ := declares.exists_mem_parts hm hobj
  exact Or.inr ⟨name, declaration, found, below⟩

/-- **Where a query of an outline comes from.** -/
inductive Origin (types : Declarations) (path : List Scalar) (node : Value) (asked : Query) :
    Prop where
  | union (union : asked.node.hasTag "TSUnionType")
  /-- From the element of an array, a part of the node. -/
  | element {part : Value} (mem : part ∈ node.parts) (lighter : part.weight < node.weight)
      (below : asked.node ∈ part.parts) (same : asked.path = path)
  /-- From a member of an object type, its own or inlined. -/
  | member {listed members : List Value} {member : Value}
      (tag : node.hasTagIn ["TSTypeLiteral", "TSIntersectionType"]) (lists : Lists [node] listed)
      (flat : flatten types path listed = .ok members) (mem : member ∈ members)
      (isObject : member.isObject) (below : asked.node ∈ member.memberType.parts)
      (same : asked.path = path)
  /-- From a member of a local interface. -/
  | interfaceMember {name : Scalar} {listed members : List Value} {d : Derivation} {member : Value}
      (tag : node.hasTag "TSTypeReference") (named : node.referenceName = .scalar name)
      (fresh : onPath path name = false) (declares : Declares types name listed)
      (expands : Expands types listed d members) (mem : member ∈ members)
      (isObject : member.isObject) (below : asked.node ∈ member.memberType.parts)
      (grown : asked.path = path ++ [name])

theorem Outlines.origin (h : Outlines types path node o) (asks : o.Asks slot asked) :
    Origin types path node asked := by
  cases h with
  | array tag =>
    cases asks with
    | element sited =>
      rcases mem_parts_of_elementSite sited with below | union
      · exact .element (Value.get_tag_mem_parts tag _)
          (Value.weight_get_lt (Value.isObject_of_hasTag tag) _) below rfl
      · exact .union union
  | @wrapper _ argument _ _ _ only =>
    cases asks with
    | element sited =>
      have mem : argument ∈ node.typeArguments := by simp [only]
      rcases mem_parts_of_elementSite sited with below | union
      · exact .element (Value.mem_parts_of_mem_typeArguments mem)
          (Value.weight_lt_of_mem_typeArguments mem) below rfl
      · exact .union union
  | literal tag lists flat =>
    cases asks with
    | member mem sited =>
      rcases mem_parts_of_memberSite sited with below | union
      · exact .member tag lists flat mem (isObject_of_memberSite sited) below rfl
      · exact .union union
  | interface tag named _ _ fresh expanded =>
    cases asks with
    | member mem sited =>
      obtain ⟨d, listed, declares, expands⟩ := membersOf_eq_ok.1 expanded
      rcases mem_parts_of_memberSite sited with below | union
      · exact .interfaceMember tag named fresh declares expands mem (isObject_of_memberSite sited)
          below rfl
      · exact .union union

/-- What is inside an outline comes from the documents at hand. -/
theorem Origin.within (h : Origin types path node asked) :
    Within types node asked.node ∨ asked.node.hasTag "TSUnionType" := by
  -- the annotation of a member is a part of the member
  have from_member {member : Value} (hmember : Within types node member) (hobj : member.isObject)
      (below : asked.node ∈ member.memberType.parts) : Within types node asked.node :=
    hmember.trans (Or.inl (Value.mem_parts_trans below _ (Value.memberType_mem_parts hobj)))
  cases h with
  | union union => exact Or.inr union
  | element mem _ below => exact Or.inl (Or.inl (Value.mem_parts_trans below _ mem))
  | @member listed _ member _ lists flat mem hobj below =>
    obtain ⟨d, expands⟩ := expands_of_flatten _ _ _ _ flat
    have inside : Within types node member :=
      expands.within (fun m hm hobj => Or.inl (mem_parts_of_lists_singleton lists hm hobj)) member
        mem hobj
    exact Or.inl (from_member inside hobj below)
  | @interfaceMember name listed _ _ member _ _ _ declares expands mem hobj below =>
    -- own members and inlined ones alike are parts of a declaration
    have inside : Within types node member := by
      refine expands.within (fun m hm hobj => ?_) member mem hobj
      obtain ⟨declaration, found, part⟩ := declares.exists_mem_parts hm hobj
      exact Or.inr ⟨name, declaration, found, part⟩
    exact Or.inl (from_member inside hobj below)

/-- Whether defaults belong into the result stays as it is. -/
theorem asks_withDefaults (h : Asks types query asked) :
    asked.slot.withDefaults = query.slot.withDefaults := by
  obtain ⟨o, -, asks⟩ := h
  cases asks with
  | element sited => exact (elementSite_eq_ok sited).1
  | member _ sited => exact (readsMember_of_memberSite sited).keepsDefaults

/-- **The node of an asked query** comes from the documents at hand, or is a union. -/
theorem asks_within (h : Asks types query asked) :
    Within types query.node asked.node ∨ asked.node.hasTag "TSUnionType" := by
  obtain ⟨inner, aliases, o, ahead, outlines, asks⟩ := h.outlines
  have resolved : Within types query.node inner :=
    (resolves_of_resolveAlias ahead.resolved).mem_parts
  exact (outlines.origin asks).within.imp_left resolved.trans

/-- What is neither wrapped nor a reference has no alias in front of it. -/
theorem eq_of_resolveAlias_of_hasTag {tag : String}
    (h : resolveAlias types node = .ok (inner, aliases)) (htag : node.hasTag tag)
    (other : tag ∉ ["TSParenthesizedType", "TSTypeOperator", "TSTypeReference"]) :
    inner = node ∧ aliases = [] := by
  have bare : node.withoutReadonly = node := withoutReadonly_of_bare (bare_of_hasTag htag other)
  cases resolves_of_resolveAlias h with
  | here => exact ⟨bare, rfl⟩
  | follow refers =>
    have reference := refers.tag
    rw [bare, Value.hasTag_of_hasTag htag, decide_eq_true_eq] at reference
    exact absurd (by simp [reference]) other

/-- A union asks for nothing. -/
theorem not_asks_of_union (union : query.node.hasTag "TSUnionType") : ¬ Asks types query asked := by
  intro h
  -- no alias stands in front of a union, and no rule outlines it
  obtain ⟨inner, aliases, o, ahead, outlines, -⟩ := h.outlines
  obtain ⟨rfl, -⟩ := eq_of_resolveAlias_of_hasTag ahead.resolved union (by simp)
  cases outlines with
  | array tag | wrapper tag | interface tag => simp [Value.hasTag_of_hasTag union] at tag
  | literal tag => simp [Value.hasTagIn_of_hasTag union] at tag

/-- No circle is met at a union. -/
theorem not_blocked_of_union {f : Fault} (union : node.hasTag "TSUnionType") :
    ¬ Blocked types path node f := by
  intro blocked
  cases blocked with
  | backAlias resolved mem =>
    obtain ⟨-, rfl⟩ := eq_of_resolveAlias_of_hasTag resolved union (by simp)
    cases mem
  | backInterface ahead tag | inherited ahead tag =>
    obtain ⟨rfl, -⟩ := eq_of_resolveAlias_of_hasTag ahead.resolved union (by simp)
    exact Value.not_hasTag_of_hasTag union (by simp) tag
  | inlined ahead lists =>
    obtain ⟨rfl, -⟩ := eq_of_resolveAlias_of_hasTag ahead.resolved union (by simp)
    cases lists with
    | layer wraps => exact bare_of_hasTag union (by simp) _ wraps
    | literal tag | intersection tag | reference tag =>
      exact Value.not_hasTag_of_hasTag union (by simp) tag

end ComponentSpec
