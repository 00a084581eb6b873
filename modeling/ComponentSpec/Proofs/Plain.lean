import ComponentSpec.Proofs.Depth

/-!
# Plain types

Where nothing is inlined into an object type, every recursion ends, circles or not. A document is
*plain* if it has no intersection and no object literal that lists a reference among its members;
interfaces may extend others. Typing a plain annotation then either goes down into the node with the
path as it is, or past an alias or an interface whose name joins the path. So the pair of the number
of names ahead and the weight of the node descends (`Value.Plain.asks`), whatever is on the path at
the start.

* `Value.Plain`, `PlainTypes` — plain documents;
* `Value.Plain.ends` — the recursion from a plain annotation ends.
-/

namespace ComponentSpec

open Checked

variable {types : Declarations} {path : List Scalar} {node : Value} {query asked : Query}

/-- **A document that inlines nothing into an object type.** -/
structure Value.Plain (node : Value) : Prop where
  no_intersection : ∀ u ∈ node.parts, u.hasTag "TSIntersectionType" = false
  no_spread : ∀ u ∈ node.parts, u.hasTag "TSTypeLiteral" →
    ∀ members, (u.get "members").elements = .ok members →
      ∀ m ∈ members, m.hasTagIn referenceTags = false

/-- A document is plain if a look at each of its parts says so. -/
theorem Value.plain_of_forall (h : ∀ u ∈ node.parts, u.hasTag "TSIntersectionType" = false ∧
    (u.hasTag "TSTypeLiteral" → ∀ m ∈ (u.get "members").elements.toOption.getD [],
      m.hasTagIn referenceTags = false)) : node.Plain where
  no_intersection u hu := (h u hu).1
  no_spread u hu tag members listed m hm := (h u hu).2 tag m (by rw [listed]; exact hm)

/-- All declarations are plain. -/
def PlainTypes (types : Declarations) : Prop :=
  ∀ name declaration, types.find? name = some declaration → declaration.Plain

theorem Value.Plain.of_mem_parts {part : Value} (h : node.Plain) (below : part ∈ node.parts) :
    part.Plain where
  no_intersection u hu := h.no_intersection u (Value.mem_parts_trans hu _ below)
  no_spread u hu := h.no_spread u (Value.mem_parts_trans hu _ below)

theorem PlainTypes.within {part : Value} (plain : PlainTypes types) (h : node.Plain)
    (hpart : Within types node part) : part.Plain := by
  rcases hpart with below | ⟨name, declaration, found, below⟩
  · exact h.of_mem_parts below
  · exact (plain name declaration found).of_mem_parts below

/-- A plain object type has the members that it lists. -/
theorem Value.Plain.flatten {listed members : List Value} (h : node.Plain)
    (tag : node.hasTagIn ["TSTypeLiteral", "TSIntersectionType"]) (lists : Lists [node] listed)
    (flat : flatten types path listed = .ok members) : members = listed := by
  obtain ⟨t, ht, tag⟩ := Value.hasTagIn_iff.1 tag
  have intersection := h.no_intersection node (Value.mem_parts_self node)
  simp only [List.mem_cons, List.not_mem_nil, or_false] at ht
  rcases ht with rfl | rfl
  -- a literal that lists no reference, since there is no intersection
  · obtain ⟨d, expands⟩ := expands_of_flatten _ _ _ _ flat
    refine expands.eq_of_no_reference ?_
    cases lists with
    | layer wraps => exact absurd wraps (bare_of_hasTag tag (by simp) _)
    | literal _ elements rest =>
      cases rest
      rw [List.append_nil]
      exact h.no_spread node (Value.mem_parts_self node) tag _ elements
    | intersection tag' => rw [intersection] at tag'; cases tag'
    | reference tag' => simp [Value.hasTag_of_hasTag tag] at tag'
  · rw [intersection] at tag
    cases tag

/-- What is inside the outline of a plain annotation is lighter, or behind a longer path. -/
theorem Origin.lighter (h : Origin types path node asked) (plain : node.Plain) :
    asked.node.hasTag "TSUnionType" ∨ namesAhead types asked.path < namesAhead types path ∨
      asked.path = path ∧ asked.node.weight < node.weight := by
  cases h with
  | union union => exact Or.inl union
  | element _ lighter below same =>
    exact Or.inr (Or.inr ⟨same,
      Nat.lt_of_le_of_lt (Value.weight_le_of_mem_parts _ below) lighter⟩)
  | @member _ _ member tag lists flat mem hobj below same =>
    rw [plain.flatten tag lists flat] at mem
    have hmember := mem_parts_of_lists_singleton lists mem hobj
    have lighter : member.memberType.weight < node.weight :=
      Nat.lt_of_lt_of_le (Value.weight_memberType_lt hobj)
        (Value.weight_le_of_mem_parts _ hmember)
    exact Or.inr (Or.inr ⟨same,
      Nat.lt_of_le_of_lt (Value.weight_le_of_mem_parts _ below) lighter⟩)
  | interfaceMember _ _ fresh declares _ _ _ _ grown =>
    rw [grown]
    exact Or.inr (Or.inl (namesAhead_append_lt declares.has (by simp [fresh])))

/-- **Typing a plain annotation descends:** past a name ahead, or into the node. -/
theorem Value.Plain.asks (h : query.node.Plain) (plain : PlainTypes types)
    (hasked : Asks types query asked) :
    asked.node.hasTag "TSUnionType" ∨ asked.node.Plain ∧
      (namesAhead types asked.path < namesAhead types query.path ∨
        asked.path = query.path ∧ asked.node.weight < query.node.weight) := by
  -- what is asked about is plain like all documents at hand, unless it is a union
  rcases asks_within hasked with within | union
  swap
  · exact Or.inl union
  obtain ⟨inner, aliases, o, ahead, outlines, asks⟩ := hasked.outlines
  have resolves := resolves_of_resolveAlias ahead.resolved
  have inner_plain : inner.Plain := plain.within h resolves.mem_parts
  refine ((outlines.origin asks).lighter inner_plain).imp_right fun descends =>
    ⟨plain.within h within, ?_⟩
  cases aliases with
  | nil =>
    have le : inner.weight ≤ query.node.weight := by
      rw [resolves.eq_withoutReadonly]
      exact Value.weight_withoutReadonly_le query.node
    rw [List.append_nil] at descends
    exact descends.imp_right fun ⟨same, lighter⟩ => ⟨same, Nat.lt_of_lt_of_le lighter le⟩
  | cons a aliases =>
    -- an alias was followed, which is now on the path
    have fewer : namesAhead types (query.path ++ a :: aliases) < namesAhead types query.path :=
      namesAhead_append_lt_of_mem List.mem_cons_self (resolves.declared a List.mem_cons_self)
        (ahead.fresh a List.mem_cons_self)
    left
    rcases outlines.path_grows asks with same | fewer'
    · rw [same]
      exact fewer
    · exact Nat.lt_trans fewer' fewer

/-- **The recursion from a plain annotation ends.** -/
theorem Value.Plain.ends (plain : PlainTypes types) (h : query.node.Plain) : Ends types query := by
  -- a longer path may come with any node, so the names ahead go first
  induction ha : namesAhead types query.path using Nat.strongRecOn generalizing query with
  | _ a ihAhead =>
    -- with the path as it is, by the weight of the node
    induction hw : query.node.weight using Nat.strongRecOn generalizing query with
    | _ w ihWeight =>
      refine .intro query fun asked hasked => ?_
      rcases h.asks plain hasked with union | ⟨asked_plain, fewer | ⟨same, lighter⟩⟩
      · exact .intro asked fun _ h => absurd h (not_asks_of_union union)
      · exact ihAhead _ (ha ▸ fewer) asked_plain rfl
      · exact ihWeight _ (hw ▸ lighter) asked_plain (by rw [same, ha]) rfl

end ComponentSpec
