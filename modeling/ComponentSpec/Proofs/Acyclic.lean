import ComponentSpec.Proofs.Depth

/-!
# Acyclic tables

No circle is reported where there is none. A table is *acyclic* if its names can be ranked so that
each declaration mentions only declared names of smaller rank. The path of a recursion then keeps
above the node at hand: some bound lies above the rank of every declared name that the node
mentions, and no name on the path is below it (`Ranked`). Following an alias, an interface or a
reference among members goes on with a smaller bound, and everything else goes down into the node,
so the recursion ends.

* `Value.Mentions`, `Ranks`, `Acyclic` — ranks;
* `flatten_avoids_circular` — flattening keeps below its path;
* `Ranked.asks` — typing does, and it descends;
* `acyclic_never_circular` — an acyclic table never makes a recursive type.
-/

namespace ComponentSpec

open Checked

variable {types : Declarations} {rank : Scalar → Nat} {b : Nat} {path : List Scalar} {name : Scalar}
  {node inner : Value}

/-! ### Ranks -/

/-- The name of a reference or an extends clause somewhere inside a node. -/
def Value.Mentions (node : Value) (name : Scalar) : Prop :=
  ∃ u ∈ node.parts, u.hasTagIn referenceTags ∧ u.referenceName = .scalar name

theorem Value.Mentions.of_mem_parts {part : Value} (h : part.Mentions name)
    (below : part ∈ node.parts) : node.Mentions name := by
  obtain ⟨u, hu, reference⟩ := h
  exact ⟨u, Value.mem_parts_trans hu _ below, reference⟩

theorem mentions_of_reference (tag : node.hasTagIn Value.referenceTags)
    (named : node.referenceName = .scalar name) : node.Mentions name :=
  ⟨node, Value.mem_parts_self node, tag, named⟩

theorem mentions_of_typeReference (tag : node.hasTag "TSTypeReference")
    (named : node.referenceName = .scalar name) : node.Mentions name :=
  mentions_of_reference ((Value.hasTagIn_of_hasTag tag).trans rfl) named

theorem Value.mentions_obj {entries : List (Scalar × Value)} :
    (obj entries).Mentions name ↔
      ((obj entries).hasTagIn referenceTags ∧ (obj entries).referenceName = .scalar name) ∨
        ∃ e ∈ entries, e.2.Mentions name := by
  simp only [Mentions, parts, List.mem_cons, mem_entryParts]
  constructor
  · rintro ⟨u, rfl | rfl | ⟨e, he, hu⟩, h⟩
    · exact Or.inl h
    · cases h.1
    · exact Or.inr ⟨e, he, u, hu, h⟩
  · rintro (h | ⟨e, he, u, hu, h⟩)
    · exact ⟨_, Or.inl rfl, h⟩
    · exact ⟨u, Or.inr (Or.inr ⟨e, he, hu⟩), h⟩

@[simp] theorem Value.mentions_arr {items : List Value} :
    (arr items).Mentions name ↔ ∃ v ∈ items, v.Mentions name := by
  simp only [Mentions, parts, List.mem_cons, mem_itemParts]
  constructor
  · rintro ⟨u, rfl | ⟨v, hv, hu⟩, h⟩
    · cases h.1
    · exact ⟨v, hv, u, hu, h⟩
  · rintro ⟨v, hv, u, hu, h⟩
    exact ⟨u, Or.inr ⟨v, hv, hu⟩, h⟩

@[simp] theorem Value.not_mentions_scalar {s : Scalar} : ¬ (scalar s).Mentions name := by
  rintro ⟨u, hu, tag, -⟩
  obtain rfl : u = .scalar s := by simpa [parts] using hu
  cases isObject_of_hasTagIn tag

/-- **A rank of the declared names:** each declaration mentions only declared names of smaller rank.
-/
structure Ranks (types : Declarations) (rank : Scalar → Nat) : Prop where
  same : ∀ s t : Scalar, s.same t → rank s = rank t
  mentions : ∀ name declaration, types.find? name = some declaration →
    ∀ s, declaration.Mentions s → types.has s → rank s < rank name

/-- **An acyclic table.** -/
def Acyclic (types : Declarations) : Prop := ∃ rank, Ranks types rank

/-- All declared names that a node mentions rank below a bound. -/
def MentionsBelow (types : Declarations) (rank : Scalar → Nat) (b : Nat) (node : Value) : Prop :=
  ∀ s, node.Mentions s → types.has s → rank s < b

theorem MentionsBelow.of_mem_parts {part : Value} (h : MentionsBelow types rank b node)
    (below : part ∈ node.parts) : MentionsBelow types rank b part :=
  fun s hs => h s (hs.of_mem_parts below)

theorem MentionsBelow.mono {b' : Nat} (h : MentionsBelow types rank b node) (le : b ≤ b') :
    MentionsBelow types rank b' node :=
  fun s hs declared => Nat.lt_of_lt_of_le (h s hs declared) le

/-- **A path above a bound.** -/
def PathAbove (rank : Scalar → Nat) (b : Nat) (path : List Scalar) : Prop := ∀ p ∈ path, b ≤ rank p

theorem PathAbove.fresh (ranks : Ranks types rank) (h : PathAbove rank b path)
    (below : rank name < b) : onPath path name = false := by
  simp only [onPath, List.any_eq_false]
  intro p hp same
  have := h p hp
  have := ranks.same p name same
  omega

theorem PathAbove.append {names : List Scalar} {b' : Nat} (h : PathAbove rank b path) (le : b' ≤ b)
    (all : ∀ s ∈ names, b' ≤ rank s) : PathAbove rank b' (path ++ names) :=
  List.forall_mem_append.2 ⟨fun p hp => Nat.le_trans le (h p hp), all⟩

/-- What a name is declared as mentions names below it. -/
theorem Ranks.declares (ranks : Ranks types rank) {members : List Value}
    (declares : Declares types name members) :
    ∀ m ∈ members, m.isObject → MentionsBelow types rank (rank name) m := by
  intro m hm hobj
  obtain ⟨declaration, found, below⟩ := declares.exists_mem_parts hm hobj
  exact fun s hs => ranks.mentions name declaration found s (hs.of_mem_parts below)

/-! ### Flattening -/

/-- **Flattening meets no circle** on a path above what its members mention. -/
theorem flatten_avoids_circular (ranks : Ranks types rank) (members : List Value)
    (below : ∀ m ∈ members, m.isObject → MentionsBelow types rank b m)
    (above : PathAbove rank b path) : Avoids Fault.Circular (flatten types path members) := by
  -- the invariant: some bound between the members and the path
  refine flatten_avoids (P := fun path members => ∃ b, (∀ m ∈ members, m.isObject →
    MentionsBelow types rank b m) ∧ PathAbove rank b path) (fun _ => id) ?_ ?_ ?_ ⟨b, below, above⟩
  · rintro path member members ⟨b, below, above⟩
    exact ⟨b, (List.forall_mem_cons.1 below).2, above⟩
  · rintro path member members name inner ⟨b, below, above⟩ tag named declares
    have lower : rank name < b := below member List.mem_cons_self (Value.isObject_of_hasTagIn tag)
      name (mentions_of_reference tag named) declares.has
    exact ⟨rank name, ranks.declares declares, above.append (Nat.le_of_lt lower) (by simp)⟩
  · rintro path member members name ⟨b, below, above⟩ tag named declared back
    have lower : rank name < b := below member List.mem_cons_self (Value.isObject_of_hasTagIn tag)
      name (mentions_of_reference tag named) declared
    rw [above.fresh ranks lower] at back
    cases back

theorem membersOf_avoids_circular (ranks : Ranks types rank) (name : Scalar) :
    Avoids Fault.Circular (membersOf types name) := by
  refine (avoids_membersDeclared types name).bind fun members hmembers => ?_
  exact flatten_avoids_circular ranks members (ranks.declares (membersDeclared_eq_ok.1 hmembers))
    (by simp [PathAbove])

/-! ### Typing -/

/-- **A query below its path:** a bound between the names that its node mentions and its path. -/
structure Ranked (types : Declarations) (rank : Scalar → Nat) (b : Nat) (query : Query) : Prop where
  below : MentionsBelow types rank b query.node
  above : PathAbove rank b query.path

/-- Members that are inlined mention names below those that were there. -/
theorem Expands.ranked (ranks : Ranks types rank) {members l : List Value} {d : Derivation}
    {P : Value → Prop} (h : Expands types members d l)
    (below : ∀ m, P m → MentionsBelow types rank b m) (all : ∀ m ∈ members, m.isObject → P m) :
    ∀ m ∈ l, m.isObject → P m ∨ ∃ b' < b, MentionsBelow types rank b' m := by
  refine h.forall_mem (fun reference name inner here tag named declares m hm hobj => ?_)
    fun m hm hobj => Or.inl (all m hm hobj)
  -- the reference is one of those there, or came in with a smaller bound
  have lower : rank name < b := by
    have mentions := mentions_of_reference tag named
    rcases here (Value.isObject_of_hasTagIn tag) with h | ⟨b', hb', h⟩
    · exact below reference h name mentions declares.has
    · exact Nat.lt_trans (h name mentions declares.has) hb'
  exact Or.inr ⟨rank name, lower, ranks.declares declares m hm hobj⟩

/-- Behind aliases the names are below the aliases. -/
theorem Resolves.ranked (ranks : Ranks types rank) {followed names : List Scalar}
    (h : Resolves types followed node inner names) (below : MentionsBelow types rank b node) :
    (names = [] ∧ inner ∈ node.parts) ∨
      ∃ b' < b, MentionsBelow types rank b' inner ∧ ∀ s ∈ names, b' ≤ rank s ∧ rank s < b := by
  -- on the aliases that are followed, each with the bound of its own rank
  induction h generalizing b with
  | here => exact Or.inl ⟨rfl, Value.withoutReadonly_mem_parts _⟩
  | @follow followed names node inner declaration name refers _ _ ih =>
    right
    have lower : rank name < b := by
      have mentions := mentions_of_typeReference refers.tag refers.named
      exact below name (mentions.of_mem_parts (Value.withoutReadonly_mem_parts node))
        (Table.has_of_find? refers.found)
    have inside : MentionsBelow types rank (rank name) (declaration.get "typeAnnotation") :=
      fun s hs => ranks.mentions name declaration refers.found s
        (hs.of_mem_parts (Value.get_tag_mem_parts refers.isAlias _))
    -- the last alias, or further ones with bounds below its rank
    rcases ih inside with ⟨rfl, below'⟩ | ⟨b', hb', below', all⟩
    · refine ⟨rank name, lower, inside.of_mem_parts below', ?_⟩
      simpa using lower
    · have others (s : Scalar) (hs : s ∈ names) : b' ≤ rank s ∧ rank s < b :=
        ⟨(all s hs).1, Nat.lt_trans (all s hs).2 lower⟩
      exact ⟨b', Nat.lt_trans hb' lower, below',
        List.forall_mem_cons.2 ⟨⟨Nat.le_of_lt hb', lower⟩, others⟩⟩

/-- Behind its aliases a query is below its path still, and further down. -/
theorem Ranked.ahead (ranks : Ranks types rank) {query : Query} (h : Ranked types rank b query)
    {aliases : List Scalar} (resolved : resolveAlias types query.node = .ok (inner, aliases)) :
    ∃ b', Ranked types rank b' ⟨query.slot, query.path ++ aliases, inner⟩ ∧
      (b' < b ∨ b' = b ∧ inner.weight ≤ query.node.weight) := by
  have resolves := resolves_of_resolveAlias resolved
  rcases resolves.ranked ranks h.below with ⟨rfl, below⟩ | ⟨b', hb', below, all⟩
  · refine ⟨b, ⟨h.below.of_mem_parts below, ?_⟩, Or.inr ⟨rfl, Value.weight_le_of_mem_parts _ below⟩⟩
    rw [List.append_nil]
    exact h.above
  · exact ⟨b', ⟨below, h.above.append (Nat.le_of_lt hb') fun s hs => (all s hs).1⟩, Or.inl hb'⟩

/-- What is inside an outline is further down. -/
theorem Origin.ranked (ranks : Ranks types rank) {slot : Slot} {asked : Query}
    (origin : Origin types path node asked) (h : Ranked types rank b ⟨slot, path, node⟩) :
    asked.node.hasTag "TSUnionType" ∨ ∃ b', Ranked types rank b' asked ∧
      (b' < b ∨ b' = b ∧ asked.node.weight < node.weight) := by
  have inside {part : Value} (below : asked.node ∈ part.parts) (hpart : part ∈ node.parts)
      (lighter : part.weight < node.weight) (same : asked.path = path) :
      ∃ b', Ranked types rank b' asked ∧ (b' < b ∨ b' = b ∧ asked.node.weight < node.weight) := by
    refine ⟨b, ⟨h.below.of_mem_parts (Value.mem_parts_trans below _ hpart), ?_⟩, Or.inr ⟨rfl, ?_⟩⟩
    · rw [same]
      exact h.above
    · exact Nat.lt_of_le_of_lt (Value.weight_le_of_mem_parts _ below) lighter
  cases origin with
  | union union => exact Or.inl union
  | element mem lighter below same => exact Or.inr (inside below mem lighter same)
  | @member listed _ member _ lists flat mem hobj below same =>
    obtain ⟨d, expands⟩ := expands_of_flatten _ _ _ _ flat
    have type := Value.memberType_mem_parts hobj
    have origin := expands.ranked ranks (P := (· ∈ node.parts)) (fun m => h.below.of_mem_parts)
      (fun m hm hobj => mem_parts_of_lists_singleton lists hm hobj) member mem hobj
    right
    -- an own member is inside the node, an inlined one below the bound
    rcases origin with own | ⟨b', hb', inlined⟩
    · exact inside below (Value.mem_parts_trans type _ own) (Nat.lt_of_lt_of_le
        (Value.weight_memberType_lt hobj) (Value.weight_le_of_mem_parts _ own)) same
    · refine ⟨b', ⟨inlined.of_mem_parts (Value.mem_parts_trans below _ type), ?_⟩, Or.inl hb'⟩
      rw [same]
      exact fun p hp => Nat.le_trans (Nat.le_of_lt hb') (h.above p hp)
  | @interfaceMember name _ _ _ member tag named _ declares expands mem hobj below grown =>
    have lower : rank name < b :=
      h.below name (mentions_of_typeReference tag named) declares.has
    have hmember : MentionsBelow types rank (rank name) member := by
      rcases expands.ranked ranks (fun m hm => hm) (ranks.declares declares) member mem hobj with
        own | ⟨b', hb', inlined⟩
      · exact own
      · exact inlined.mono (Nat.le_of_lt hb')
    right
    refine ⟨rank name, ⟨hmember.of_mem_parts
      (Value.mem_parts_trans below _ (Value.memberType_mem_parts hobj)), ?_⟩, Or.inl lower⟩
    rw [grown]
    exact h.above.append (Nat.le_of_lt lower) (by simp)

variable {query asked : Query}

/-- **Typing descends:** to a smaller bound, or into the node. -/
theorem Ranked.asks (ranks : Ranks types rank) (h : Ranked types rank b query)
    (hasked : Asks types query asked) :
    asked.node.hasTag "TSUnionType" ∨ ∃ b', Ranked types rank b' asked ∧
      (b' < b ∨ b' = b ∧ asked.node.weight < query.node.weight) := by
  obtain ⟨inner, aliases, o, ahead, outlines, asks⟩ := hasked.outlines
  obtain ⟨b₁, behind, le⟩ := h.ahead ranks ahead.resolved
  refine ((outlines.origin asks).ranked ranks behind).imp_right ?_
  rintro ⟨b', ranked, lt⟩
  exact ⟨b', ranked, by omega⟩

theorem Ranked.ends (ranks : Ranks types rank) (h : Ranked types rank b query) :
    Ends types query := by
  -- a smaller bound may come with any node, so the bound goes first
  induction b using Nat.strongRecOn generalizing query with
  | _ b ihBound =>
    -- with the bound at hand, by the weight of the node
    induction hw : query.node.weight using Nat.strongRecOn generalizing query with
    | _ w ihWeight =>
      refine .intro query fun asked hasked => ?_
      rcases h.asks ranks hasked with union | ⟨b', ranked, hb' | ⟨rfl, lighter⟩⟩
      · exact .intro asked fun _ h => absurd h (not_asks_of_union union)
      · exact ihBound b' hb' ranked
      · exact ihWeight _ (hw ▸ lighter) ranked rfl

/-- **A query below its path meets no circle.** -/
theorem Ranked.not_blocked (ranks : Ranks types rank) (h : Ranked types rank b query) {f : Fault}
    (circular : f.Circular) : ¬ Blocked types query.path query.node f := by
  -- each way to meet a circle needs a name on the path that ranks below the bound
  intro blocked
  cases blocked with
  | backAlias resolved mem back =>
    rcases (resolves_of_resolveAlias resolved).ranked ranks h.below with ⟨rfl, -⟩ | ⟨b', -, -, all⟩
    · cases mem
    · rw [h.above.fresh ranks (all _ mem).2] at back
      cases back
  | backInterface ahead tag named declared back =>
    obtain ⟨b', behind, -⟩ := h.ahead ranks ahead.resolved
    have lower := behind.below _ (mentions_of_typeReference tag named)
      (has_of_hasTag_find? declared)
    rw [behind.above.fresh ranks lower] at back
    cases back
  | inlined ahead lists fails =>
    obtain ⟨b', behind, -⟩ := h.ahead ranks ahead.resolved
    refine flatten_avoids_circular ranks _ (fun m hm hobj => ?_) behind.above f fails circular
    exact behind.below.of_mem_parts (mem_parts_of_lists_singleton lists hm hobj)
  | inherited _ _ _ fails => exact membersOf_avoids_circular ranks _ f fails circular

/-- Some bound lies above all names. -/
theorem exists_ranked_nil (types : Declarations) (rank : Scalar → Nat) (ranks : Ranks types rank)
    (slot : Slot) (node : Value) : ∃ b, Ranked types rank b ⟨slot, [], node⟩ := by
  have above : ∃ b, ∀ e ∈ types, rank e.1 < b := by
    clear ranks
    induction types with
    | nil => exact ⟨0, nofun⟩
    | cons e types ih =>
      obtain ⟨b, hb⟩ := ih
      refine ⟨max b (rank e.1 + 1), List.forall_mem_cons.2 ⟨by omega, fun e' he' => ?_⟩⟩
      exact Nat.lt_of_lt_of_le (hb e' he') (Nat.le_max_left _ _)
  -- names that are not declared need no bound
  obtain ⟨b, hb⟩ := above
  refine ⟨b, fun s _ declared => ?_, nofun⟩
  obtain ⟨e, he, same⟩ := List.any_eq_true.1 declared
  rw [← ranks.same _ _ same]
  exact hb e he

/-- **An acyclic table never makes a recursive type.** The members of a type, a list of members and
an annotation are expanded and typed to their end, and no circle is reported. -/
theorem acyclic_never_circular (h : Acyclic types) :
    (∀ name, Avoids Fault.Circular (membersOf types name)) ∧
    (∀ members, Avoids Fault.Circular (flatten types [] members)) ∧
    ∀ slot node, Ends types ⟨slot, [], node⟩ ∧
      Avoids Fault.Circular (annotate types slot [] node) := by
  obtain ⟨rank, ranks⟩ := h
  refine ⟨membersOf_avoids_circular ranks, fun members => ?_, fun slot node => ?_⟩
  -- a list of members mentions what its members do
  · obtain ⟨b, ranked⟩ := exists_ranked_nil types rank ranks default (.arr members)
    refine flatten_avoids_circular ranks members (fun m hm _ => ?_) ranked.above
    exact ranked.below.of_mem_parts (Value.mem_parts_of_mem_listOrEmpty hm)
  · obtain ⟨b, ranked⟩ := exists_ranked_nil types rank ranks slot node
    have ends := ranked.ends ranks
    refine ⟨ends, annotate_avoids_circular_of_ends ends
      (P := fun query => query.node.hasTag "TSUnionType" ∨ ∃ b, Ranked types rank b query)
      (Or.inr ⟨b, ranked⟩) ?_ ?_⟩
    · rintro query asked (union | ⟨b, ranked⟩) hasked
      · exact absurd hasked (not_asks_of_union union)
      · exact (ranked.asks ranks hasked).imp_right fun ⟨b', ranked, _⟩ => ⟨b', ranked⟩
    · rintro query f (union | ⟨b, ranked⟩) circular
      · exact not_blocked_of_union union
      · exact ranked.not_blocked ranks circular

namespace Sample

theorem mentions_node {tag : String} {fields : List (String × Value)} :
    (Sample.node tag fields).Mentions name ↔
      (Value.referenceTags.contains tag ∧ (Sample.node tag fields).referenceName = .scalar name) ∨
        ∃ f ∈ fields, f.2.Mentions name := by
  have here : (Sample.node tag fields).hasTag tag := by simp
  rw [← Value.hasTagIn_of_hasTag here, Sample.node, Value.record, Value.mentions_obj]
  simp

@[simp] theorem not_mentions_identifier (n : String) : ¬ (identifier n).Mentions name := by
  simp [identifier, mentions_node, Value.referenceTags]

@[simp] theorem mentions_heritage (n : String) : (heritage n).Mentions name ↔ name = .str n := by
  have key := referenceName_heritage n
  rw [heritage] at key ⊢
  rw [mentions_node, key]
  simp [Value.referenceTags, eq_comm]

@[simp] theorem mentions_reference (n : String) (arguments : List Value) :
    (reference n arguments).Mentions name ↔ name = .str n ∨ ∃ v ∈ arguments, v.Mentions name := by
  have key := referenceName_reference n arguments
  rw [reference] at key ⊢
  rw [mentions_node, key]
  simp [mentions_node, Value.referenceTags, eq_comm]

@[simp] theorem mentions_property (n : String) (type : Value) :
    (property n type).Mentions name ↔ type.Mentions name := by
  simp [property, mentions_node, Value.referenceTags]

@[simp] theorem mentions_interfaceNamed (n : String) (extended members : List Value) :
    (interfaceNamed n extended members).Mentions name ↔
      (∃ v ∈ extended, v.Mentions name) ∨ ∃ v ∈ members, v.Mentions name := by
  simp [interfaceNamed, mentions_node, Value.referenceTags]

end Sample

/-- The ranks of the diamond: the shared type, those that extend it, and the one that extends these.
-/
def Sample.diamondRank (name : Scalar) : Nat :=
  match name.canonical with
  | .str "Props" => 2
  | .str "Shared" => 0
  | _ => 1

open Sample in
theorem acyclic_never_circular_diamond :
    Acyclic diamond ∧ Avoids Fault.Circular (membersOf diamond (.str "Props")) ∧
      Ends diamond ⟨default, [], arrayOf (reference "Props" [])⟩ := by
  have keyword_silent (s : Scalar) : ¬ (keyword "TSStringKeyword").Mentions s := by
    simp [keyword, mentions_node, Value.referenceTags]
  have ranks : Ranks diamond diamondRank := by
    refine ⟨fun s t same => ?_, fun name declaration found s mentions declared => ?_⟩
    · rw [diamondRank, diamondRank, of_decide_eq_true same]
    -- a name may be spelled differently from the key of its declaration
    · have ranked {key : String} (same : (Scalar.str key).same name) :
          diamondRank name = diamondRank (.str key) := by
        rw [diamondRank, diamondRank, of_decide_eq_true same]
      simp only [diamond, table, List.map_cons, List.map_nil, Table.find?_cons,
        Table.find?_nil] at found
      split_ifs at found with shared left right props <;> cases found
      · simp [keyword_silent] at mentions
      · obtain rfl : s = .str "Shared" := by simpa using mentions
        rw [ranked left]
        decide
      · obtain rfl : s = .str "Shared" := by simpa [keyword_silent] using mentions
        rw [ranked right]
        decide
      · have local_name : s = .str "Left" ∨ s = .str "Right" := by
          have names : s = .str "ViewProps" ∨ s = .str "Left" ∨ s = .str "Right" := by
            simpa using mentions
          refine names.resolve_left ?_
          rintro rfl
          revert declared
          decide
        rw [ranked props]
        rcases local_name with rfl | rfl <;> decide
  have acyclic : Acyclic diamond := ⟨diamondRank, ranks⟩
  obtain ⟨members, -, typed⟩ := acyclic_never_circular acyclic
  exact ⟨acyclic, members _, (typed _ _).1⟩

end ComponentSpec
