import ComponentSpec.Proofs.Queries

/-!
# The depth of an annotation

`annotate` iterates `step` to a depth that the weight of the documents bounds. The bound never
decides anything: `annotate` is a fixed point of `step` (`annotate_eq_step`), and any greater depth
gives the same answer (`annotateTo_eq_annotate`).

An answer that is not `endless` stays when the depth grows, so the depth can only change which
queries are endless. Fix a path, and suppose that the queries on every longer path are settled.
Whether a query on the path is endless depends, apart from `withDefaults`, on its node alone
(`endless_congr_slot`), and its node is a part of the documents at hand, or a union, which asks for
nothing. Each further depth either leaves all these queries as they are, which settles them, or
ends one of finitely many. `settled_of_namesAhead_lt` counts, by induction on the number of names
ahead.

* `Settled` — a query whose answer stays from a depth on;
* `annotate_eq_step` — the recursion of `annotate`;
* `Ends`, `annotate_avoids_endless_of_ends` — a recursion that ends is not endless.
-/

namespace ComponentSpec

open Checked

variable {types : Declarations} {query asked : Query} {n m : Nat}

/-! ### Greater depth -/

/-- **An answer stays when the depth grows.** -/
theorem annotateTo_below_succ (types : Declarations) (n : Nat) (query : Query) :
    Below (query.answer (annotateTo types n)) (query.answer (annotateTo types (n + 1))) := by
  induction n generalizing query with
  | zero => exact Or.inl rfl
  | succ n ih =>
    rw [annotateTo_succ types n, annotateTo_succ types (n + 1)]
    exact step_below fun asked _ => ih asked

/-- **A query whose answer stays** from a depth on. -/
def Settled (types : Declarations) (n : Nat) (query : Query) : Prop :=
  ∀ m, n ≤ m → query.answer (annotateTo types m) = query.answer (annotateTo types n)

theorem Settled.mono (h : Settled types n query) (hnm : n ≤ m) : Settled types m query := by
  intro k hk
  rw [h k (Nat.le_trans hnm hk), h m hnm]

theorem settled_of_asks (h : ∀ asked, Asks types query asked → Settled types n asked) :
    Settled types (n + 1) query := by
  intro m hm
  -- one level further up, the answers that matter stay
  obtain ⟨m, rfl⟩ := Nat.exists_eq_add_of_le' (Nat.le_trans (Nat.le_add_left 1 n) hm)
  rw [annotateTo_succ types m, annotateTo_succ types n]
  exact step_congr fun asked hasked => h asked hasked m (Nat.le_of_succ_le_succ hm)

theorem settled_of_union (union : query.node.hasTag "TSUnionType") : Settled types 1 query :=
  settled_of_asks fun _ h => absurd h (not_asks_of_union union)

/-! ### Endless queries -/

/-- A query that is endless at a depth. -/
def EndlessAt (types : Declarations) (n : Nat) (query : Query) : Prop :=
  query.answer (annotateTo types n) = .error .endless

theorem EndlessAt.of_succ (h : EndlessAt types (n + 1) query) : EndlessAt types n query := by
  rcases annotateTo_below_succ types n query with h' | h'
  · exact h'
  · exact h'.trans h

/-- The slot has no part in it, apart from `withDefaults`. -/
theorem endless_congr_slot {slot slot' : Slot} {path : List Scalar} {node : Value}
    (same : slot.withDefaults = slot'.withDefaults) (h : EndlessAt types n ⟨slot, path, node⟩) :
    EndlessAt types n ⟨slot', path, node⟩ := by
  -- the outline is the same, and the element of an array is asked about in a slot that differs as
  -- little; members are asked about in slots of their own
  induction n generalizing slot slot' path node with
  | zero => rfl
  | succ n ih =>
    rcases bind_eq_error.1 h with h | ⟨o, outlined, h⟩
    · exact absurd rfl (outline_avoids_endless types slot path node _ h)
    have filled (noLeaf : ∀ t, o ≠ .leaf t)
        (h' : o.fill (annotateTo types n) slot' = .error .endless) :
        EndlessAt types (n + 1) ⟨slot', path, node⟩ :=
      bind_eq_error.2 (Or.inr ⟨o, outline_congr_slot outlined noLeaf slot', h'⟩)
    cases o with
    | leaf t => cases h
    | array path' element =>
      rcases bind_eq_error.1 h with h | ⟨site, sited, h⟩
      · exact absurd Fault.circular_endless (avoids_elementSite _ _ _ h)
      obtain ⟨⟨rest, nullable⟩, split, sited⟩ := bind_eq_ok.1 sited
      cases sited
      rcases bind_eq_error.1 h with h | ⟨t, -, h⟩
      · have sited' : elementSite slot' element =
            .ok ({ slot' with optional := nullable, element := true }, rest) := by
          rw [elementSite, split]
          rfl
        have inside : EndlessAt types n
            ⟨{ slot' with optional := nullable, element := true }, path', rest⟩ :=
          ih (show ({ slot with optional := nullable, element := true } : Slot).withDefaults =
            slot'.withDefaults from same) h
        refine filled (fun _ => nofun) (bind_eq_error.2 (Or.inr ⟨_, sited', ?_⟩))
        exact bind_eq_error.2 (Or.inl inside)
      · cases h
    | object path' members =>
      refine filled (fun _ => nofun) ?_
      rw [← h, Outline.fill, Outline.fill, same]

/-- Endless queries that become no fewer are settled, if what they lead to elsewhere is. -/
theorem settled_of_endless_stays {P : Query → Prop}
    (leads : ∀ query asked, P query → Asks types query asked →
      P asked ∨ Settled types n asked)
    (stays : ∀ query, P query → EndlessAt types n query → EndlessAt types (n + 1) query)
    (hquery : P query) : Settled types n query := by
  -- no answer changes from one depth to the next, by induction on the depth
  have next (k : Nat) (query : Query) (h : P query) :
      query.answer (annotateTo types (n + k + 1)) = query.answer (annotateTo types (n + k)) := by
    induction k generalizing query with
    | zero =>
      rcases annotateTo_below_succ types n query with endless | same
      · exact (stays query h endless).trans endless.symm
      · exact same.symm
    | succ k ih =>
      rw [← Nat.add_assoc, annotateTo_succ types (n + k + 1), annotateTo_succ types (n + k)]
      refine step_congr fun asked hasked => ?_
      rw [← annotateTo_succ]
      rcases leads query asked h hasked with h | settled
      · exact ih asked h
      · rw [settled (n + k + 1) (by omega), settled (n + k) (by omega)]
  intro m hm
  obtain ⟨k, rfl⟩ := Nat.exists_eq_add_of_le hm
  induction k with
  | zero => rfl
  | succ k ih => exact (next k query hquery).trans (ih (Nat.le_add_right n k))

/-! ### Counting -/

/-- A count that never grows stays the same at one of its first steps. -/
theorem exists_succ_eq_of_antitone (count : Nat → Nat) (anti : ∀ i, count (i + 1) ≤ count i) :
    ∃ i ≤ count 0, count (i + 1) = count i := by
  induction h : count 0 using Nat.strongRecOn generalizing count with
  | _ k ih =>
    subst h
    by_cases same : count 1 = count 0
    · exact ⟨0, Nat.zero_le _, same⟩
    · have fewer : count 1 < count 0 := Nat.lt_of_le_of_ne (anti 0) same
      obtain ⟨i, hi, stays⟩ :=
        ih (count 1) fewer (fun i => count (i + 1)) (fun i => anti (i + 1)) rfl
      exact ⟨i + 1, by omega, stays⟩

/-- **Finitely many.** Tests on a list that only ever turn from true to false stay as they are at
one of the first steps. -/
theorem exists_stays {α : Type} (l : List α) (test : Nat → α → Bool)
    (anti : ∀ i a, test (i + 1) a → test i a) :
    ∃ i ≤ l.length, ∀ a ∈ l, test i a → test (i + 1) a := by
  obtain ⟨i, hi, same⟩ := exists_succ_eq_of_antitone (fun i => l.countP (test i))
    fun i => List.countP_mono_left fun a _ => anti i a
  refine ⟨i, Nat.le_trans hi List.countP_le_length, fun a ha h => ?_⟩
  -- a test that turned false would be one fewer
  by_contra gone
  have fewer := countP_lt_of_mem (p := test (i + 1)) (anti i) ha h gone
  exact absurd same (Nat.ne_of_lt fewer)

/-- The nodes that can ever be asked about, apart from unions. -/
def nodesAtHand (types : Declarations) (node : Value) : List Value :=
  node.parts ++ Value.entryParts types

theorem mem_nodesAtHand {node part : Value} (h : Within types node part) :
    part ∈ nodesAtHand types node := by
  rcases h with below | ⟨name, declaration, found, below⟩
  · exact List.mem_append_left _ below
  · obtain ⟨e, he, rfl⟩ := Option.map_eq_some_iff.1 found
    exact List.mem_append_right _ (Value.mem_entryParts.2 ⟨e, List.mem_of_find?_eq_some he, below⟩)

theorem length_nodesAtHand (types : Declarations) (node : Value) :
    (nodesAtHand types node).length = node.weight + Value.weightEntries types := by
  rw [nodesAtHand, List.length_append, Value.length_parts, Value.length_entryParts]

/-- The queries about the documents at hand. -/
def AtHand (types : Declarations) (node : Value) (query : Query) : Prop :=
  Within types node query.node ∨ query.node.hasTag "TSUnionType"

theorem AtHand.asks {node : Value} (h : AtHand types node query) (hasked : Asks types query asked) :
    AtHand types node asked := by
  rcases h with h | union
  · exact (asks_within hasked).imp_left h.trans
  · exact absurd hasked (not_asks_of_union union)

/-- **The queries alongside a query:** on its path, with defaults if it has them, about the
documents at hand. -/
structure Alongside (types : Declarations) (node : Value) (query other : Query) : Prop where
  path : other.path = query.path
  withDefaults : other.slot.withDefaults = query.slot.withDefaults
  within : Within types node other.node

/-- What is asked alongside a query stays alongside, is a union, or has fewer names ahead. -/
theorem Alongside.asks {node : Value} {other : Query} (h : Alongside types node query other)
    (hasked : Asks types other asked) :
    Alongside types node query asked ∨ asked.node.hasTag "TSUnionType" ∨
      AtHand types node asked ∧ namesAhead types asked.path < namesAhead types query.path := by
  have atHand : AtHand types node asked := AtHand.asks (Or.inl h.within) hasked
  rcases asks_path hasked with same | fewer
  · rcases atHand with within | union
    · have withDefaults := (asks_withDefaults hasked).trans h.withDefaults
      exact Or.inl ⟨same.trans h.path, withDefaults, within⟩
    · exact Or.inr (Or.inl union)
  · rw [h.path] at fewer
    exact Or.inr (Or.inr ⟨atHand, fewer⟩)

/-- One of the next depths leaves the endless queries alongside a query as they are. -/
theorem exists_endless_stays (types : Declarations) (node : Value) (query : Query) (n : Nat) :
    ∃ i ≤ (nodesAtHand types node).length, ∀ other, Alongside types node query other →
      EndlessAt types (n + i) other → EndlessAt types (n + i + 1) other := by
  classical
  -- the node alone decides, so each node at hand is tested in the slot of the query
  obtain ⟨i, hi, stays⟩ := exists_stays (nodesAtHand types node)
    (fun i u => decide (EndlessAt types (n + i) ⟨query.slot, query.path, u⟩))
    fun i u h => decide_eq_true (EndlessAt.of_succ (of_decide_eq_true h))
  refine ⟨i, hi, fun other h endless => ?_⟩
  obtain ⟨slot, path, u⟩ := other
  obtain ⟨same_path, same, within⟩ := h
  obtain rfl : path = query.path := same_path
  have here : EndlessAt types (n + i) ⟨query.slot, query.path, u⟩ := endless_congr_slot same endless
  have next : EndlessAt types (n + i + 1) ⟨query.slot, query.path, u⟩ :=
    of_decide_eq_true (stays u (mem_nodesAtHand within) (decide_eq_true here))
  exact endless_congr_slot same.symm next

/-- **Settled in time.** Each name ahead of a path costs one depth for each node at hand. -/
theorem settled_of_namesAhead_lt {node : Value} {k : Nat} (hquery : AtHand types node query)
    (ahead : namesAhead types query.path < k) :
    Settled types (1 + k * ((nodesAtHand types node).length + 1)) query := by
  induction k generalizing query with
  | zero => exact absurd ahead (Nat.not_lt_zero _)
  | succ k ih =>
    have bound : 1 + (k + 1) * ((nodesAtHand types node).length + 1) =
        1 + k * ((nodesAtHand types node).length + 1) + ((nodesAtHand types node).length + 1) := by
      rw [Nat.succ_mul, Nat.add_assoc]
    rw [bound]
    -- the longer paths are settled at `N`, and this one at most one depth for each node later
    generalize hN : 1 + k * ((nodesAtHand types node).length + 1) = N at ih
    have hN_pos : 1 ≤ N := by omega
    rcases hquery with within | union
    swap
    · exact (settled_of_union union).mono (by omega)
    obtain ⟨i, hi, stays⟩ := exists_endless_stays types node query N
    have leads (other asked : Query) (h : Alongside types node query other)
        (hasked : Asks types other asked) :
        Alongside types node query asked ∨ Settled types (N + i) asked := by
      rcases h.asks hasked with alongside | union | ⟨atHand, fewer⟩
      · exact Or.inl alongside
      · exact Or.inr ((settled_of_union union).mono (by omega))
      · exact Or.inr ((ih atHand (by omega)).mono (Nat.le_add_right N i))
    have settled : Settled types (N + i) query :=
      settled_of_endless_stays leads stays ⟨rfl, rfl, within⟩
    exact settled.mono (by omega)

theorem namesAhead_le_length (types : Declarations) (path : List Scalar) :
    namesAhead types path ≤ types.length :=
  List.countP_le_length

/-! ### The recursion of `annotate` -/

/-- **The depth bound suffices** for all queries about the documents at hand. -/
theorem settled_depthBound {node : Value} (h : AtHand types node query) :
    Settled types (depthBound types node.weight) query := by
  have ahead : namesAhead types query.path < types.length + 1 :=
    Nat.lt_succ_of_le (namesAhead_le_length types query.path)
  refine (settled_of_namesAhead_lt h ahead).mono ?_
  rw [length_nodesAtHand, depthBound, Nat.add_comm node.weight, Nat.succ_mul (types.length + 1)]
  omega

/-- **The bound decides nothing.** Any greater depth gives the same answer. -/
theorem annotateTo_eq_annotate (h : depthBound types query.node.weight ≤ n) :
    query.answer (annotateTo types n) = query.answer (annotate types) :=
  settled_depthBound (Or.inl (Or.inl (Value.mem_parts_self query.node))) n h

/-- **The recursion of `annotate`.** What is inside an annotation is typed in the same way. -/
theorem annotate_eq_step (types : Declarations) (query : Query) :
    query.answer (annotate types) = query.answer (step types (annotate types)) := by
  -- one more than the bound is a level above the bound
  rw [← annotateTo_eq_annotate (Nat.le_succ _), annotateTo_succ]
  refine step_congr fun asked hasked => ?_
  have settled : Settled types (depthBound types query.node.weight) asked :=
    settled_depthBound ((asks_within hasked).imp_left id)
  rw [← settled _ (Nat.le_max_left _ (depthBound types asked.node.weight))]
  exact annotateTo_eq_annotate (Nat.le_max_right _ _)

theorem annotate_eq_ok {slot : Slot} {path : List Scalar} {node : Value} {t : SchemaType} :
    annotate types slot path node = .ok t ↔
      ∃ o, outline types slot path node = .ok o ∧ o.fill (annotate types) slot = .ok t := by
  have level := annotate_eq_step types ⟨slot, path, node⟩
  simp only [Query.answer] at level
  rw [level, step, bind_eq_ok]

/-- The recursion from a query ends: every chain of asked queries does. -/
def Ends (types : Declarations) (query : Query) : Prop :=
  Acc (fun asked query => Asks types query asked) query

/-- **A recursion that ends fails for no circle** if it meets none on its way. -/
theorem annotate_avoids_circular_of_ends {P : Query → Prop} (h : Ends types query)
    (hquery : P query)
    (closed : ∀ query asked, P query → Asks types query asked → P asked)
    (free : ∀ query f, P query → f.Circular → ¬ Blocked types query.path query.node f) :
    Avoids Fault.Circular (query.answer (annotate types)) := by
  induction h with
  | intro query _ ih =>
    intro f hf circular
    rw [annotate_eq_step] at hf
    rcases asks_of_step_eq_error hf circular with outlined | ⟨asked, hasked, h⟩
    · exact free query f hquery circular (blocked_of_outline_eq_error outlined circular)
    · exact ih asked hasked (closed query asked hquery hasked) f h circular

/-- **A recursion that ends is not endless.** -/
theorem annotate_avoids_endless_of_ends (h : Ends types query) :
    Avoids (· = .endless) (query.answer (annotate types)) := by
  induction h with
  | intro query _ ih =>
    rintro f hf rfl
    rw [annotate_eq_step] at hf
    rcases asks_of_step_eq_error hf Fault.circular_endless with outlined | ⟨asked, hasked, h⟩
    · exact outline_avoids_endless _ _ _ _ _ outlined rfl
    · exact ih asked hasked _ h rfl

end ComponentSpec
