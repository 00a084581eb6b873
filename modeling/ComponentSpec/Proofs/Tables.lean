import Mathlib.Data.List.Basic
import Mathlib.Data.List.Induction
import ComponentSpec.Value

/-!
# What a table reads

A table is written entry by entry and read by key, so of two entries with the same key the later one
is read (`Table.find?_merge`). Where no two entries have the same key nothing is overwritten, and
their order is not read either (`Table.find?_perm`).

* `Table.Distinct` — no two entries have the same key;
* `Table.find?_merge`, `Table.find?_ofPairs` — the last entry of a key is read;
* `Table.find?_eq_some_of_mem`, `Table.find?_perm` — without repeated keys every entry is read, in
  whatever order;
* `Table.distinct_ofPairs`, `Table.keys_ofPairs_text`, `Table.forall_mem_ofPairs_iff` — a table that
  is written in order repeats no key, has its keys where they came first, and holds their last
  entries;
* `Table.keys_merge`, `Table.keys_ofPairs` — how keys stand when one table is written over another;
* `Table.ext`, `Table.merge_ofPairs` — keys and what is read make up a table without repeated keys,
  so it does not matter whether entries are put in order before they are written.
-/

namespace ComponentSpec.Table

variable {α : Type} {t u : Table α} {k : Scalar} {v : α}

theorem exists_mem_of_find? (h : t.find? k = some v) : ∃ k', (k', v) ∈ t ∧ k'.same k := by
  obtain ⟨e, found, rfl⟩ := Option.map_eq_some_iff.1 h
  have same := List.find?_some found
  exact ⟨e.1, List.mem_of_find?_eq_some found, same⟩

theorem find?_append (t u : Table α) (k : Scalar) :
    find? (t ++ u) k = (t.find? k).or (u.find? k) := by
  unfold find?
  rw [List.find?_append, Option.map_or]

/-- **The last entry of a key is read,** or what the table held before. -/
theorem find?_merge (t u : Table α) (k : Scalar) :
    (t.merge u).find? k = (find? u.reverse k).or (t.find? k) := by
  induction u generalizing t with
  | nil => rfl
  | cons e u ih =>
    obtain ⟨k', v⟩ := e
    have first : merge t ((k', v) :: u) = merge (t.set k' v) u := rfl
    -- the first entry is read after all later ones, and before what the table held
    rw [first, ih, find?_set, List.reverse_cons, find?_append, Option.or_assoc, find?_cons]
    cases k'.same k <;> rfl

theorem find?_ofPairs (u : Table α) (k : Scalar) : (ofPairs u).find? k = find? u.reverse k := by
  rw [ofPairs, find?_merge, find?_nil, Option.or_none]

theorem exists_mem_of_find?_ofPairs {u : Table α} (h : (ofPairs u).find? k = some v) :
    ∃ k', (k', v) ∈ u ∧ k'.same k := by
  rw [find?_ofPairs] at h
  obtain ⟨k', mem, same⟩ := exists_mem_of_find? h
  exact ⟨k', List.mem_reverse.1 mem, same⟩

/-- An entry does not change what is read under another key. -/
theorem find?_ofPairs_insert (t u : Table α) {k k' : Scalar} (v : α) (other : k.same k' = false) :
    (ofPairs (t ++ (k, v) :: u)).find? k' = (ofPairs (t ++ u)).find? k' := by
  have skipped : find? [(k, v)] k' = none := by
    rw [find?_cons, other, find?_nil]
    rfl
  rw [find?_ofPairs, find?_ofPairs, List.reverse_append, List.reverse_append, List.reverse_cons,
    find?_append, find?_append, find?_append, skipped, Option.or_none]

/-- An entry is read under its own key, unless a later one has the key too. -/
theorem find?_ofPairs_self (t u : Table α) (k : Scalar) (v : α) :
    (ofPairs (t ++ (k, v) :: u)).find? k = ((ofPairs u).find? k).or (some v) := by
  rw [find?_ofPairs, find?_ofPairs, List.reverse_append, List.reverse_cons, List.append_assoc,
    find?_append, List.singleton_append, find?_cons, Scalar.same_refl]
  rfl

/-- Writing an entry adds none but that with the value written. -/
theorem mem_set {k : Scalar} {v : α} {e : Scalar × α} (h : e ∈ t.set k v) : e ∈ t ∨ e.2 = v := by
  induction t with
  | nil => exact Or.inr (by rw [List.mem_singleton.1 h])
  | cons e' t ih =>
    rw [set] at h
    split at h
    · rcases List.mem_cons.1 h with rfl | h
      · exact Or.inr rfl
      · exact Or.inl (List.mem_cons_of_mem _ h)
    · rcases List.mem_cons.1 h with rfl | h
      · exact Or.inl List.mem_cons_self
      · exact (ih h).imp_left (List.mem_cons_of_mem _)

/-! ### Tables without repeated keys -/

/-- **No two entries have the same key.** -/
def Distinct (t : Table α) : Prop := t.Pairwise fun e f => e.1.same f.1 = false

theorem Distinct.of_perm (h : t.Distinct) (perm : t.Perm u) : u.Distinct := by
  refine List.Pairwise.perm h perm fun {e f} apart => ?_
  rwa [Scalar.same_comm]

theorem find?_eq_some_of_mem (h : t.Distinct) {k' : Scalar} (mem : (k', v) ∈ t)
    (same : k'.same k) : t.find? k = some v := by
  induction t with
  | nil => cases mem
  | cons e t ih =>
    obtain ⟨k₀, v₀⟩ := e
    obtain ⟨apart, rest⟩ := List.pairwise_cons.1 h
    rw [find?_cons]
    rcases List.mem_cons.1 mem with here | later
    · cases here
      rw [if_pos same]
    -- an entry in front with the same key would repeat it
    · have other : k₀.same k = false := by
        have ne := apart _ later
        rw [Scalar.same_comm, Scalar.same_congr same, Scalar.same_comm] at ne
        exact ne
      rw [if_neg (by simp [other])]
      exact ih rest later

/-- **The order is not read** where no key repeats. -/
theorem find?_perm (h : t.Distinct) (perm : t.Perm u) (k : Scalar) : t.find? k = u.find? k := by
  cases found : t.find? k with
  | some v =>
    obtain ⟨k', mem, same⟩ := exists_mem_of_find? found
    exact (find?_eq_some_of_mem (h.of_perm perm) (perm.mem_iff.1 mem) same).symm
  | none =>
    symm
    by_contra other
    obtain ⟨v, found'⟩ := Option.ne_none_iff_exists'.1 other
    obtain ⟨k', mem, same⟩ := exists_mem_of_find? found'
    rw [find?_eq_some_of_mem h (perm.mem_iff.2 mem) same] at found
    cases found

/-! ### Tables as they are written -/

theorem ofPairs_append (u : Table α) (k : Scalar) (v : α) :
    ofPairs (u ++ [(k, v)]) = (ofPairs u).set k v := by
  rw [ofPairs, merge, List.foldl_append]
  rfl

/-- A key that is new comes last; a key that is there keeps its place. -/
theorem keys_set (t : Table α) (k : Scalar) (v : α) :
    (t.set k v).keys = if t.has k then t.keys else t.keys ++ [k] := by
  induction t with
  | nil => rfl
  | cons e t ih =>
    obtain ⟨k', v'⟩ := e
    rw [set, has_cons]
    cases same : k'.same k with
    | true => rfl
    | false =>
      have rest : keys ((k', v') :: set t k v) = k' :: keys (set t k v) := rfl
      simp only [Bool.false_eq_true, if_false, Bool.false_or, rest, ih]
      split <;> rfl

theorem distinct_iff : t.Distinct ↔ t.keys.Pairwise fun k k' => k.same k' = false := by
  rw [Distinct, keys, List.pairwise_map]

theorem has_eq_any (t : Table α) (k : Scalar) : t.has k = t.keys.any fun k' => k'.same k := by
  rw [has, keys, List.any_map]
  rfl

/-- Writing an entry repeats no key. -/
theorem Distinct.set (h : t.Distinct) (k : Scalar) (v : α) : (t.set k v).Distinct := by
  rw [distinct_iff] at h ⊢
  rw [keys_set]
  split
  · exact h
  · next absent =>
    rw [Bool.not_eq_true, has_eq_any, List.any_eq_false] at absent
    refine List.pairwise_append.2 ⟨h, List.pairwise_singleton _ _, ?_⟩
    intro k' hk' k'' hk''
    rw [List.mem_singleton.1 hk'']
    simpa using absent k' hk'

theorem Distinct.merge (h : t.Distinct) (u : Table α) : (t.merge u).Distinct := by
  induction u generalizing t with
  | nil => exact h
  | cons e u ih => exact ih (h.set e.1 e.2)

theorem distinct_ofPairs (u : Table α) : (ofPairs u).Distinct :=
  Distinct.merge List.Pairwise.nil u

theorem set_of_not_has (v : α) (absent : t.has k = false) :
    t.set k v = t ++ [(k, v)] := by
  induction t with
  | nil => rfl
  | cons e t ih =>
    rw [has_cons, Bool.or_eq_false_iff] at absent
    rw [set, absent.1, ih absent.2]
    rfl

/-- A table that repeats no key is itself when it is written in order. -/
theorem ofPairs_of_distinct (h : u.Distinct) : ofPairs u = u := by
  induction u using List.reverseRecOn with
  | nil => rfl
  | append_singleton u e ih =>
    obtain ⟨before, -, apart⟩ := List.pairwise_append.1 h
    rw [ofPairs_append, ih before]
    refine set_of_not_has e.2 ?_
    rw [has, List.any_eq_false]
    intro e' he'
    simpa using apart e' he' e (List.mem_singleton_self e)

theorem has_ofPairs (u : Table α) (k : Scalar) : (ofPairs u).has k = u.has k := by
  rw [← isSome_find?, find?_ofPairs, isSome_find?, has, has, List.any_reverse]

/-- **The keys of a table that is written in order** are those of its entries, where each came
first. -/
theorem keys_ofPairs_text (u : List (String × α)) :
    (ofPairs (u.map fun e => (.str e.1, e.2))).keys = (u.map Prod.fst).eraseDups.map .str := by
  induction u using List.reverseRecOn with
  | nil => rfl
  | append_singleton u e ih =>
    obtain ⟨name, v⟩ := e
    have known : (ofPairs (u.map fun e => (Scalar.str e.1, e.2))).has (.str name) =
        decide (name ∈ u.map Prod.fst) := by
      rw [has_ofPairs, has, List.any_map, Bool.eq_iff_iff, List.any_eq_true, decide_eq_true_iff,
        List.mem_map]
      exact exists_congr fun e => and_congr_right fun _ => by simp
    rw [List.map_append, List.map_singleton, ofPairs_append, keys_set, ih, known, List.map_append,
      List.map_singleton, List.eraseDups_append]
    by_cases repeated : name ∈ u.map Prod.fst
    · simp [repeated, List.removeAll]
    · simp [repeated, List.removeAll, List.eraseDups_cons]

/-- Entries that repeat no key are read under their keys, whatever they are written over. -/
theorem find?_merge_of_distinct (t : Table α) (h : u.Distinct) (k : Scalar) :
    (t.merge u).find? k = (find? u k).or (t.find? k) := by
  rw [find?_merge, find?_perm h (List.reverse_perm u).symm]

/-- An entry is read unless a later one has its key. -/
theorem find?_ofPairs_last (before : Table α) (k : Scalar) (v : α) {after : Table α}
    (last : has after k = false) : (ofPairs (before ++ (k, v) :: after)).find? k = some v := by
  have unwritten : (ofPairs after).find? k = none := find?_eq_none (by rw [has_ofPairs, last])
  rw [find?_ofPairs_self, unwritten, Option.none_or]

theorem exists_last_of_find?_ofPairs (h : (ofPairs u).find? k = some v) :
    ∃ before k' after, u = before ++ (k', v) :: after ∧ k'.same k ∧ has after k = false := by
  rw [find?_ofPairs] at h
  obtain ⟨⟨k', v'⟩, found, rfl⟩ := Option.map_eq_some_iff.1 h
  obtain ⟨same, after, before, split, others⟩ := List.find?_eq_some_iff_append.1 found
  refine ⟨before.reverse, k', after.reverse, ?_, same, ?_⟩
  · rw [← List.reverse_reverse u, split]
    simp
  · rw [has, List.any_reverse, List.any_eq_false]
    intro e he
    simpa using others e he

/-- **What a table holds that is written in order:** the last entry of every key. -/
theorem forall_mem_ofPairs_iff {P : α → Prop} : (∀ e ∈ ofPairs u, P e.2) ↔
    ∀ before k v after, u = before ++ (k, v) :: after → has after k = false → P v := by
  constructor
  · rintro all before k v after rfl last
    obtain ⟨k', mem, -⟩ := exists_mem_of_find? (find?_ofPairs_last before k v last)
    exact all _ mem
  · intro lasts e he
    have found := find?_eq_some_of_mem (distinct_ofPairs u) he (Scalar.same_refl e.1)
    obtain ⟨before, k', after, split, same, last⟩ := exists_last_of_find?_ofPairs found
    refine lasts before k' e.2 after split ?_
    rw [has_congr same, last]

/-! ### Writing one table over another -/

/-- Keys that are the same are kept or left out together, before repetitions are left out or
after. -/
theorem eraseDupsBy_filter {p : Scalar → Bool} (alike : ∀ k k', k.same k' → p k = p k')
    (ks : List Scalar) :
    (ks.filter p).eraseDupsBy Scalar.same = (ks.eraseDupsBy Scalar.same).filter p := by
  match ks with
  | [] => rfl
  | k :: ks =>
    have rest := eraseDupsBy_filter alike (ks.filter fun k' => decide (k'.same k = false))
    rw [List.eraseDupsBy_cons]
    by_cases kept : p k
    · rw [List.filter_cons_of_pos kept, List.filter_cons_of_pos kept, List.eraseDupsBy_cons, ← rest,
        List.filter_comm]
    · rw [List.filter_cons_of_neg kept, List.filter_cons_of_neg kept, ← rest, List.filter_filter]
      -- a key that is kept is not the same as one that is left out
      refine congrArg _ (List.filter_congr fun k' _ => ?_)
      cases here : p k' with
      | false => rfl
      | true =>
        have other : k'.same k = false := by
          by_contra same
          exact kept (alike k' k (by simpa using same) ▸ here)
        simp [other]
  termination_by ks.length
  decreasing_by
    have := List.length_filter_le (fun k' => decide (k'.same k = false)) ks
    simp only [List.length_cons]
    omega

/-- **The keys of a table written over another:** those that were there, and then the new ones, each
where it first came. -/
theorem keys_merge (t u : Table α) : (t.merge u).keys =
    t.keys ++ (u.keys.eraseDupsBy Scalar.same).filter fun k => !t.has k := by
  induction u generalizing t with
  | nil => exact (List.append_nil _).symm
  | cons e u ih =>
    obtain ⟨k, v⟩ := e
    have first : merge t ((k, v) :: u) = merge (t.set k v) u := rfl
    have head : keys ((k, v) :: u) = k :: keys u := rfl
    have others : ((keys u).filter fun k' => decide (k'.same k = false)).eraseDupsBy Scalar.same =
        ((keys u).eraseDupsBy Scalar.same).filter fun k' => !k.same k' := by
      have turned : (fun k' : Scalar => decide (k'.same k = false)) = fun k' => !k.same k' := by
        funext k'
        rw [Scalar.same_comm]
        cases k.same k' <;> rfl
      rw [turned]
      refine eraseDupsBy_filter (fun a b same => ?_) _
      rw [Scalar.same_comm k a, Scalar.same_congr same k, Scalar.same_comm b k]
    have known (k' : Scalar) : (!(t.set k v).has k') = (!k.same k' && !t.has k') := by
      rw [has_set, Bool.not_or]
    rw [first, ih, keys_set, head, List.eraseDupsBy_cons, others, List.filter_cons,
      List.filter_filter]
    simp only [known]
    by_cases there : t.has k
    -- a key that was there is not new, and neither is one that is the same
    · have absorbed (k' : Scalar) : (!k.same k' && !t.has k') = (!t.has k' && !k.same k') :=
        Bool.and_comm _ _
      simp [there, absorbed]
    · simp [there, Bool.and_comm]

theorem keys_ofPairs (u : Table α) : (ofPairs u).keys = u.keys.eraseDupsBy Scalar.same := by
  rw [ofPairs, keys_merge]
  exact List.filter_eq_self.2 fun _ _ => rfl

/-- A table without repeated keys is told by its keys and by what they are read as. -/
theorem Distinct.eq_filterMap (h : t.Distinct) :
    t.keys.filterMap (fun k => (t.find? k).map (k, ·)) = t := by
  rw [keys, List.filterMap_map]
  calc t.filterMap ((fun k => (t.find? k).map (k, ·)) ∘ Prod.fst)
      = t.filterMap some := List.filterMap_congr fun e he => by
        rw [Function.comp, find?_eq_some_of_mem h he (Scalar.same_refl e.1), Option.map_some]
    _ = t := List.filterMap_some

/-- **Keys and what is read** make up a table that repeats no key. -/
theorem ext (ht : t.Distinct) (hu : u.Distinct) (keys : t.keys = u.keys)
    (read : ∀ k, t.find? k = u.find? k) : t = u := by
  rw [← ht.eq_filterMap, ← hu.eq_filterMap, keys]
  simp only [read]

/-- **Entries that are put in order first** are written to the same effect. -/
theorem merge_ofPairs (ht : t.Distinct) (u : Table α) : t.merge (ofPairs u) = t.merge u := by
  refine ext (ht.merge _) (ht.merge _) ?_ fun k => ?_
  · have once : (ofPairs u).keys.eraseDupsBy Scalar.same = u.keys.eraseDupsBy Scalar.same := by
      rw [← keys_ofPairs, ofPairs_of_distinct (distinct_ofPairs u), keys_ofPairs]
    rw [keys_merge, keys_merge, once]
  · rw [find?_merge_of_distinct t (distinct_ofPairs u), find?_merge, find?_ofPairs]

end ComponentSpec.Table
