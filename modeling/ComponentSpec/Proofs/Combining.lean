import Mathlib.Data.List.Perm.Basic
import ComponentSpec.Proofs.Reducing
import ComponentSpec.Proofs.Tables

/-!
# Combining libraries

The modules of several libraries are written one after the other into one table. So a combination is
what the entries of all libraries make when they are written in a row (`combine_eq`), and all its
laws are laws of tables: that libraries may be combined in groups is that entries may be put in
order before they are written (`Table.merge_ofPairs`).

Where no two libraries have a module of the same name nothing is overwritten. The combination then
has the entries of all libraries and nothing else, in a row, and a reduction may come before it or
after. With a name in two libraries it may not: a module that a platform empties does not come to
overwrite anything.

* `Library.entriesIn` — the entries that a library writes;
* `Library.combine_eq`, `Library.combine_append` — a combination as entries in a row, and in groups;
* `Library.Apart` — libraries that share no name;
* `combination_laws` — what is combined, and how combinations and reductions go together.
-/

namespace ComponentSpec

open Checked

namespace Library

variable {library : Value} {libraries libraries' xs ys : List Value} {modules : Table Value}
  {tables : List (Table Value)} {p : String}

/-! ### Entries in a row -/

/-- The entries that a library writes into a combination. -/
def entriesIn (library : Value) : Checked (Table Value) :=
  Library.modules library >>= entriesOf

/-- **A combination** is what the entries of its libraries make, written in a row. -/
theorem combine_eq (libraries : List Value) : combine libraries =
    (fun tables => ofModules (Table.ofPairs (List.flatten tables))) <$>
      libraries.mapM entriesIn := by
  -- from any table on: a fold that merges table after table writes their entries in a row
  have merged (t : Table Value) : libraries.foldlM (fun combined library => do
      return combined.merge (← entriesOf (← Library.modules library))) t =
        ((fun tables => t.merge (List.flatten tables)) <$> libraries.mapM entriesIn) := by
    induction libraries generalizing t with
    | nil => rfl
    | cons library libraries ih =>
      rw [List.foldlM_cons, List.mapM_cons, entriesIn]
      cases Library.modules library with
      | error e => rfl
      | ok held =>
        rw [ok_bind, ok_bind]
        cases entriesOf held with
        | error e => rfl
        | ok u =>
          rw [ok_bind, ok_bind, pure_eq, ok_bind, ih]
          cases libraries.mapM entriesIn with
          | error e => rfl
          | ok tables =>
            simp only [map_ok, ok_bind, pure_eq, List.flatten_cons, Table.merge, List.foldl_append]
  rw [combine, merged]
  cases libraries.mapM entriesIn <;> rfl

theorem entriesIn_ofModules (modules : Table Value) :
    entriesIn (ofModules modules) = .ok modules := rfl

/-- **Libraries may be combined in groups.** -/
theorem combine_append (xs ys : List Value) : combine (xs ++ ys) =
    combine xs >>= fun x => combine ys >>= fun y => combine [x, y] := by
  rw [combine_eq, combine_eq xs, combine_eq ys, List.mapM_append]
  cases xs.mapM entriesIn with
  | error e => rfl
  | ok ts =>
    cases ys.mapM entriesIn with
    | error e => rfl
    | ok us =>
      have grouped : Table.ofPairs (ts ++ us).flatten =
          Table.ofPairs (Table.ofPairs ts.flatten ++ Table.ofPairs us.flatten) := by
        have row (t u : Table Value) :
            Table.ofPairs (t ++ u) = (Table.ofPairs t).merge u := List.foldl_append
        have distinct := Table.distinct_ofPairs ts.flatten
        rw [List.flatten_append, row, row, Table.ofPairs_of_distinct distinct,
          Table.merge_ofPairs distinct]
      simp only [map_ok, ok_bind, combine_eq [_, _], List.mapM_cons, List.mapM_nil,
        entriesIn_ofModules, pure_eq, List.flatten_cons, List.flatten_nil, List.append_nil, grouped]

/-! ### Libraries with known modules -/

/-- The modules of a library, which is a document with a table of them. -/
def Holds (library : Value) (modules : Table Value) : Prop := TableAt library "modules" modules

theorem Holds.entriesIn_eq (h : Holds library modules) : entriesIn library = .ok modules := by
  rw [entriesIn, Library.modules, TableAt.entryOr_eq h]
  rfl

theorem combine_of_holds (held : List.Forall₂ Holds libraries tables) :
    combine libraries = .ok (ofModules (Table.ofPairs tables.flatten)) := by
  have entries : libraries.mapM entriesIn = .ok tables :=
    mapM_eq_ok.2 (held.imp fun _ _ h => h.entriesIn_eq)
  rw [combine_eq, entries, map_ok]

theorem forall₂_holds (tables : List (Table Value)) :
    List.Forall₂ Holds (tables.map ofModules) tables :=
  List.forall₂_map_left_iff.2 (List.forall₂_same.2 fun _ _ => .given rfl)

/-- **The last library that has a name** decides what is read under it. -/
theorem find?_flatten (dict : ∀ t ∈ tables, t.Distinct) (name : Scalar) :
    (Table.ofPairs tables.flatten).find? name = tables.reverse.findSome? (·.find? name) := by
  rw [Table.find?_ofPairs]
  induction tables with
  | nil => rfl
  | cons t tables ih =>
    obtain ⟨first, rest⟩ := List.forall_mem_cons.1 dict
    rw [List.flatten_cons, List.reverse_append, Table.find?_append, ih rest, List.reverse_cons,
      List.findSome?_append, ← Table.find?_perm first (List.reverse_perm t).symm]
    simp

/-! ### Libraries that share no name -/

/-- **Tables none of whose keys repeats,** neither in one of them nor in two. -/
structure Apart (tables : List (Table Value)) : Prop where
  distinct : ∀ t ∈ tables, t.Distinct
  disjoint : tables.Pairwise fun t u => ∀ e ∈ t, u.has e.1 = false

theorem Apart.flatten (h : Apart tables) : Table.Distinct tables.flatten := by
  refine List.pairwise_flatten.2 ⟨h.distinct, h.disjoint.imp fun apart e he f hf => ?_⟩
  have absent := List.any_eq_false.1 (apart e he) f hf
  rw [Scalar.same_comm]
  simpa using absent

theorem combine_of_apart (held : List.Forall₂ Holds libraries tables) (apart : Apart tables) :
    combine libraries = .ok (ofModules tables.flatten) := by
  rw [combine_of_holds held, Table.ofPairs_of_distinct apart.flatten]

theorem distinct_selectModules (h : modules.Distinct) (test : Value → Bool) :
    (selectModules test modules).Distinct := by
  refine List.Pairwise.filterMap _ (fun e f apart e' he' f' hf' => ?_) h
  obtain ⟨_, -, rfl⟩ := Option.map_eq_some_iff.1 he'
  obtain ⟨_, -, rfl⟩ := Option.map_eq_some_iff.1 hf'
  exact apart

/-- **A reduction may come first.** -/
theorem reduce_combine (typed : List.Forall₂ WellTyped libraries tables) (apart : Apart tables)
    (named : p ≠ "") :
    (combine libraries >>= fun library => forPlatform library (.str p)) =
        .ok (ofModules (selectModules (keepsOn p) tables.flatten)) ∧
      (libraries.mapM (fun library => forPlatform library (.str p)) >>= combine) =
        .ok (ofModules (selectModules (keepsOn p) tables.flatten)) := by
  constructor
  · have all : WellTyped (ofModules tables.flatten) tables.flatten := by
      refine ⟨.given rfl, fun e he => ?_⟩
      obtain ⟨t, ht, mem⟩ := List.mem_flatten.1 he
      obtain ⟨library, -, whole⟩ := exists_mem_of_forall₂ typed.flip ht
      exact whole.typed e mem
    rw [combine_of_apart (typed.imp fun _ _ h => h.table) apart, ok_bind, all.forPlatform_eq named]
  · have reduced : libraries.mapM (fun library => forPlatform library (.str p)) =
        .ok ((tables.map (selectModules (keepsOn p))).map ofModules) := by
      rw [mapM_eq_ok, List.map_map]
      exact List.forall₂_map_right_iff.2 (typed.imp fun _ _ h => h.forPlatform_eq named)
    -- what is selected of all entries is what is selected of each library
    have selected : (tables.map (selectModules (keepsOn p))).flatten =
        selectModules (keepsOn p) tables.flatten := List.filterMap_flatten.symm
    rw [reduced, ok_bind, combine_of_holds (forall₂_holds _), selected,
      Table.ofPairs_of_distinct (distinct_selectModules apart.flatten _)]

/-- **In another order** the same modules come in another order. -/
theorem combine_perm (held : List.Forall₂ Holds libraries tables) (apart : Apart tables)
    (perm : libraries.Perm libraries') :
    ∃ modules modules', combine libraries = .ok (ofModules modules) ∧
      combine libraries' = .ok (ofModules modules') ∧ modules.Perm modules' := by
  obtain ⟨tables', held', perm'⟩ := List.perm_comp_forall₂ perm.symm held
  have distinct := apart.flatten.of_perm perm'.symm.flatten
  refine ⟨_, _, combine_of_apart held apart, ?_, perm'.symm.flatten⟩
  rw [combine_of_holds held', Table.ofPairs_of_distinct distinct]

/-- **The laws of combinations.** Libraries may be combined in groups. A combination has each name
where it came first, with the module of the last library that has it. Of well-typed libraries that
share no name, the combination can be reduced before or after, and it has the same modules in
whatever order the libraries are taken. -/
theorem combination_laws :
    (∀ xs ys, combine (xs ++ ys) =
      combine xs >>= fun x => combine ys >>= fun y => combine [x, y]) ∧
    (∀ libraries tables, List.Forall₂ Holds libraries tables → (∀ t ∈ tables, t.Distinct) →
      ∃ modules, combine libraries = .ok (ofModules modules) ∧
        modules.keys = (tables.flatMap Table.keys).eraseDupsBy Scalar.same ∧
        ∀ name, modules.find? name = tables.reverse.findSome? (·.find? name)) ∧
    (∀ libraries tables, List.Forall₂ WellTyped libraries tables → Apart tables →
      (∀ p, p ≠ "" → ∃ reduced,
        (combine libraries >>= fun library => forPlatform library (.str p)) = .ok reduced ∧
        (libraries.mapM (fun library => forPlatform library (.str p)) >>= combine) =
          .ok reduced) ∧
      ∀ libraries', libraries.Perm libraries' →
        ∃ modules modules', combine libraries = .ok (ofModules modules) ∧
          combine libraries' = .ok (ofModules modules') ∧ modules.Perm modules') := by
  refine ⟨combine_append, ?_, ?_⟩
  · intro libraries tables held dict
    refine ⟨_, combine_of_holds held, ?_, find?_flatten dict⟩
    rw [Table.keys_ofPairs, Table.keys, List.map_flatten, List.flatMap_def]
    rfl
  · intro libraries tables typed apart
    constructor
    · intro p named
      exact ⟨_, reduce_combine typed apart named⟩
    · intro libraries' perm
      exact combine_perm (typed.imp fun _ _ h => h.table) apart perm

end Library

namespace Sample

/-- The modules of a catalog, in two tables. -/
def catalogHalves : List (Table Value) := [catalogModules.take 1, catalogModules.drop 1]

/-- A table that has one of their names again. -/
def mixedAgain : Table Value := [("Mixed", moduleOf [])]

open Library

theorem wellTyped_catalogHalves :
    List.Forall₂ WellTyped (catalogHalves.map ofModules) catalogHalves := by
  refine List.forall₂_map_left_iff.2 (List.forall₂_same.2 fun t ht => ⟨.given rfl, fun e he => ?_⟩)
  refine wellTyped_catalog.typed e ?_
  simp only [catalogHalves, List.mem_cons, List.not_mem_nil, or_false] at ht
  rcases ht with rfl | rfl
  · exact List.mem_of_mem_take he
  · exact List.mem_of_mem_drop he

theorem apart_catalogHalves : Apart catalogHalves := by
  constructor
  · simp [catalogHalves, catalogModules, Table.Distinct]
  · simp [catalogHalves, catalogModules]

end Sample

open Sample Library in
/-- The halves of a catalog, with a module that is written again, and reduced to a platform. -/
theorem combination_laws_catalog :
    (∃ modules, combine ((catalogHalves ++ [mixedAgain]).map ofModules) = .ok (ofModules modules) ∧
      modules.keys = ["Mixed", "Plain", "Empty", "Sensors"] ∧
      modules.find? "Mixed" = some (moduleOf [])) ∧
    (∃ reduced,
      (combine (catalogHalves.map ofModules) >>= fun l => forPlatform l "ios") = .ok reduced ∧
      ((catalogHalves.map ofModules).mapM (fun l => forPlatform l "ios") >>= combine) =
        .ok reduced) ∧
    ∃ modules modules', combine (catalogHalves.map ofModules) = .ok (ofModules modules) ∧
      combine (catalogHalves.map ofModules).reverse = .ok (ofModules modules') ∧
      modules.Perm modules' := by
  obtain ⟨-, gathers, reduces⟩ := combination_laws
  obtain ⟨reduced, permuted⟩ := reduces _ _ wellTyped_catalogHalves apart_catalogHalves
  refine ⟨?_, reduced "ios" (by decide), permuted _ (List.reverse_perm _).symm⟩
  obtain ⟨modules, given, keys, read⟩ :=
    gathers _ _ (forall₂_holds (catalogHalves ++ [mixedAgain]))
      (by simp [catalogHalves, catalogModules, mixedAgain, Table.Distinct])
  exact ⟨modules, given, keys.trans (by decide +kernel), (read "Mixed").trans rfl⟩

end ComponentSpec
