import Mathlib.Logic.Relation
import ComponentSpec.Proofs.Enclosing
import ComponentSpec.Proofs.Sample
import ComponentSpec.Proofs.Tables

/-!
# Chains of aliases

An annotation that is wrapped leads to what is inside, and a reference to a local alias to the
annotation of the alias. Following aliases goes along this chain. A round takes all layers off and
follows one reference, and it stops where there is none or where the alias was followed before. So
each round but the last follows an alias of its own, and there are no more rounds than there are
aliases, and one (`resolveIn_eq_some`).

Where the chain ends at something other than an alias, the end does not depend on where in the chain
one begins: fewer names have been followed before, which refuses nothing (`LeadsTo.resolveAlias`).
In a circle it does, since the chain is left at the alias through which it was entered.

* `resolveIn` — following aliases for a number of rounds;
* `aliasCount`, `aliasesAhead` — the aliases of a table, and those that were not followed yet;
* `ReferencesNamed`, `NamedByTexts` — references that can be looked up, and tables keyed by texts;
* `LeadsTo` — one step along a chain;
* `resolveAlias_reaches_end` — what is found at the end of a chain.
-/

namespace ComponentSpec

open Checked

variable {types : Declarations} {followed names : List Scalar} {name : Scalar}
  {node inner next declaration : Value}

/-! ### Rounds -/

/-- The number of aliases that are declared. -/
def aliasCount (types : Declarations) : Nat :=
  types.countP fun e => e.2.hasTag "TSTypeAliasDeclaration"

/-- The number of declared aliases that were not followed yet. -/
def aliasesAhead (types : Declarations) (followed : List Scalar) : Nat :=
  types.countP fun e => e.2.hasTag "TSTypeAliasDeclaration" && !onPath followed e.1

/-- **Following aliases for a number of rounds;** nothing if they do not stop within it. -/
def resolveIn (types : Declarations) :
    Nat → List Scalar → Value → Option (Checked (Value × List Scalar))
  | 0, _, _ => none
  | rounds + 1, followed, node =>
    match aliasOf types node.withoutReadonly with
    | .error f => some (.error f)
    | .ok none => some (.ok (node.withoutReadonly, followed))
    | .ok (some (name, declaration)) =>
      if onPath followed name then some (.ok (node.withoutReadonly, followed))
      else resolveIn types rounds (followed ++ [name]) (declaration.get "typeAnnotation")

theorem aliasesAhead_nil (types : Declarations) : aliasesAhead types [] = aliasCount types := by
  simp [aliasesAhead, aliasCount, onPath]

/-- A round that follows an alias leaves fewer of them. -/
theorem aliasesAhead_append_lt (refers : RefersToAlias types node name declaration)
    (fresh : onPath followed name = false) :
    aliasesAhead types (followed ++ [name]) < aliasesAhead types followed := by
  obtain ⟨key, mem, same⟩ := Table.exists_mem_of_find? refers.found
  have here : onPath followed key = false := by
    rw [← fresh]
    exact onPath_congr same followed
  have gone : onPath (followed ++ [name]) key := by
    simp [onPath, Scalar.same_symm same]
  refine countP_lt_of_mem (fun e he => ?_) mem ?_ ?_
  · simp only [onPath, List.any_append, Bool.not_or, Bool.and_eq_true] at he ⊢
    exact ⟨he.1, he.2.1⟩
  · simp [refers.isAlias, here]
  · simp [gone]

/-- **Following aliases stops** within one round more than there are aliases ahead. -/
theorem resolveIn_eq_some {rounds : Nat} (enough : aliasesAhead types followed < rounds)
    (node : Value) :
    resolveIn types rounds followed node = some (resolveAliasFrom types followed node) := by
  induction rounds generalizing followed node with
  | zero => exact absurd enough (Nat.not_lt_zero _)
  | succ rounds ih =>
    rw [resolveIn, resolveAliasFrom_eq]
    cases target : aliasOf types node.withoutReadonly with
    | error f => rfl
    | ok target' =>
      match target' with
      | none => rfl
      | some (name, declaration) =>
        rw [ok_bind]
        dsimp only
        split
        · rfl
        · next fresh =>
          have fewer := aliasesAhead_append_lt (aliasOf_eq_some.1 target) (by simpa using fresh)
          exact ih (by omega) _

/-! ### Names -/

/-- **Every reference in a document has a name that can be looked up.** -/
def ReferencesNamed (v : Value) : Prop :=
  ∀ part ∈ v.parts, part.hasTag "TSTypeReference" → ∃ name, part.referenceName = .scalar name

instance (v : Value) : Decidable (ReferencesNamed v) :=
  decidable_of_iff
    (∀ part ∈ v.parts, part.hasTag "TSTypeReference" → part.referenceName.scalar?.isSome)
    (forall₃_congr fun part _ _ => by cases part.referenceName <;> simp [Value.scalar?])

theorem ReferencesNamed.part (h : ReferencesNamed node) (part : inner ∈ node.parts) :
    ReferencesNamed inner :=
  fun _ inside => h _ (Value.mem_parts_trans inside node part)

/-- **A table whose names are texts,** none of them empty, and in which every reference has a
name. -/
structure NamedByTexts (types : Declarations) : Prop where
  texts : ∀ e ∈ types, ∃ text, text ≠ "" ∧ e.1 = .str text
  references : ∀ e ∈ types, ReferencesNamed e.2

/-- **A local alias.** -/
def IsAlias (types : Declarations) (name : Scalar) : Prop :=
  ∃ declaration, types.find? name = some declaration ∧
    declaration.hasTag "TSTypeAliasDeclaration"

/-- **A reference to the local alias of a name.** -/
structure NamesAlias (types : Declarations) (node : Value) (name : Scalar) : Prop where
  tag : node.hasTag "TSTypeReference"
  named : node.referenceName = .scalar name
  isAlias : IsAlias types name

namespace NamedByTexts

/-- Only texts are declared. -/
theorem eq_str (h : NamedByTexts types) (declared : types.has name) :
    ∃ text, text ≠ "" ∧ name = .str text := by
  obtain ⟨e, mem, same⟩ := List.any_eq_true.1 declared
  obtain ⟨text, nonempty, key⟩ := h.texts e mem
  rw [key] at same
  exact ⟨text, nonempty, Scalar.eq_str_of_same same⟩

/-- Every reference to an alias is followed. -/
theorem refersToAlias (h : NamedByTexts types) (names : NamesAlias types node name) :
    ∃ declaration, RefersToAlias types node name declaration := by
  obtain ⟨tag, named, declaration, found, isAlias⟩ := names
  obtain ⟨text, nonempty, rfl⟩ := h.eq_str (Table.has_of_find? found)
  exact ⟨declaration, tag, named, by simp [Scalar.truthy, nonempty], found, isAlias⟩

/-- A declared name that is on a path of declared names is one of them. -/
theorem mem_of_onPath (h : NamedByTexts types) (declared : ∀ s ∈ names, types.has s)
    (on : onPath names name) : name ∈ names := by
  obtain ⟨s, mem, same⟩ := List.any_eq_true.1 on
  obtain ⟨text, -, rfl⟩ := h.eq_str (declared s mem)
  rwa [Scalar.eq_str_of_same same]

end NamedByTexts

theorem exists_aliasOf (types : Declarations) (named : ReferencesNamed node) :
    ∃ target, aliasOf types node = .ok target := by
  cases tag : node.hasTag "TSTypeReference" with
  | false => exact ⟨none, aliasOf_of_not_reference tag⟩
  | true =>
    obtain ⟨name, hname⟩ := named node (Value.mem_parts_self node) tag
    simp only [aliasOf, tag, if_true, hname]
    split
    · exact ⟨none, rfl⟩
    · exact ⟨_, rfl⟩

/-- **Where all references have names, aliases can be followed.** -/
theorem exists_resolveAliasFrom (h : NamedByTexts types) (named : ReferencesNamed node)
    (followed : List Scalar) :
    ∃ inner names, resolveAliasFrom types followed node = .ok (inner, names) := by
  induction followed, node using resolveAliasFrom.induct types with
  | case1 followed node inner f failed =>
    obtain ⟨target, given⟩ := exists_aliasOf types
      (named.part (Value.withoutReadonly_mem_parts node))
    cases given.symm.trans failed
  | case2 followed node inner none =>
    rw [resolveAliasFrom_eq, none]
    exact ⟨_, _, rfl⟩
  | case3 followed node inner name declaration here back =>
    rw [resolveAliasFrom_eq, here, ok_bind]
    simp [back]
  | case4 followed node inner name declaration here fresh ih =>
    rw [resolveAliasFrom_eq, here, ok_bind]
    simp only [fresh]
    have refers := aliasOf_eq_some.1 here
    obtain ⟨key, mem, -⟩ := Table.exists_mem_of_find? refers.found
    exact ih ((h.references _ mem).part (Value.get_tag_mem_parts refers.isAlias _))

/-- What names no alias refers to none. -/
theorem aliasOf_of_names_none (named : ReferencesNamed node)
    (ends : ∀ name, ¬ NamesAlias types node name) : aliasOf types node = .ok none := by
  obtain ⟨target, given⟩ := exists_aliasOf types named
  match target with
  | none => exact given
  | some (name, declaration) =>
    have refers := aliasOf_eq_some.1 given
    exact absurd ⟨refers.tag, refers.named, declaration, refers.found, refers.isAlias⟩ (ends name)

theorem Resolves.referencesNamed (h : Resolves types followed node inner names)
    (texts : NamedByTexts types) (named : ReferencesNamed node) : ReferencesNamed inner := by
  rcases h.mem_parts with part | ⟨s, d, found, part⟩
  · exact named.part part
  · obtain ⟨key, mem, -⟩ := Table.exists_mem_of_find? found
    exact (texts.references _ mem).part part

/-! ### The names that are followed -/

/-- No name is followed twice. -/
theorem Resolves.pairwise (h : Resolves types followed node inner names) :
    names.Pairwise fun s s' => s.same s' = false := by
  induction h with
  | here => exact .nil
  | @follow followed names _ _ _ name _ _ behind ih =>
    refine List.pairwise_cons.2 ⟨fun s hs => ?_, ih⟩
    have fresh := behind.fresh s hs
    simp only [onPath, List.any_append, Bool.or_eq_false_iff] at fresh
    simpa using fresh.2

theorem Resolves.isAlias (h : Resolves types followed node inner names) :
    ∀ s ∈ names, IsAlias types s := by
  induction h with
  | here => exact nofun
  | follow refers _ _ ih =>
    exact List.forall_mem_cons.2 ⟨⟨_, refers.found, refers.isAlias⟩, ih⟩

/-! ### Along the chain -/

/-- **One step along a chain of aliases:** into a layer, or from a reference to an alias to the
annotation of the alias. -/
inductive LeadsTo (types : Declarations) : Value → Value → Prop where
  | layer {node inner : Value} (wraps : Wraps node inner) : LeadsTo types node inner
  | reference {node declaration : Value} {name : Scalar} (bare : ∀ i, ¬ Wraps node i)
      (refers : RefersToAlias types node name declaration) :
      LeadsTo types node (declaration.get "typeAnnotation")

/-- **The end stays the same** a step further along the chain, with perhaps one name fewer. -/
theorem LeadsTo.resolveAlias (leads : LeadsTo types node next)
    (h : resolveAlias types node = .ok (inner, names)) (stop : aliasOf types inner = .ok none) :
    ∃ names', names' <:+ names ∧ resolveAlias types next = .ok (inner, names') := by
  cases leads with
  | layer wraps =>
    rw [resolveAlias_of_wraps wraps] at h
    exact ⟨names, List.suffix_rfl, h⟩
  | @reference declaration name bare refers =>
    cases resolves_of_resolveAlias h with
    | here stop' =>
      have back := stop' name declaration ((withoutReadonly_of_bare bare).symm ▸ refers)
      simp [onPath] at back
    | @follow _ names' _ _ declaration' name' refers' fresh behind =>
      rw [withoutReadonly_of_bare bare] at refers'
      cases refers.named.symm.trans refers'.named
      cases refers.found.symm.trans refers'.found
      -- behind the alias its name is not on the path, and nothing more is refused without it
      exact ⟨names', List.suffix_cons _ _, behind.resolveAliasFrom_eq_ok stop (by simp [onPath])⟩

theorem resolveAlias_of_chain (chain : Relation.ReflTransGen (LeadsTo types) node next)
    (h : resolveAlias types node = .ok (inner, names)) (stop : aliasOf types inner = .ok none) :
    ∃ names', names' <:+ names ∧ resolveAlias types next = .ok (inner, names') := by
  induction chain with
  | refl => exact ⟨names, List.suffix_rfl, h⟩
  | tail _ leads ih =>
    obtain ⟨names', shorter, resolved⟩ := ih
    obtain ⟨names'', shorter', resolved'⟩ := leads.resolveAlias resolved stop
    exact ⟨names'', shorter'.trans shorter, resolved'⟩

/-- **What is found at the end of a chain of aliases.** Following aliases stops within one round
more than there are aliases. Where names are texts it gives an annotation that no layer is around,
and the aliases that were followed, each once. The annotation refers to a local alias only if that
is one of them. If it refers to none, following aliases from it on changes nothing, and following
them from any annotation of the chain ends at it. -/
theorem resolveAlias_reaches_end (types : Declarations) (node : Value) :
    resolveIn types (aliasCount types + 1) [] node = some (resolveAlias types node) ∧
    (NamedByTexts types → ReferencesNamed node →
      ∃ inner names, resolveAlias types node = .ok (inner, names) ∧
        names.Nodup ∧ (∀ name ∈ names, IsAlias types name) ∧
        inner.withoutReadonly = inner ∧ (∀ name, NamesAlias types inner name → name ∈ names) ∧
        ((∀ name, ¬ NamesAlias types inner name) →
          resolveAlias types inner = .ok (inner, []) ∧
          ∀ next, Relation.ReflTransGen (LeadsTo types) node next →
            ∃ names', names' <:+ names ∧ resolveAlias types next = .ok (inner, names'))) := by
  constructor
  · refine resolveIn_eq_some ?_ node
    rw [aliasesAhead_nil]
    exact Nat.lt_succ_self _
  · intro texts named
    obtain ⟨inner, names, resolved⟩ := exists_resolveAliasFrom texts named []
    have resolves := resolves_of_resolveAlias resolved
    refine ⟨inner, names, resolved, ?_, resolves.isAlias, withoutReadonly_of_bare resolves.bare,
      ?_, ?_⟩
    · refine resolves.pairwise.imp fun apart same => ?_
      rw [same, Scalar.same_refl] at apart
      cases apart
    · intro name leads
      obtain ⟨declaration, refers⟩ := texts.refersToAlias leads
      exact texts.mem_of_onPath resolves.declared (resolves.onPath_of_refersToAlias refers)
    · intro ends
      have stop := aliasOf_of_names_none (resolves.referencesNamed texts named) ends
      exact ⟨resolveAlias_of_bare resolves.bare stop,
        fun next chain => resolveAlias_of_chain chain resolved stop⟩

namespace Sample

/-- A length that is an extent behind a layer, and two aliases that stand for each other. -/
def windings : Declarations := table [
  ("Length", aliasNamed "Length" (reference "Readonly" [reference "Extent" []])),
  ("Extent", aliasNamed "Extent" (reference "Double" [])),
  ("Loop", aliasNamed "Loop" (reference "Knot" [])),
  ("Knot", aliasNamed "Knot" (reference "Readonly" [reference "Loop" []]))]

theorem namedByTexts_windings : NamedByTexts windings := by
  constructor
  · simp [windings, table]
  · decide +kernel

end Sample

open Sample in
/-- A readonly length is a number, and so is everything on the way to it. A loop is left at the
alias through which it is entered. -/
theorem resolveAlias_reaches_end_windings :
    (resolveIn windings 5 [] (reference "Readonly" [reference "Length" []]) =
        some (.ok (reference "Double" [], ["Length", "Extent"])) ∧
      ∀ next, Relation.ReflTransGen (LeadsTo windings)
          (reference "Readonly" [reference "Length" []]) next →
        ∃ names : List Scalar, names <:+ ["Length", "Extent"] ∧
          resolveAlias windings next = .ok (reference "Double" [], names)) ∧
    (resolveIn windings 5 [] (reference "Loop" []) =
        some (.ok (reference "Loop" [], ["Loop", "Knot"])) ∧
      NamesAlias windings (reference "Loop" []) "Loop") := by
  constructor
  · have resolved : resolveAlias windings (reference "Readonly" [reference "Length" []]) =
        .ok (reference "Double" [], ["Length", "Extent"]) := by with_unfolding_all rfl
    obtain ⟨stops, ends⟩ :=
      resolveAlias_reaches_end windings (reference "Readonly" [reference "Length" []])
    obtain ⟨inner, names, resolved', -, -, -, -, chain⟩ :=
      ends namedByTexts_windings (by decide +kernel)
    cases resolved.symm.trans resolved'
    have noAlias (name : Scalar) : ¬ NamesAlias windings (reference "Double" []) name := by
      rintro ⟨-, named, declaration, found, -⟩
      cases (referenceName_reference _ _).symm.trans named
      cases found
    exact ⟨stops.trans (congrArg some resolved), (chain noAlias).2⟩
  · have resolved : resolveAlias windings (reference "Loop" []) =
        .ok (reference "Loop" [], ["Loop", "Knot"]) := by with_unfolding_all rfl
    obtain ⟨stops, -⟩ := resolveAlias_reaches_end windings (reference "Loop" [])
    exact ⟨stops.trans (congrArg some resolved), rfl, referenceName_reference _ _, _, rfl, rfl⟩

end ComponentSpec
