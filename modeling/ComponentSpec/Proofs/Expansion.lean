import ComponentSpec.Proofs.Members
import ComponentSpec.Proofs.Sample

/-!
# The expansion of a type

The members of a type are meant to be its *expansion*: properties and references to types from
elsewhere stay, and a reference to a declared type stands for the expansion of that type. `Expands`
says so by rules, with no path and no guard; a circle of references simply has no finite derivation.

`flatten` computes the expansion (`membersOf_eq_ok`). That it gives nothing else is an induction
along its recursion (`expands_of_flatten`). That its guard never stops a type which has an
expansion rests on two facts: derivations are unique (`Expands.unique`), and each type on the path
has a derivation in which that of the current list is a proper part. A reference back to the path
would give one type two derivations of different size (`flatten_of_expands`). It is enough that no
type on the path has a smaller derivation (`flatten_of_expands_apart`).

* `Role` — what a member is for the flattening, and one equation of `flatten` for each role;
* `Derivation`, `Expands`, `ExpandsTo` — expansions, and their derivations as trees;
* `membersOf_eq_ok` — the members of a type are its expansion;
* `flatten_avoids` — only the guard of `flatten` reports a circle;
* `flatten_congr` — tables that have the same under the names that are met;
* `Expands.forall_mem`, `Expands.property_or_foreign` — what holds of flattened lists.
-/

namespace ComponentSpec

open Checked

variable {types : Declarations} {name : Scalar} {path : List Scalar} {member : Value}
  {members l : List Value}

/-! ### The roles of members -/

/-- **What a member is for the flattening.** -/
inductive Role (types : Declarations) (member : Value) : Prop where
  | property (tag : member.hasTag "TSPropertySignature")
  /-- A reference with a list or an object in the place of its name. -/
  | unnamed (tag : member.hasTagIn Value.referenceTags)
      (unnamed : member.referenceName.key = .error (.misfit .kind))
  /-- A reference to a type that the file does not declare. -/
  | foreign (tag : member.hasTagIn Value.referenceTags) (name : Scalar)
      (named : member.referenceName = .scalar name) (undeclared : types.has name = false)
  | declared (tag : member.hasTagIn Value.referenceTags) (name : Scalar)
      (named : member.referenceName = .scalar name) (declared : types.has name)
  | other (noProperty : member.hasTag "TSPropertySignature" = false)
      (noReference : member.hasTagIn Value.referenceTags = false)

theorem role (types : Declarations) (member : Value) : Role types member := by
  cases hp : member.hasTag "TSPropertySignature" with
  | true => exact .property hp
  | false =>
    cases hr : member.hasTagIn Value.referenceTags with
    | false => exact .other hp hr
    | true =>
      cases hname : member.referenceName with
      | arr | obj => exact .unnamed hr (by rw [hname]; rfl)
      | scalar name =>
        cases hd : types.has name with
        | true => exact .declared hr name hname hd
        | false => exact .foreign hr name hname hd

/-- A reference is no property. -/
theorem not_property_of_reference (h : member.hasTagIn Value.referenceTags) :
    member.hasTag "TSPropertySignature" = false := by
  obtain ⟨tag, htag, hmember⟩ := Value.hasTagIn_iff.1 h
  rw [Value.hasTag_of_hasTag hmember, decide_eq_false_iff_not]
  rintro rfl
  simp [Value.referenceTags] at htag

@[simp] theorem flatten_nil (types : Declarations) (path : List Scalar) :
    flatten types path [] = .ok [] := by
  rw [flatten]

theorem flatten_cons_property (h : member.hasTag "TSPropertySignature") :
    flatten types path (member :: members) = (member :: ·) <$> flatten types path members := by
  rw [flatten, if_pos h]

theorem flatten_cons_unnamed (h : member.hasTagIn Value.referenceTags) {f : Fault}
    (hf : member.referenceName.key = .error f) :
    flatten types path (member :: members) = .error f := by
  rw [flatten, if_neg (by simp [not_property_of_reference h]), if_pos h, hf, error_bind]

theorem flatten_cons_foreign (h : member.hasTagIn Value.referenceTags)
    (hname : member.referenceName = .scalar name) (undeclared : types.has name = false) :
    flatten types path (member :: members) = (member :: ·) <$> flatten types path members := by
  rw [flatten, if_neg (by simp [not_property_of_reference h]), if_pos h, hname]
  simp [Value.key, undeclared]

theorem flatten_cons_back (h : member.hasTagIn Value.referenceTags)
    (hname : member.referenceName = .scalar name) (declared : types.has name)
    (back : onPath path name) :
    flatten types path (member :: members) =
      .error (.about (.recursiveProps (.scalar name)) member) := by
  rw [flatten, if_neg (by simp [not_property_of_reference h]), if_pos h, hname]
  simp [Value.key, declared, back]

theorem flatten_cons_declared (h : member.hasTagIn Value.referenceTags)
    (hname : member.referenceName = .scalar name) (declared : types.has name)
    (fresh : onPath path name = false) :
    flatten types path (member :: members) =
      membersDeclared types name >>= fun inner =>
        flatten types (path ++ [name]) inner >>= fun inlined =>
          (inlined ++ ·) <$> flatten types path members := by
  rw [flatten, if_neg (by simp [not_property_of_reference h]), if_pos h, hname]
  simp [Value.key, declared, fresh]

theorem flatten_cons_other (noProperty : member.hasTag "TSPropertySignature" = false)
    (noReference : member.hasTagIn Value.referenceTags = false) :
    flatten types path (member :: members) = .error (.about (.memberKind member.tag) member) := by
  rw [flatten, if_neg (by simp [noProperty]), if_neg (by simp [noReference])]

/-! ### Expansions -/

/-- **The shape of a derivation:** for each member of a list whether it is kept, or which derivation
stands in its place. -/
inductive Derivation where
  | done
  | keep (rest : Derivation)
  | inline (inner rest : Derivation)
deriving DecidableEq

/-- The number of members that a derivation looks at. -/
def Derivation.size : Derivation → Nat
  | .done => 0
  | .keep rest => rest.size + 1
  | .inline inner rest => inner.size + rest.size + 1

/-- **The expansion of a list of members.** -/
inductive Expands (types : Declarations) : List Value → Derivation → List Value → Prop where
  | nil : Expands types [] .done []
  | property {member : Value} {members l : List Value} {d : Derivation}
      (tag : member.hasTag "TSPropertySignature") (rest : Expands types members d l) :
      Expands types (member :: members) (.keep d) (member :: l)
  | foreign {member : Value} {members l : List Value} {d : Derivation} {name : Scalar}
      (tag : member.hasTagIn Value.referenceTags) (named : member.referenceName = .scalar name)
      (undeclared : types.has name = false) (rest : Expands types members d l) :
      Expands types (member :: members) (.keep d) (member :: l)
  | declared {member : Value} {inner members l l' : List Value} {d d' : Derivation}
      {name : Scalar} (tag : member.hasTagIn Value.referenceTags)
      (named : member.referenceName = .scalar name) (declares : Declares types name inner)
      (inside : Expands types inner d l) (rest : Expands types members d' l') :
      Expands types (member :: members) (.inline d d') (l ++ l')

/-- **The expansion of a type** is that of the members which its declaration gives it. -/
def ExpandsTo (types : Declarations) (name : Scalar) (d : Derivation) (l : List Value) : Prop :=
  ∃ members, Declares types name members ∧ Expands types members d l

theorem Declares.has (h : Declares types name members) : types.has name := by
  cases h with
  | ofInterface found | ofAlias found => exact Table.has_of_find? found

theorem Declares.unique {members' : List Value} (h : Declares types name members)
    (h' : Declares types name members') : members = members' := by
  have := (membersDeclared_eq_ok.2 h).symm.trans (membersDeclared_eq_ok.2 h')
  injection this

/-- A list of members has at most one expansion, and that has one derivation. -/
theorem Expands.unique {d d' : Derivation} {l' : List Value} (h : Expands types members d l)
    (h' : Expands types members d' l') : d = d' ∧ l = l' := by
  -- the kind of the first member and whether its name is declared leave one rule for it
  induction h generalizing d' l' with
  | nil => cases h'; exact ⟨rfl, rfl⟩
  | property tag _ ih =>
    cases h' with
    | property _ rest => obtain ⟨rfl, rfl⟩ := ih rest; exact ⟨rfl, rfl⟩
    | foreign tag' | declared tag' => rw [not_property_of_reference tag'] at tag; cases tag
  | foreign tag named undeclared _ ih =>
    cases h' with
    | property tag' => rw [not_property_of_reference tag] at tag'; cases tag'
    | foreign _ _ _ rest => obtain ⟨rfl, rfl⟩ := ih rest; exact ⟨rfl, rfl⟩
    -- the name of the reference would be declared and not declared
    | declared _ named' declares =>
      obtain rfl : _ = _ := Value.scalar.inj (named.symm.trans named')
      rw [declares.has] at undeclared
      cases undeclared
  | declared tag named declares _ _ ihInside ihRest =>
    cases h' with
    | property tag' => rw [not_property_of_reference tag] at tag'; cases tag'
    | foreign _ named' undeclared =>
      obtain rfl : _ = _ := Value.scalar.inj (named.symm.trans named')
      rw [declares.has] at undeclared
      cases undeclared
    | declared _ named' declares' inside rest =>
      obtain rfl : _ = _ := Value.scalar.inj (named.symm.trans named')
      obtain rfl := declares.unique declares'
      obtain ⟨rfl, rfl⟩ := ihInside inside
      obtain ⟨rfl, rfl⟩ := ihRest rest
      exact ⟨rfl, rfl⟩

/-- Names that are the same declare the same. -/
theorem Declares.congr {name' : Scalar} (h : Declares types name members) (same : name.same name') :
    Declares types name' members := by
  have found := Table.find?_congr same types
  cases h with
  | ofInterface hf tag inherits readable => exact .ofInterface (found ▸ hf) tag inherits readable
  | ofAlias hf tag listed => exact .ofAlias (found ▸ hf) tag listed

/-! ### Flattening expands -/

/-- **Soundness.** What flattening gives is an expansion, whatever is on the path. -/
theorem expands_of_flatten (types : Declarations) (path : List Scalar) (members : List Value) :
    Yields (fun l => ∃ d, Expands types members d l) (flatten types path members) := by
  -- along the recursion; the path only decides where flattening gives up
  induction path, members using flatten.induct types with
  | case1 path =>
    rw [flatten_nil, yields_ok]
    exact ⟨.done, .nil⟩
  | case2 path member members tag ih =>
    rw [flatten_cons_property tag]
    exact ih.map fun l ⟨d, rest⟩ => ⟨.keep d, .property tag rest⟩
  | case3 path member members _ tag ihInner ihRest =>
    -- a reference, so two of the roles are out of the question
    cases role types member with
    | property prop => rw [not_property_of_reference tag] at prop; cases prop
    | unnamed _ unnamed =>
      rw [flatten_cons_unnamed tag unnamed]
      exact yields_error _
    | foreign _ name named undeclared =>
      rw [flatten_cons_foreign tag named undeclared]
      exact ihRest.map fun l ⟨d, rest⟩ => ⟨.keep d, .foreign tag named undeclared rest⟩
    | declared _ name named declared =>
      cases back : onPath path name with
      | true =>
        rw [flatten_cons_back tag named declared back]
        exact yields_error _
      | false =>
        rw [flatten_cons_declared tag named declared back]
        have ihInner := ihInner name declared (by simp [back])
        intro l h
        obtain ⟨inner, hinner, h⟩ := bind_eq_ok.1 h
        obtain ⟨inlined, hinlined, h⟩ := bind_eq_ok.1 h
        obtain ⟨rest, hrest, rfl⟩ := map_eq_ok.1 h
        obtain ⟨d, inside⟩ := ihInner inner inlined hinlined
        obtain ⟨d', rest⟩ := ihRest rest hrest
        exact ⟨.inline d d', .declared tag named (membersDeclared_eq_ok.1 hinner) inside rest⟩
    | other _ noReference => rw [tag] at noReference; cases noReference
  | case4 path member members noProperty noReference =>
    rw [flatten_cons_other (by simpa using noProperty) (by simpa using noReference)]
    exact yields_error _

/-- **The guard is silent where it is not needed.** If no type on the path has a smaller derivation
that gives nothing but what the derivation at hand gives, flattening gives the expansion. -/
theorem flatten_of_expands_apart {d : Derivation} (h : Expands types members d l)
    (apart : ∀ s ∈ path, ∀ dₛ lₛ, ExpandsTo types s dₛ lₛ → lₛ ⊆ l → d.size ≤ dₛ.size) :
    flatten types path members = .ok l := by
  -- on the derivation; the path changes when a reference is inlined
  induction h generalizing path with
  | nil => exact flatten_nil types path
  | property tag _ ih =>
    rw [flatten_cons_property tag, ih fun s hs dₛ lₛ hdₛ below => ?_, map_ok]
    have size := apart s hs dₛ lₛ hdₛ (List.subset_cons_of_subset _ below)
    simp only [Derivation.size] at size
    omega
  | foreign tag named undeclared _ ih =>
    rw [flatten_cons_foreign tag named undeclared, ih fun s hs dₛ lₛ hdₛ below => ?_, map_ok]
    have size := apart s hs dₛ lₛ hdₛ (List.subset_cons_of_subset _ below)
    simp only [Derivation.size] at size
    omega
  | @declared member inner members l l' d d' name tag named declares inside _ ihInside ihRest =>
    -- a type on the path with the name would have `d`, which is smaller, and gives `l`
    have fresh : onPath path name = false := by
      by_contra back
      obtain ⟨s, hs, same⟩ := List.any_eq_true.1 (by simpa [onPath] using back)
      have declares' := declares.congr (Scalar.same_symm same)
      have size := apart s hs d l ⟨inner, declares', inside⟩ (List.subset_append_left l l')
      simp only [Derivation.size] at size
      omega
    have inlined : flatten types (path ++ [name]) inner = .ok l := by
      refine ihInside fun s hs dₛ lₛ hdₛ below => ?_
      -- the name that joins the path has `d` itself
      rcases List.mem_append.1 hs with hs | hs
      · have size := apart s hs dₛ lₛ hdₛ (List.subset_append_of_subset_left l' below)
        simp only [Derivation.size] at size
        omega
      · obtain rfl := List.mem_singleton.1 hs
        obtain ⟨inner', declares', inside'⟩ := hdₛ
        obtain rfl := declares.unique declares'
        exact Nat.le_of_eq (congrArg Derivation.size (inside.unique inside').1)
    have rest : flatten types path members = .ok l' := by
      refine ihRest fun s hs dₛ lₛ hdₛ below => ?_
      have size := apart s hs dₛ lₛ hdₛ (List.subset_append_of_subset_right l below)
      simp only [Derivation.size] at size
      omega
    rw [flatten_cons_declared tag named declares.has fresh, membersDeclared_eq_ok.2 declares,
      ok_bind, inlined, ok_bind, rest, map_ok]

/-- A type has at most one expansion. -/
theorem ExpandsTo.unique {d d' : Derivation} {l' : List Value} (h : ExpandsTo types name d l)
    (h' : ExpandsTo types name d' l') : d = d' ∧ l = l' := by
  obtain ⟨members, declares, inside⟩ := h
  obtain ⟨members', declares', inside'⟩ := h'
  obtain rfl := declares.unique declares'
  exact inside.unique inside'

/-- **The guard is silent on expansions.** If every type on the path has an expansion of which the
derivation at hand is a part, flattening gives the expansion. -/
theorem flatten_of_expands {d : Derivation} (h : Expands types members d l)
    (around : ∀ s ∈ path, ∃ dₛ lₛ, ExpandsTo types s dₛ lₛ ∧ d.size ≤ dₛ.size) :
    flatten types path members = .ok l := by
  refine flatten_of_expands_apart h fun s hs dₛ lₛ hdₛ _ => ?_
  obtain ⟨dₛ', lₛ', hdₛ', size⟩ := around s hs
  rw [(hdₛ.unique hdₛ').1]
  exact size

/-- **The members of a type are its expansion.** -/
theorem membersOf_eq_ok : membersOf types name = .ok l ↔ ∃ d, ExpandsTo types name d l := by
  constructor
  · intro h
    obtain ⟨members, hmembers, hl⟩ := bind_eq_ok.1 h
    obtain ⟨d, hd⟩ := expands_of_flatten types [name] members l hl
    exact ⟨d, members, membersDeclared_eq_ok.1 hmembers, hd⟩
  · rintro ⟨d, members, declares, hd⟩
    rw [membersOf, membersDeclared_eq_ok.2 declares, ok_bind]
    -- the path starts with the type itself
    refine flatten_of_expands hd fun s hs => ?_
    obtain rfl := List.mem_singleton.1 hs
    exact ⟨d, l, ⟨members, declares, hd⟩, Nat.le_refl _⟩

/-- **Only the guard reports a circle.** A property of the path and the members that flattening
keeps, and under which the guard does not report a circle of a given kind, rules that kind out. -/
theorem flatten_avoids {bad : Fault → Prop} {P : List Scalar → List Value → Prop}
    (sub : ∀ f, bad f → f.Circular)
    (rest : ∀ path member members, P path (member :: members) → P path members)
    (inside : ∀ path member members name inner, P path (member :: members) →
      member.hasTagIn Value.referenceTags → member.referenceName = .scalar name →
      Declares types name inner → P (path ++ [name]) inner)
    (guard : ∀ path member members name, P path (member :: members) →
      member.hasTagIn Value.referenceTags → member.referenceName = .scalar name → types.has name →
      onPath path name → ¬ bad (.about (.recursiveProps (.scalar name)) member))
    (h : P path members) : Avoids bad (flatten types path members) := by
  induction path, members using flatten.induct types with
  | case1 path =>
    rw [flatten_nil]
    exact avoids_ok _
  | case2 path member members tag ih =>
    rw [flatten_cons_property tag]
    exact (ih (rest _ _ _ h)).map
  | case3 path member members _ tag ihInner ihRest =>
    have others := ihRest (rest _ _ _ h)
    cases role types member with
    | property prop => rw [not_property_of_reference tag] at prop; cases prop
    | unnamed _ unnamed =>
      rw [flatten_cons_unnamed tag unnamed, avoids_error]
      exact fun hbad => Fault.not_circular_misfit _ (sub _ hbad)
    | foreign _ name named undeclared =>
      rw [flatten_cons_foreign tag named undeclared]
      exact others.map
    | declared _ name named declared =>
      cases back : onPath path name with
      | true =>
        rw [flatten_cons_back tag named declared back, avoids_error]
        exact guard _ _ _ _ h tag named declared back
      | false =>
        rw [flatten_cons_declared tag named declared back]
        -- reading the declaration raises no such fault, so it is the members of one of the two
        refine ((avoids_membersDeclared types name).mono sub).bind fun inner hinner => ?_
        have declares := membersDeclared_eq_ok.1 hinner
        have inlined := ihInner name declared (by simp [back]) inner
          (inside _ _ _ _ _ h tag named declares)
        exact inlined.bind fun _ _ => others.map
    | other _ noReference => rw [tag] at noReference; cases noReference
  | case4 path member members noProperty noReference =>
    rw [flatten_cons_other (by simpa using noProperty) (by simpa using noReference), avoids_error]
    exact fun hbad => Fault.not_circular_about id _ (sub _ hbad)

/-- **Flattening reads only the names it meets.** Two tables that have the same under the names of
references, in the members and in what they hand down, flatten the members alike. -/
theorem flatten_congr {types' : Declarations} {P : Value → Prop}
    (same : ∀ member name, P member → member.hasTagIn Value.referenceTags →
      member.referenceName = .scalar name →
      types.has name = types'.has name ∧ membersDeclared types name = membersDeclared types' name)
    (down : ∀ member name inner, P member → member.hasTagIn Value.referenceTags →
      member.referenceName = .scalar name → Declares types name inner → ∀ m ∈ inner, P m)
    (path : List Scalar) (members : List Value) (all : ∀ m ∈ members, P m) :
    flatten types path members = flatten types' path members := by
  -- along the recursion: a member that is inlined leads to the members of a declaration
  induction path, members using flatten.induct types with
  | case1 path => rw [flatten_nil, flatten_nil]
  | case2 path member members tag ih =>
    rw [flatten_cons_property tag, flatten_cons_property tag, ih (List.forall_mem_cons.1 all).2]
  | case3 path member members _ tag ihInner ihRest =>
    obtain ⟨first, others⟩ := List.forall_mem_cons.1 all
    have rest := ihRest others
    cases role types member with
    | property prop => rw [not_property_of_reference tag] at prop; cases prop
    | unnamed _ unnamed => rw [flatten_cons_unnamed tag unnamed, flatten_cons_unnamed tag unnamed]
    | foreign _ name named undeclared =>
      have undeclared' := (same member name first tag named).1 ▸ undeclared
      rw [flatten_cons_foreign tag named undeclared, flatten_cons_foreign tag named undeclared',
        rest]
    | declared _ name named declared =>
      obtain ⟨has_eq, members_eq⟩ := same member name first tag named
      have declared' := has_eq ▸ declared
      cases back : onPath path name with
      | true =>
        rw [flatten_cons_back tag named declared back, flatten_cons_back tag named declared' back]
      | false =>
        rw [flatten_cons_declared tag named declared back,
          flatten_cons_declared tag named declared' back, ← members_eq]
        refine bind_congr_ok fun inner hinner => ?_
        have inlined := ihInner name declared (by simp [back]) inner
          (down member name inner first tag named (membersDeclared_eq_ok.1 hinner))
        rw [inlined, rest]
    | other _ noReference => rw [tag] at noReference; cases noReference
  | case4 path member members noProperty noReference =>
    replace noProperty : member.hasTag "TSPropertySignature" = false := by simpa using noProperty
    replace noReference : member.hasTagIn Value.referenceTags = false := by simpa using noReference
    rw [flatten_cons_other noProperty noReference, flatten_cons_other noProperty noReference]

/-- Flattening ends: it fails for what it reads or at a reference back to the path. -/
theorem flatten_avoids_endless (types : Declarations) (path : List Scalar) (members : List Value) :
    Avoids (· = .endless) (flatten types path members) :=
  flatten_avoids (P := fun _ _ => True) (fun _ => Or.inr) (fun _ _ _ _ => trivial)
    (fun _ _ _ _ _ _ _ _ _ => trivial) (fun _ _ _ _ _ _ _ _ _ => Fault.about_ne_endless _ _) trivial

theorem membersOf_avoids_endless (types : Declarations) (name : Scalar) :
    Avoids (· = .endless) (membersOf types name) :=
  ((avoids_membersDeclared types name).mono fun _ => Or.inr).bind
    fun members _ => flatten_avoids_endless types [name] members

/-- **`membersOf` computes the finite expansion of a type.** It gives the list with a finite
derivation; the list and its derivation are unique; and without one it fails with a report. -/
theorem membersOf_computes_expansion (types : Declarations) (name : Scalar) :
    (∀ l, membersOf types name = .ok l ↔ ∃ d, ExpandsTo types name d l) ∧
    (∀ d l d' l', ExpandsTo types name d l → ExpandsTo types name d' l' → d = d' ∧ l = l') ∧
    ((∃ d l, ExpandsTo types name d l) ∨ ∃ f, membersOf types name = .error f ∧ f ≠ .endless) := by
  refine ⟨fun l => membersOf_eq_ok, ?_, ?_⟩
  · exact fun d l d' l' => ExpandsTo.unique
  · cases h : membersOf types name with
    | ok l =>
      obtain ⟨d, hd⟩ := membersOf_eq_ok.1 h
      exact Or.inl ⟨d, l, hd⟩
    | error f => exact Or.inr ⟨f, rfl, membersOf_avoids_endless types name f h⟩

/-- Two types that share an extended one, and a type that extends both. -/
def Sample.diamond : Declarations := table [
  ("Shared", interfaceNamed "Shared" [] [property "shared" (keyword "TSStringKeyword")]),
  ("Left", interfaceNamed "Left" [heritage "Shared"] []),
  ("Right", interfaceNamed "Right" [heritage "Shared"]
    [property "right" (keyword "TSStringKeyword")]),
  ("Props", interfaceNamed "Props" [heritage "ViewProps", heritage "Left", heritage "Right"] [])]

open Sample in
theorem membersOf_computes_expansion_diamond :
    membersOf diamond (.str "Props") = .ok
      [heritage "ViewProps", property "shared" (keyword "TSStringKeyword"),
        property "shared" (keyword "TSStringKeyword"),
        property "right" (keyword "TSStringKeyword")] ∧
    ∀ d l, ExpandsTo diamond (.str "Props") d l → l.length = 4 := by
  have shared : Expands diamond [property "shared" (keyword "TSStringKeyword")] (.keep .done)
      [property "shared" (keyword "TSStringKeyword")] := .property rfl .nil
  have right : Expands diamond [property "right" (keyword "TSStringKeyword")] (.keep .done)
      [property "right" (keyword "TSStringKeyword")] := .property rfl .nil
  have extending {name : String} {inner members l l' : List Value} {d d' : Derivation}
      (declares : Declares diamond (.str name) inner) (inside : Expands diamond inner d l)
      (rest : Expands diamond members d' l') :
      Expands diamond (heritage name :: members) (.inline d d') (l ++ l') :=
    .declared rfl (referenceName_heritage name) declares inside rest
  have sharedMembers : Declares diamond (.str "Shared") _ := .ofInterface rfl rfl rfl rfl
  have leftMembers : Declares diamond (.str "Left") _ := .ofInterface rfl rfl rfl rfl
  have rightMembers : Declares diamond (.str "Right") _ := .ofInterface rfl rfl rfl rfl
  -- the shared property comes twice, once by each of the two ways
  have props : ExpandsTo diamond (.str "Props") _ _ :=
    ⟨_, .ofInterface rfl rfl rfl rfl, .foreign rfl (referenceName_heritage _) rfl
      (extending leftMembers (extending sharedMembers shared .nil)
        (extending rightMembers (extending sharedMembers shared right) .nil))⟩
  obtain ⟨computes, unique, -⟩ := membersOf_computes_expansion diamond (.str "Props")
  refine ⟨(computes _).2 ⟨_, props⟩, fun d l h => ?_⟩
  rw [(unique _ _ _ _ h props).2]
  rfl

/-! ### What holds of a flattened list -/

/-- **What members hand down.** A property of members that goes over from a reference to the members
of the type it refers to holds of an expansion if it holds of the list. -/
theorem Expands.forall_mem {P : Value → Prop} {d : Derivation} (h : Expands types members d l)
    (down : ∀ (reference : Value) (name : Scalar) (inner : List Value), P reference →
      reference.hasTagIn Value.referenceTags → reference.referenceName = .scalar name →
      Declares types name inner → ∀ m ∈ inner, P m)
    (all : ∀ m ∈ members, P m) : ∀ m ∈ l, P m := by
  induction h with
  | nil => exact all
  | property _ _ ih =>
    obtain ⟨first, others⟩ := List.forall_mem_cons.1 all
    exact List.forall_mem_cons.2 ⟨first, ih others⟩
  | foreign _ _ _ _ ih =>
    obtain ⟨first, others⟩ := List.forall_mem_cons.1 all
    exact List.forall_mem_cons.2 ⟨first, ih others⟩
  | declared tag named declares _ _ ihInside ihRest =>
    obtain ⟨first, others⟩ := List.forall_mem_cons.1 all
    exact List.forall_mem_append.2
      ⟨ihInside (down _ _ _ first tag named declares), ihRest others⟩

/-- Only properties and references to types from elsewhere are left. -/
theorem Expands.property_or_foreign {d : Derivation} (h : Expands types members d l) :
    ∀ m ∈ l, m.hasTag "TSPropertySignature" ∨ m.hasTagIn Value.referenceTags ∧
      ∃ name, m.referenceName = .scalar name ∧ types.has name = false := by
  induction h with
  | nil => exact fun _ h => nomatch h
  | property tag _ ih => exact List.forall_mem_cons.2 ⟨Or.inl tag, ih⟩
  | foreign tag named undeclared _ ih =>
    exact List.forall_mem_cons.2 ⟨Or.inr ⟨tag, _, named, undeclared⟩, ih⟩
  | declared _ _ _ _ _ ihInside ihRest => exact List.forall_mem_append.2 ⟨ihInside, ihRest⟩

/-- Without references there is nothing to expand. -/
theorem Expands.eq_of_no_reference {d : Derivation} (h : Expands types members d l)
    (none : ∀ m ∈ members, m.hasTagIn Value.referenceTags = false) : l = members := by
  induction h with
  | nil => rfl
  | property _ _ ih => rw [ih (List.forall_mem_cons.1 none).2]
  | foreign tag | declared tag =>
    rw [(List.forall_mem_cons.1 none).1] at tag
    cases tag

end ComponentSpec
