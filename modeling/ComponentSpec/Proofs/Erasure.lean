import ComponentSpec.Proofs.Defaults

/-!
# A type without its defaults

The same annotation is typed with defaults for a prop and without them for a payload. The two
recursions read the annotation alike: they follow the same aliases, flatten the same members and go
on into the same elements, each on the same path. They differ in three places, and only the first of
them shows in the types:

* at a leaf, which carries a default in the one and not in the other;
* at a union, which calls for a default in the one and can fail there;
* at a member with a default declared, which is unwrapped in the one. In the other the wrapper is a
  type like any other, and if the file declares none of its name the member has no type.

So an annotation that has a type without defaults has the same type with them, once these are
erased, or else an enum lacks its default.

* `SchemaType.withoutDefaults` — the erasure;
* `outline_follows`, `TypedAlike.memberEntry_follows` — a level, and the members in it;
* `typedAlike` — all levels;
* `annotate_withoutDefaults` — typing with and without defaults.
-/

namespace ComponentSpec

open Checked

variable {types : Declarations} {slot : Slot} {path : List Scalar} {node member : Value}
  {type : SchemaType} {entries : List (Entry SchemaType)} {inside : Annotator}

/-! ### Erasing defaults -/

namespace SchemaType

mutual

/-- **The type without its defaults,** at any depth. -/
def withoutDefaults : SchemaType → SchemaType
  | .basic type _ => .basic type none
  | .stringEnum options _ => .stringEnum options none
  | .int32Enum options _ => .int32Enum options none
  | .reserved primitive => .reserved primitive
  | .mixed => .mixed
  | .array element => .array element.withoutDefaults
  | .object properties => .object (entriesWithoutDefaults properties)

/-- Members whose types are without defaults. -/
def entriesWithoutDefaults : List (Entry SchemaType) → List (Entry SchemaType)
  | [] => []
  | ⟨name, optional, type⟩ :: es =>
    ⟨name, optional, type.withoutDefaults⟩ :: entriesWithoutDefaults es

end

theorem entriesWithoutDefaults_eq_map (entries : List (Entry SchemaType)) :
    entriesWithoutDefaults entries =
      entries.map fun e => ⟨e.name, e.optional, e.type.withoutDefaults⟩ := by
  induction entries with
  | nil => rfl
  | cons e es ih => rw [entriesWithoutDefaults, ih, List.map_cons]

mutual

/-- Nothing is left of the defaults. -/
theorem noDefaults_withoutDefaults (type : SchemaType) : type.withoutDefaults.NoDefaults := by
  match type with
  | .basic .. | .stringEnum .. | .int32Enum .. | .reserved _ | .mixed =>
    simp [NoDefaults, withoutDefaults, annotations, carriesDefault_iff, default?]
  | .array element =>
    refine List.forall_mem_cons.2 ⟨?_, noDefaults_withoutDefaults element⟩
    simp [carriesDefault_iff, default?]
  | .object properties =>
    rw [withoutDefaults]
    exact noDefaults_object.2 (noDefaults_entriesWithoutDefaults properties)

theorem noDefaults_entriesWithoutDefaults (entries : List (Entry SchemaType)) :
    ∀ e ∈ entriesWithoutDefaults entries, e.type.NoDefaults := by
  match entries with
  | [] => exact fun _ h => nomatch h
  | ⟨_, _, type⟩ :: es =>
    exact List.forall_mem_cons.2
      ⟨noDefaults_withoutDefaults type, noDefaults_entriesWithoutDefaults es⟩

end

end SchemaType

/-! ### Two slots -/

/-- A slot with no default declared, in which defaults are looked for or not. -/
def Slot.looking (slot : Slot) (withDefaults : Bool) : Slot :=
  { slot with withDefaults := withDefaults, default := none }

@[simp] theorem Slot.looking_name (withDefaults : Bool) :
    (slot.looking withDefaults).name = slot.name := rfl

@[simp] theorem Slot.looking_default (withDefaults : Bool) :
    (slot.looking withDefaults).default = none := rfl

/-- The type `with'` is `type` with defaults. -/
def Erases (type with' : SchemaType) : Prop := with'.withoutDefaults = type

/-- An enum lacks its default. -/
def Fault.EnumLacksDefault (f : Fault) : Prop :=
  ∃ name node, f = .about (.enumDefaultMissing name) node

/-- The default is reported to be missing at some union, unless the place of that union cannot be
told. -/
theorem Fault.EnumLacksDefault.report_or_misfit {f : Fault} (lacks : f.EnumLacksDefault) :
    ∃ name union, (∃ place, Place.ofNode union = .ok place ∧
        f = .report ⟨.enumDefaultMissing name, union, place, none⟩) ∨
      ∃ m, Place.ofNode union = .error m ∧ f = .misfit m := by
  obtain ⟨name, union, rfl⟩ := lacks
  refine ⟨name, union, ?_⟩
  cases placed : Place.ofNode union with
  | ok place => exact Or.inl ⟨place, rfl, Fault.about_of_placed placed⟩
  | error m => exact Or.inr ⟨m, rfl, Fault.about_of_unplaced placed⟩

theorem erases_basic (slot : Slot) (basic : BasicType) :
    Erases ((slot.looking false).basic basic) ((slot.looking true).basic basic) := rfl

theorem enumType_follows (slot : Slot) (node : Value) :
    Follows Erases Fault.EnumLacksDefault (enumType (slot.looking false) node)
      (enumType (slot.looking true) node) := by
  refine Follows.bind_same fun options _ => ?_
  cases options with
  | none => exact follows_error _ _
  | some options =>
    -- the slots call the enum by the same name, so it is the same one, or the same fault
    refine Follows.bind_same (x := enumOf (slot.looking false) node options) fun enum henum => ?_
    have erases (default : Option Value) : Erases (enum none) (enum default) := by
      rw [enumOf] at henum
      split at henum
      · cases henum; rfl
      · split at henum <;> cases henum
        rfl
    simp only [Slot.looking_default]
    intro t ht
    split at ht
    · cases ht
    · cases ht
      split
      · exact Or.inr ⟨_, rfl, _, _, rfl⟩
      · exact Or.inl ⟨_, rfl, erases none⟩

/-! ### One level -/

/-- Outlines of the same thing, at whose leaves defaults are erased. -/
inductive ErasesOutline : Outline → Outline → Prop where
  | leaf {type with' : SchemaType} (erases : Erases type with') :
      ErasesOutline (.leaf type) (.leaf with')
  | same (o : Outline) (noLeaf : ∀ t, o ≠ .leaf t) : ErasesOutline o o

theorem formOutline_follows (types : Declarations) (slot : Slot) (path : List Scalar)
    (node : Value) :
    Follows ErasesOutline Fault.EnumLacksDefault
      (formOutline types (slot.looking false) path node)
      (formOutline types (slot.looking true) path node) := by
  refine Follows.bind_same fun form _ => ?_
  cases form with
  | basic basic => exact .ok (.leaf (erases_basic slot basic))
  | number | other => exact follows_error _ _
  | array => exact .ok (.same _ nofun)
  | object => exact .bind_same fun _ _ => .bind_same fun _ _ => .ok (.same _ nofun)
  | choice => exact (enumType_follows slot node).bind fun _ _ _ erases => .ok (.leaf erases)
  | reference =>
    refine .bind_same fun name _ => ?_
    cases libraryType? name with
    | some library =>
      cases library with
      | basic basic => exact .ok (.leaf (erases_basic slot basic))
      | reserved | mixed => exact .ok (.leaf rfl)
      | array =>
        simp only
        split
        · exact .ok (.same _ nofun)
        · exact follows_error _ _
    | none =>
      simp only
      split
      · split
        · exact follows_error _ _
        · exact .bind_same fun _ _ => .ok (.same _ nofun)
      · exact follows_error _ _

theorem outline_follows (types : Declarations) (slot : Slot) (path : List Scalar) (node : Value) :
    Follows ErasesOutline Fault.EnumLacksDefault (outline types (slot.looking false) path node)
      (outline types (slot.looking true) path node) := by
  refine .bind_same fun resolved _ => ?_
  obtain ⟨inner, aliases⟩ := resolved
  simp only
  cases aliases.find? (onPath path) with
  | some back => exact follows_error _ _
  | none => exact formOutline_follows types slot (path ++ aliases) inner

/-! ### A declared default -/

/-- **Where the file declares no `WithDefault`,** it is no type. -/
theorem annotateTo_withDefault (undeclared : types.has (.str "WithDefault") = false)
    (tag : node.hasTag "TSTypeReference") (named : node.referenceName.isText "WithDefault")
    (n : Nat) : ∃ f, annotateTo types n slot path node = .error f := by
  cases n with
  | zero => exact ⟨_, rfl⟩
  | succ n =>
    replace named := Value.isText_iff.1 named
    have bare (inner : Value) : ¬ Wraps node inner := by
      rintro (tag' | ⟨tag', -⟩ | ⟨-, readonly, -⟩)
      · exact Value.not_hasTag_of_hasTag tag (by simp) tag'
      · exact Value.not_hasTag_of_hasTag tag (by simp) tag'
      · rw [named] at readonly
        cases readonly
    have nothing : types.find? (.str "WithDefault") = none := Table.find?_eq_none undeclared
    have outlined : ∃ f, outline types slot path node = .error f := by
      have none_such : ((types.find? (.str "WithDefault")).getD .null).hasTag
          "TSTypeAliasDeclaration" = false := by rw [nothing]; rfl
      rw [outline_of_bare bare (aliasOf_of_no_alias named none_such), formOutline_of_reference tag,
        referenceOutline, named]
      exact ⟨_, by simp [Value.key, libraryType?, nothing, Value.hasTag, Value.tag, Value.get,
        Value.isText]; rfl⟩
    obtain ⟨f, hf⟩ := outlined
    rw [annotateTo_succ, step, hf, error_bind]
    exact ⟨f, rfl⟩

/-! ### Members -/

/-- **Typing with defaults follows typing without them,** to a depth. -/
def TypedAlike (types : Declarations) (n : Nat) : Prop :=
  ∀ (slot : Slot) (path : List Scalar) (node : Value), Follows Erases Fault.EnumLacksDefault
    (annotateTo types n (slot.looking false) path node)
    (annotateTo types n (slot.looking true) path node)

/-- The entry without the defaults in its type. -/
def ErasesEntry (entry with' : Entry SchemaType) : Prop :=
  entry = ⟨with'.name, with'.optional, with'.type.withoutDefaults⟩

/-- A member that has a type where no defaults are looked for declares none. -/
theorem TypedAlike.memberEntry_follows {n : Nat} (ih : TypedAlike types n)
    (undeclared : types.has (.str "WithDefault") = false) :
    Follows ErasesEntry Fault.EnumLacksDefault
      (memberEntry (annotateTo types n) false path member)
      (memberEntry (annotateTo types n) true path member) := by
  intro entry hentry
  obtain ⟨⟨slot, node⟩, sited, hentry⟩ := bind_eq_ok.1 hentry
  obtain ⟨type, typed, hentry⟩ := bind_eq_ok.1 hentry
  cases hentry
  have sited' : memberSite true member = .ok (slot.looking true, node) ∧
      slot = slot.looking false := by
    simp only [memberSite] at sited
    split at sited
    · cases sited
    · next named =>
      obtain ⟨⟨rest, nullable⟩, split, sited⟩ := bind_eq_ok.1 sited
      cases sited
      -- a default would be declared by a reference to a type that is none
      have plain : splitDefault member.keyName rest = .ok (rest, none) := by
        refine if_neg fun wrapped => ?_
        obtain ⟨tag, named⟩ := Bool.and_eq_true_iff.1 wrapped
        obtain ⟨f, failed⟩ := annotateTo_withDefault undeclared tag named n
        rw [failed] at typed
        cases typed
      refine ⟨?_, rfl⟩
      simp only [memberSite, named, Bool.false_eq_true, if_false, split, ok_bind, if_true, plain]
      rfl
  obtain ⟨sited', same⟩ := sited'
  rw [same] at typed
  rcases ih slot path node type typed with ⟨type', typed', erases⟩ | ⟨f, failed, lacks⟩
  · refine Or.inl ⟨⟨slot.name, slot.optional, type'⟩, ?_, ?_⟩
    · simp only [memberEntry, sited', ok_bind, typed']
      rfl
    · rw [ErasesEntry, erases]
  · refine Or.inr ⟨f, ?_, lacks⟩
    simp only [memberEntry, sited', ok_bind, failed, error_bind]

theorem eq_entriesWithoutDefaults {entries' : List (Entry SchemaType)}
    (h : List.Forall₂ ErasesEntry entries entries') :
    SchemaType.entriesWithoutDefaults entries' = entries := by
  rw [SchemaType.entriesWithoutDefaults_eq_map]
  induction h with
  | nil => rfl
  | cons head _ ih => rw [List.map_cons, ih, ← head]

/-! ### All levels -/

/-- **One level.** If what is inside is typed with and without defaults alike, so is the level. -/
theorem TypedAlike.succ {n : Nat} (ih : TypedAlike types n)
    (undeclared : types.has (.str "WithDefault") = false) : TypedAlike types (n + 1) := by
  intro slot path node
  rw [annotateTo_succ]
  refine (outline_follows types slot path node).bind fun o o' _ outlined => ?_
  cases outlined with
  | leaf erases => exact .ok erases
  | same o noLeaf =>
    cases o with
    | leaf type => exact absurd rfl (noLeaf type)
    | array path element =>
      simp only [Outline.fill, elementSite]
      cases element.splitNullable with
      | error e => exact follows_error _ _
      | ok split =>
        obtain ⟨rest, nullable⟩ := split
        refine (ih { slot with optional := nullable, element := true } path rest).bind ?_
        intro type with' _ erases
        exact .ok (congrArg SchemaType.array erases)
    | object path members =>
      refine (Follows.mapM fun member _ => ih.memberEntry_follows undeclared).bind ?_
      intro entries entries' _ erases
      exact .ok (congrArg SchemaType.object (eq_entriesWithoutDefaults erases))

theorem typedAlike (undeclared : types.has (.str "WithDefault") = false) (n : Nat) :
    TypedAlike types n := by
  induction n with
  | zero => exact fun _ _ _ => follows_error _ _
  | succ n ih => exact ih.succ undeclared

/-- **A missing default is reported.** Where an annotation has a type without defaults and none with
them, that is the report of an enum without its default, at the union of the enum, unless the place
of the union cannot be told. -/
theorem annotate_reports_enum (undeclared : types.has (.str "WithDefault") = false)
    (typed : annotate types (slot.looking false) path node = .ok type) {f : Fault}
    (failed : annotate types (slot.looking true) path node = .error f) :
    ∃ member union, (∃ place, Place.ofNode union = .ok place ∧
        f = .report ⟨.enumDefaultMissing member, union, place, none⟩) ∨
      ∃ m, Place.ofNode union = .error m ∧ f = .misfit m := by
  rcases typedAlike undeclared (depthBound types node.weight) slot path node type typed with
    ⟨with', typed', -⟩ | ⟨e, he, lacks⟩
  · cases typed'.symm.trans failed
  · cases he.symm.trans failed
    exact lacks.report_or_misfit

/-- **Typing with and without defaults agrees.** Where the file declares no `WithDefault`, an
annotation that has a type without defaults has the same type with them, up to the defaults, or an
enum in it lacks its default. -/
theorem annotate_withoutDefaults (types : Declarations)
    (undeclared : types.has (.str "WithDefault") = false) (name : Value) (optional element : Bool)
    (path : List Scalar) (node : Value) (type : SchemaType)
    (typed : annotate types ⟨name, false, optional, none, element⟩ path node = .ok type) :
    (∀ with', annotate types ⟨name, true, optional, none, element⟩ path node = .ok with' →
      with'.withoutDefaults = type) ∧
    ∀ f, annotate types ⟨name, true, optional, none, element⟩ path node = .error f →
      ∃ member union, f = .about (.enumDefaultMissing member) union := by
  have follows := typedAlike undeclared (depthBound types node.weight)
    ⟨name, false, optional, none, element⟩ path node type typed
  refine ⟨fun with' h => ?_, fun f h => ?_⟩
  · rcases follows with ⟨b, hb, erases⟩ | ⟨e, he, -⟩
    · cases hb.symm.trans h
      exact erases
    · cases he.symm.trans h
  · rcases follows with ⟨b, hb, -⟩ | ⟨e, he, lacks⟩
    · cases hb.symm.trans h
    · cases he.symm.trans h
      exact lacks

/-- The payload of an event that reports a number and some texts. -/
def Sample.scrollPayload : Value :=
  literal [property "offset" (reference "Double" []),
    property "labels" (arrayOf (keyword "TSStringKeyword"))]

open Sample in
theorem annotate_withoutDefaults_scroll :
    (∃ type with',
      annotate [] ⟨.str "event", false, false, none, false⟩ [] scrollPayload = .ok type ∧
      annotate [] ⟨.str "event", true, false, none, false⟩ [] scrollPayload = .ok with' ∧
      with'.withoutDefaults = type) ∧
    ∃ type f, annotate [] ⟨.str "event", false, false, none, false⟩ [] togglePayload = .ok type ∧
      annotate [] ⟨.str "event", true, false, none, false⟩ [] togglePayload = .error f ∧
      ∃ member union, f = .about (.enumDefaultMissing member) union := by
  -- both payloads are literals, which are typed one level up from their members
  have scroll (slot : Slot) : annotate [] slot [] scrollPayload = _ :=
    annotate_of_literal rfl rfl (by simp [property])
  have toggle (slot : Slot) : annotate [] slot [] togglePayload = _ :=
    annotate_of_literal rfl rfl (by simp [property])
  obtain ⟨type, typed⟩ : ∃ type,
      annotate [] ⟨.str "event", false, false, none, false⟩ [] scrollPayload = .ok type := by
    rw [scroll]
    exact ⟨_, by with_unfolding_all rfl⟩
  obtain ⟨with', typed'⟩ : ∃ type,
      annotate [] ⟨.str "event", true, false, none, false⟩ [] scrollPayload = .ok type := by
    rw [scroll]
    exact ⟨_, by with_unfolding_all rfl⟩
  obtain ⟨enum, enumTyped⟩ : ∃ type,
      annotate [] ⟨.str "event", false, false, none, false⟩ [] togglePayload = .ok type := by
    rw [toggle]
    exact ⟨_, by with_unfolding_all rfl⟩
  obtain ⟨f, failed⟩ : ∃ f,
      annotate [] ⟨.str "event", true, false, none, false⟩ [] togglePayload = .error f := by
    rw [toggle]
    exact ⟨_, by with_unfolding_all rfl⟩
  exact ⟨⟨type, with', typed, typed',
      (annotate_withoutDefaults [] rfl _ _ _ _ _ _ typed).1 with' typed'⟩,
    ⟨enum, f, enumTyped, failed,
      (annotate_withoutDefaults [] rfl _ _ _ _ _ _ enumTyped).2 f failed⟩⟩

end ComponentSpec
