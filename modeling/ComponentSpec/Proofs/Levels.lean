import ComponentSpec.Proofs.Depth
import ComponentSpec.Schema.Component

/-!
# Level by level

A type is built up level by level: leaves first, then arrays of types and objects of typed members.
A property of types that holds at the leaves and goes from what is inside to an array or an object
therefore holds of whatever typing gives. The slot may have a part in it, since an element or a
member is typed in a slot of its own, which is made from the slot around it.

* `SchemaType.annotations`, `SchemaType.members` — what is inside a type, at every depth;
  `SchemaType.extent` counts it;
* `annotate_of_array`, `annotate_of_literal` — one level of an array, and of an object literal;
* `fill_object_eq_ok`, `fill_array_eq_ok` — a level and what is inside it;
* `LeafOf`, `enumType_eq_ok` — what stands at a leaf;
* `memberSite_eq_ok`, `elementSite_slot` — the slots inside a slot;
* `LevelWise`, `LevelWise.of_annotate_eq_ok` — from the levels to the type.
-/

namespace ComponentSpec

open Checked

variable {types : Declarations} {slot : Slot} {path : List Scalar} {node member : Value}
  {type : SchemaType} {entries : List (Entry SchemaType)} {withDefaults : Bool}

/-! ### Inside a type -/

namespace SchemaType

mutual

/-- **A type and all types inside it.** -/
def annotations : SchemaType → List SchemaType
  | .array element => .array element :: element.annotations
  | .object properties => .object properties :: entryAnnotations properties
  | type => [type]

/-- The types of members and all types inside them. -/
def entryAnnotations : List (Entry SchemaType) → List SchemaType
  | [] => []
  | ⟨_, _, type⟩ :: es => type.annotations ++ entryAnnotations es

end

mutual

/-- **The members inside a type,** at every depth. -/
def members : SchemaType → List (Entry SchemaType)
  | .array element => element.members
  | .object properties => entryMembers properties
  | _ => []

/-- Members and all members inside their types. -/
def entryMembers : List (Entry SchemaType) → List (Entry SchemaType)
  | [] => []
  | ⟨name, optional, type⟩ :: es => ⟨name, optional, type⟩ :: (type.members ++ entryMembers es)

end

/-- What stands in the types of members is what stands in the type of one. -/
theorem mem_entryAnnotations {a : SchemaType} :
    a ∈ entryAnnotations entries ↔ ∃ e ∈ entries, a ∈ e.type.annotations := by
  induction entries with
  | nil => simp [entryAnnotations]
  | cons e es ih => simp [entryAnnotations, ih]

/-- The number of types inside a type, itself included. -/
def extent (type : SchemaType) : Nat := type.annotations.length

theorem extent_lt_array (element : SchemaType) : element.extent < (array element).extent :=
  Nat.lt_succ_self _

theorem extent_lt_object {e : Entry SchemaType} (he : e ∈ entries) :
    e.type.extent < (object entries).extent := by
  have le : e.type.annotations.length ≤ (entryAnnotations entries).length := by
    induction entries with
    | nil => cases he
    | cons first es ih =>
      rw [entryAnnotations, List.length_append]
      rcases List.mem_cons.1 he with rfl | he
      · exact Nat.le_add_right _ _
      · exact Nat.le_trans (ih he) (Nat.le_add_left _ _)
  exact Nat.lt_succ_of_le le

theorem mem_entryMembers {m : Entry SchemaType} :
    m ∈ entryMembers entries ↔ m ∈ entries ∨ ∃ e ∈ entries, m ∈ e.type.members := by
  induction entries with
  | nil => simp [entryMembers]
  | cons e es ih =>
    simp only [entryMembers, List.mem_cons, List.mem_append, ih, exists_eq_or_imp]
    tauto

/-- A type is among the annotations in it. -/
theorem mem_annotations_self (type : SchemaType) : type ∈ type.annotations := by
  cases type <;> exact .head _

/-- The types of the members inside a type are inside it, each with all that is inside it. The
induction is on the size of the type. -/
theorem annotations_subset_of_mem_members {type : SchemaType} {m : Entry SchemaType}
    (h : m ∈ type.members) : ∀ t ∈ m.type.annotations, t ∈ type.annotations := by
  induction hn : type.extent using Nat.strongRecOn generalizing type with
  | ind n ih =>
    cases type with
    | array element =>
      have within : m ∈ element.members := h
      have inside := ih _ (hn ▸ element.extent_lt_array) within rfl
      exact fun t ht => List.mem_cons_of_mem _ (inside t ht)
    | object entries =>
      intro t ht
      refine List.mem_cons_of_mem _ (mem_entryAnnotations.2 ?_)
      rcases mem_entryMembers.1 h with own | ⟨e, he, deeper⟩
      · exact ⟨m, own, ht⟩
      · exact ⟨e, he, ih _ (hn ▸ extent_lt_object he) deeper rfl t ht⟩
    | _ => cases h

end SchemaType

/-! ### Levels by form -/

/-- Nothing is to be inlined among properties alone. -/
theorem flatten_of_properties {members : List Value}
    (all : ∀ m ∈ members, m.hasTag "TSPropertySignature") :
    flatten types path members = .ok members := by
  induction members with
  | nil => exact flatten_nil types path
  | cons m members ih =>
    obtain ⟨first, others⟩ := List.forall_mem_cons.1 all
    rw [flatten_cons_property first, ih others, map_ok]

/-- **An annotation is its outline, filled** by annotations of the same kind. The depth that bounds
them does not show. -/
theorem annotate_of_outline {o : Outline} (h : outline types slot path node = .ok o) :
    annotate types slot path node = o.fill (annotate types) slot := by
  have level := annotate_eq_step types ⟨slot, path, node⟩
  simp only [Query.answer] at level
  rw [level, step, h, ok_bind]

theorem annotate_of_outline_eq_error {f : Fault} (h : outline types slot path node = .error f) :
    annotate types slot path node = .error f := by
  have level := annotate_eq_step types ⟨slot, path, node⟩
  simp only [Query.answer] at level
  rw [level, step, h, error_bind]

theorem annotate_of_array (tag : node.hasTag "TSArrayType") :
    annotate types slot path node =
      (Outline.array path (node.get "elementType")).fill (annotate types) slot := by
  refine annotate_of_outline ?_
  rw [outline_of_hasTag tag (by simp)]
  exact formOutline_of_outlines (.array tag) slot

/-- An object literal that lists nothing but properties has these for its members. -/
theorem annotate_of_literal {members : List Value} (tag : node.hasTag "TSTypeLiteral")
    (listed : (node.get "members").elements = .ok members)
    (all : ∀ m ∈ members, m.hasTag "TSPropertySignature") :
    annotate types slot path node =
      (Outline.object path members).fill (annotate types) slot := by
  have lists : Lists [node] members := List.append_nil members ▸ .literal tag listed .nil
  have object : node.hasTagIn ["TSTypeLiteral", "TSIntersectionType"] := by
    rw [Value.hasTagIn_of_hasTag tag]
    rfl
  refine annotate_of_outline ?_
  rw [outline_of_hasTag tag (by simp)]
  exact formOutline_of_outlines (.literal object lists (flatten_of_properties all)) slot

/-! ### Levels by what is inside -/

/-- The entry of a member is the slot that the member makes, with the type of its annotation. -/
theorem memberEntry_eq_ok {inside : Annotator} {entry : Entry SchemaType} :
    memberEntry inside withDefaults path member = .ok entry ↔ ∃ site type,
      memberSite withDefaults member = .ok site ∧ inside site.1 path site.2 = .ok type ∧
        entry = ⟨site.1.name, site.1.optional, type⟩ := by
  constructor
  · intro h
    obtain ⟨site, sited, h⟩ := bind_eq_ok.1 h
    obtain ⟨type, typed, h⟩ := bind_eq_ok.1 h
    cases h
    exact ⟨site, type, sited, typed, rfl⟩
  · rintro ⟨site, type, sited, typed, rfl⟩
    simp only [memberEntry, sited, ok_bind, typed, pure_eq]

/-- The entry of a member with nothing inside its type. -/
theorem memberEntry_of_leaf {site : Slot × Value}
    (sited : memberSite withDefaults member = .ok site)
    (outlined : outline types site.1 path site.2 = .ok (.leaf type)) :
    memberEntry (annotate types) withDefaults path member =
      .ok ⟨site.1.name, site.1.optional, type⟩ :=
  memberEntry_eq_ok.2 ⟨site, type, sited, annotate_of_outline outlined, rfl⟩

/-- An object is filled member by member. -/
theorem fill_object_eq_ok {inside : Annotator} {members : List Value} :
    (Outline.object path members).fill inside slot = .ok type ↔ ∃ entries, type = .object entries ∧
      List.Forall₂ (fun m e => memberEntry inside slot.withDefaults path m = .ok e) members
        entries := by
  rw [Outline.fill, bind_eq_ok]
  constructor
  · rintro ⟨entries, hentries, h⟩
    cases h
    exact ⟨entries, rfl, mapM_eq_ok.1 hentries⟩
  · rintro ⟨entries, rfl, hentries⟩
    exact ⟨entries, mapM_eq_ok.2 hentries, rfl⟩

theorem fill_array_eq_ok {inside : Annotator} {element : Value} :
    (Outline.array path element).fill inside slot = .ok type ↔ ∃ site inner,
      elementSite slot element = .ok site ∧ inside site.1 path site.2 = .ok inner ∧
        type = .array inner := by
  simp only [Outline.fill, bind_eq_ok, pure_eq, Except.ok.injEq]
  constructor
  · rintro ⟨site, sited, inner, typed, rfl⟩
    exact ⟨site, inner, sited, typed, rfl⟩
  · rintro ⟨site, inner, sited, typed, rfl⟩
    exact ⟨site, sited, inner, typed, rfl⟩

/-! ### Leaves -/

/-- **The type of a union of literals,** which are all texts or all integers, carries the default of
its slot. A slot that calls for one has to have it. -/
theorem enumType_eq_ok (h : enumType slot node = .ok type) :
    (slot.default = none → slot.carriesDefault = false) ∧
      ((∃ texts, type = .stringEnum texts slot.default) ∨
        ∃ ints, type = .int32Enum ints slot.default) := by
  obtain ⟨options, -, h⟩ := bind_eq_ok.1 h
  cases options with
  | none => cases h
  | some options =>
    obtain ⟨enum, henum, h⟩ := bind_eq_ok.1 h
    have called : (slot.default = none → slot.carriesDefault = false) ∧
        type = enum slot.default := by
      cases given : slot.default with
      | some default =>
        simp only [given] at h
        split at h <;> cases h
        exact ⟨nofun, rfl⟩
      | none =>
        simp only [given] at h
        split at h
        · cases h
        · next absent =>
          cases h
          exact ⟨fun _ => by simpa using absent, rfl⟩
    refine ⟨called.1, ?_⟩
    rw [enumOf] at henum
    split at henum
    · cases henum
      exact Or.inl ⟨_, called.2⟩
    · split at henum
      · cases henum
        exact Or.inr ⟨_, called.2⟩
      · cases henum

/-- **What stands at a leaf of a slot.** -/
inductive LeafOf (slot : Slot) : SchemaType → Prop where
  | basic (type : BasicType) : LeafOf slot (slot.basic type)
  | reserved (primitive : Primitive) : LeafOf slot (.reserved primitive)
  | mixed : LeafOf slot .mixed
  | union {node : Value} {type : SchemaType} (typed : enumType slot node = .ok type) :
      LeafOf slot type

theorem leafOf_of_referenceOutline (h : referenceOutline types slot path node = .ok (.leaf type)) :
    LeafOf slot type := by
  obtain ⟨name, -, h⟩ := bind_eq_ok.1 h
  split at h
  · cases h
    exact .basic _
  · cases h
    exact .reserved _
  · cases h
    exact .mixed
  -- a wrapper gives an array, and an interface an object
  · split at h <;> cases h
  · split at h
    · split at h
      · cases h
      · obtain ⟨members, -, h⟩ := bind_eq_ok.1 h
        cases h
    · cases h

theorem leafOf_of_formOutline (h : formOutline types slot path node = .ok (.leaf type)) :
    LeafOf slot type := by
  obtain ⟨form, -, h⟩ := bind_eq_ok.1 h
  cases form with
  | basic basic =>
    cases h
    exact .basic basic
  | number | array | other => cases h
  | object =>
    obtain ⟨listed, -, h⟩ := bind_eq_ok.1 h
    obtain ⟨members, -, h⟩ := bind_eq_ok.1 h
    cases h
  | choice =>
    obtain ⟨enum, henum, h⟩ := bind_eq_ok.1 h
    cases h
    exact .union henum
  | reference => exact leafOf_of_referenceOutline h

/-- **A leaf is a basic type, an enum or a type of the library,** with the default that its slot
calls for. -/
theorem leafOf_of_outline (h : outline types slot path node = .ok (.leaf type)) :
    LeafOf slot type := by
  obtain ⟨inner, aliases, -, h⟩ := ahead_of_outline_eq_ok h
  exact leafOf_of_formOutline h

/-! ### Slots inside a slot -/

/-- **The slot of a member:** no element of an array, with a default only if defaults are looked
for, and optional if it has one. -/
structure MemberSlot (withDefaults : Bool) (member : Value) (slot : Slot) : Prop where
  named : slot.name = member.keyName
  present : slot.name.isNull = false
  keepsDefaults : slot.withDefaults = withDefaults
  noElement : slot.element = false
  default_none : withDefaults = false → slot.default = none
  optional_of_default : slot.default.isSome → slot.optional = true

/-- The slot of a member is what the member says of itself. -/
theorem memberSite_eq_ok {site : Slot × Value}
    (h : memberSite withDefaults member = .ok site) : MemberSlot withDefaults member site.1 := by
  simp only [memberSite] at h
  split at h
  · cases h
  · next named =>
    simp only [Bool.or_eq_true, not_or, Bool.not_eq_true] at named
    obtain ⟨⟨rest, nullable⟩, -, h⟩ := bind_eq_ok.1 h
    cases withDefaults with
    | true =>
      obtain ⟨⟨rest', default⟩, -, h⟩ := bind_eq_ok.1 h
      cases h
      exact ⟨rfl, named.2, rfl, rfl, (fun no => by cases no), fun given => by simp_all⟩
    | false =>
      cases h
      exact ⟨rfl, named.2, rfl, rfl, fun _ => rfl, fun no => by cases no⟩

/-- The slot of an element is the slot of the array, but for whether it is optional. -/
theorem elementSite_slot {element : Value} {site : Slot × Value}
    (h : elementSite slot element = .ok site) :
    ∃ nullable, site.1 = { slot with optional := nullable, element := true } := by
  obtain ⟨⟨rest, nullable⟩, -, h⟩ := bind_eq_ok.1 h
  cases h
  exact ⟨nullable, rfl⟩

/-! ### From the levels to the type -/

/-- **A property that goes up level by level,** of a type in its slot. -/
structure LevelWise (P : Slot → SchemaType → Prop) : Prop where
  leaf : ∀ slot type, LeafOf slot type → P slot type
  array : ∀ slot nullable type, P { slot with optional := nullable, element := true } type →
    P slot (.array type)
  object : ∀ slot entries,
    (∀ e ∈ entries, ∃ member inner, MemberSlot slot.withDefaults member inner ∧
      e.name = inner.name ∧ e.optional = inner.optional ∧ P inner e.type) →
    P slot (.object entries)

namespace LevelWise

variable {P : Slot → SchemaType → Prop} {inside : Annotator}

theorem yields_memberEntry (h : ∀ slot path node, Yields (P slot) (inside slot path node)) :
    Yields (fun e => ∃ inner, MemberSlot withDefaults member inner ∧ e.name = inner.name ∧
      e.optional = inner.optional ∧ P inner e.type)
      (memberEntry inside withDefaults path member) := by
  intro e he
  obtain ⟨site, sited, he⟩ := bind_eq_ok.1 he
  obtain ⟨type, typed, he⟩ := bind_eq_ok.1 he
  cases he
  exact ⟨site.1, memberSite_eq_ok sited, rfl, rfl, h _ _ _ type typed⟩

/-- One level up. -/
theorem yields_step (level : LevelWise P)
    (h : ∀ slot path node, Yields (P slot) (inside slot path node)) :
    Yields (P slot) (step types inside slot path node) := by
  intro type htype
  obtain ⟨outline, outlined, htype⟩ := bind_eq_ok.1 htype
  cases outline with
  | leaf type =>
    cases htype
    exact level.leaf slot type (leafOf_of_outline outlined)
  | array path element =>
    obtain ⟨site, sited, htype⟩ := bind_eq_ok.1 htype
    obtain ⟨inner, typed, htype⟩ := bind_eq_ok.1 htype
    cases htype
    obtain ⟨nullable, hsite⟩ := elementSite_slot sited
    exact level.array slot nullable inner (hsite ▸ h _ _ _ inner typed)
  | object path members =>
    obtain ⟨entries, hentries, htype⟩ := bind_eq_ok.1 htype
    cases htype
    refine level.object slot entries fun e he => ?_
    obtain ⟨member, -, hmember⟩ := exists_mem_of_mem_mapM hentries he
    exact ⟨member, yields_memberEntry h e hmember⟩

/-- **What holds level by level holds to any depth.** -/
theorem yields_annotateTo (level : LevelWise P) (types : Declarations) (n : Nat) (slot : Slot)
    (path : List Scalar) (node : Value) : Yields (P slot) (annotateTo types n slot path node) := by
  induction n generalizing slot path node with
  | zero => exact yields_error _
  | succ n ih =>
    rw [annotateTo_succ]
    exact level.yields_step ih

/-- **What goes up level by level holds of what typing gives.** -/
theorem of_annotate_eq_ok (level : LevelWise P) (h : annotate types slot path node = .ok type) :
    P slot type :=
  level.yields_annotateTo types _ slot path node type h

/-- In particular it holds of the entry of a member, in the slot that the member makes. -/
theorem of_entryOf_eq_ok (level : LevelWise P) {entry : Entry SchemaType}
    (h : entryOf types withDefaults member = .ok entry) :
    ∃ inner, MemberSlot withDefaults member inner ∧ entry.name = inner.name ∧
      entry.optional = inner.optional ∧ P inner entry.type := by
  have inside (slot : Slot) (path : List Scalar) (node : Value) :
      Yields (P slot) (annotate types slot path node) :=
    fun _ typed => level.of_annotate_eq_ok typed
  exact yields_memberEntry inside entry h

end LevelWise

end ComponentSpec
