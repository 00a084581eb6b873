import ComponentSpec.Proofs.Defaults
import ComponentSpec.Proofs.Nullability

/-!
# What becomes of a declared default

A default can be declared with the type of a prop or a state member. It stands in the slot of the
annotation and goes with it behind aliases and into the elements of arrays, until a type takes it.

An enum takes it wherever it stands, and looks for it among its options. Texts are compared as
they are, numbers by their values: `true` and `1.0` count as the option `1` (`Value.Spells`). The
enum then carries the default as it was spelled. So the default of an enum of texts is one of them,
and that of an enum of integers spells one of them (`enum_defaults_are_options`).

A basic type takes it if it is the type of the member itself. As an element it carries no default,
and what was declared for it is not in the schema (`declared_default_is_kept`). Reserved types,
mixed values and objects have no place for a default.

* `Value.Spells` — the scalars that count as an integer;
* `enumOf_eq_ok`, `enumType_of_default` — what an enum makes of a default;
* `SchemaType.EnumDefaults` — defaults of enums, at every depth;
* `DeclaresDefault`, `SchemaType.Keeps` — a type with a default, and the types that keep it.
-/

namespace ComponentSpec

open Checked

variable {types : Declarations} {slot : Slot} {path : List Scalar} {node member default : Value}
  {type : SchemaType} {options : List Value} {withDefaults : Bool}

/-! ### Types with a default -/

/-- **A type with a declared default.** -/
structure DeclaresDefault (node type default : Value) : Prop where
  tag : node.hasTag "TSTypeReference"
  named : node.referenceName.isText "WithDefault"
  literal : ∃ literal, node.typeArguments = [type, literal] ∧ literal.typeLiteral? = some default

theorem DeclaresDefault.splitDefault_eq_ok {reference : Value}
    (h : DeclaresDefault reference node default) (name : Value) :
    splitDefault name reference = .ok (node, some default) := by
  obtain ⟨literal, arguments, given⟩ := h.literal
  simp [splitDefault, h.tag, h.named, arguments, given]

namespace Sample

def textLiteral (text : String) : Value := literalType "StringLiteral" (.str text)

def numberLiteral (n : Int) : Value := literalType "NumericLiteral" (.int n)

theorem typeLiteral?_textLiteral (text : String) :
    (textLiteral text).typeLiteral? = some (.str text) := by
  with_unfolding_all rfl

/-- A member whose type has a default. -/
def defaultMember (name : String) (type literal : Value) : Value :=
  property name (withDefault type literal)

theorem splitNullable_defaultMember (name : String) (type literal : Value) :
    (defaultMember name type literal).memberType.splitNullable =
      .ok (withDefault type literal, false) := by
  rw [defaultMember, memberType_property]
  exact Value.splitNullable_of_not_union rfl rfl

theorem declaresDefault_withDefault {type literal default : Value}
    (value : literal.typeLiteral? = some default) :
    DeclaresDefault (withDefault type literal) type default :=
  ⟨rfl, by rw [withDefault, referenceName_reference]; simp [Value.isText], literal, rfl, value⟩

/-- The slot of a member whose type has a default. -/
def defaultSlot (name : String) (default : Value) : Slot :=
  ⟨.str name, true, true, some default, false⟩

theorem memberSite_defaultMember (name : String) {type literal default : Value}
    (value : literal.typeLiteral? = some default) :
    memberSite true (defaultMember name type literal) = .ok (defaultSlot name default, type) := by
  have key : (defaultMember name type literal).keyName = .str name := keyName_property _ _
  have named : (defaultMember name type literal).keyName.isNull = false := by
    rw [key]
    rfl
  rw [memberSite_of_split rfl named (splitNullable_defaultMember name type literal), key]
  simp [(declaresDefault_withDefault value).splitDefault_eq_ok, defaultSlot]

/-- One of two modes. -/
def modeType : Value := unionOf ["none", "some"]

/-- One of two levels. -/
def levelType : Value := unionWith [numberLiteral 0, numberLiteral 1]

theorem annotate_modes : annotate [] (defaultSlot "modes" (.str "none")) [] (arrayOf modeType) =
    .ok (.array (.stringEnum ["none", "some"] (some (.str "none")))) := by
  have sited : elementSite (defaultSlot "modes" (.str "none")) modeType =
      .ok (⟨"modes", true, false, some (.str "none"), true⟩, modeType) := by with_unfolding_all rfl
  have outlined : outline [] ⟨"modes", true, false, some (.str "none"), true⟩ [] modeType =
      .ok (.leaf (.stringEnum ["none", "some"] (some (.str "none")))) := by with_unfolding_all rfl
  rw [annotate_of_array rfl]
  exact fill_array_eq_ok.2 ⟨_, _, sited, annotate_of_outline outlined, rfl⟩

/-- A text that is an element is without its default. -/
theorem annotate_texts : annotate [] (defaultSlot "value" (.str "none")) []
    (arrayOf (keyword "TSStringKeyword")) = .ok (.array (.basic .string none)) := by
  have sited : elementSite (defaultSlot "value" (.str "none")) (keyword "TSStringKeyword") =
      .ok (⟨"value", true, false, some (.str "none"), true⟩, keyword "TSStringKeyword") := by
    with_unfolding_all rfl
  have outlined : outline [] ⟨"value", true, false, some (.str "none"), true⟩ []
      (keyword "TSStringKeyword") = .ok (.leaf (.basic .string none)) := by
    with_unfolding_all rfl
  rw [annotate_of_array rfl]
  exact fill_array_eq_ok.2 ⟨_, _, sited, annotate_of_outline outlined, rfl⟩

/-- A level that is `true` by default. -/
theorem entryOf_level : entryOf [] true
    (defaultMember "level" levelType (literalType "BooleanLiteral" (.bool true))) =
      .ok ⟨"level", true, .int32Enum [0, 1] (some (.bool true))⟩ := by
  have outlined : outline [] (defaultSlot "level" (.bool true)) [] levelType =
      .ok (.leaf (.int32Enum [0, 1] (some (.bool true)))) := by with_unfolding_all rfl
  exact memberEntry_of_leaf (memberSite_defaultMember "level" (by with_unfolding_all rfl)) outlined

end Sample

/-! ### Comparing a default with an option -/

namespace Value

/-- **The scalars that count as an integer:** itself, a truth value that counts as it, and a float
of the same value. -/
inductive Spells (n : Int) : Value → Prop where
  | integer : Spells n (.int n)
  | truth (b : Bool) (counts : (if b then 1 else 0) = n) : Spells n (.bool b)
  | float (x : Double) (integral : x.toInt? = some n) : Spells n (.float x)

theorem sameScalar_int {n : Int} {v : Value} : (Value.int n).sameScalar v ↔ v.Spells n := by
  constructor
  · intro same
    cases v with
    | arr | obj => cases same
    | scalar s =>
      simp only [sameScalar, Scalar.same, decide_eq_true_eq] at same
      cases s with
      | null | str => simp [Scalar.canonical] at same
      | int m =>
        obtain rfl : n = m := by simpa [Scalar.canonical] using same
        exact .integer
      | bool b => exact .truth b (by simpa [Scalar.canonical] using same.symm)
      | float x =>
        -- only an integral float is compared as an integer
        cases integral : x.toInt? with
        | none => simp [Scalar.canonical, integral] at same
        | some m =>
          obtain rfl : n = m := by simpa [Scalar.canonical, integral] using same
          exact .float x integral
  · intro spells
    cases spells with
    | integer => simp [sameScalar]
    | truth b counts => simp [sameScalar, Scalar.same, Scalar.canonical, counts]
    | float x integral => simp [sameScalar, Scalar.same, Scalar.canonical, integral]

theorem sameScalar_str {s : String} {v : Value} : (Value.str s).sameScalar v ↔ v = .str s := by
  cases v with
  | arr | obj => simp [sameScalar]
  | scalar k => rw [sameScalar, Scalar.same_comm, Scalar.same_text, scalar.injEq]

end Value

/-! ### Enums and their defaults -/

/-- A list of values that are all read as something is the list of what was read. -/
theorem eq_map_of_mapM {α : Type} {read : Value → Option α} {write : α → Value} {as : List α}
    (reads : ∀ v a, read v = some a → v = write a) (h : options.mapM read = some as) :
    options = as.map write := by
  induction options generalizing as with
  | nil =>
    cases h
    rfl
  | cons v options ih =>
    simp only [List.mapM_cons, Option.bind_eq_bind, Option.bind_eq_some_iff] at h
    obtain ⟨a, ha, rest, hrest, h⟩ := h
    cases h
    rw [List.map_cons, ← reads v a ha, ← ih hrest]

/-- **The options of an enum** are texts or integers. -/
theorem enumOf_eq_ok {enum : Option Value → SchemaType} (h : enumOf slot node options = .ok enum) :
    (∃ texts, options = texts.map .str ∧ enum = .stringEnum texts) ∨
      ∃ ints, options = ints.map .int ∧ enum = .int32Enum ints := by
  have text (v : Value) (s : String) (read : v.str? = some s) : v = .str s := by
    unfold Value.str? at read
    split at read <;> cases read
    rfl
  have integer (v : Value) (n : Int) (read : int? v = some n) : v = .int n := by
    unfold int? at read
    split at read <;> cases read
    rfl
  rw [enumOf] at h
  split at h
  · next texts given =>
    cases h
    exact .inl ⟨texts, eq_map_of_mapM text given, rfl⟩
  · split at h
    · next ints given =>
      cases h
      exact .inr ⟨ints, eq_map_of_mapM integer given, rfl⟩
    · cases h

/-- **An enum takes a declared default** if it is the same scalar as one of the options, and is
refused otherwise. -/
theorem enumType_of_default {enum : Option Value → SchemaType}
    (listed : choices node = .ok (some options)) (offers : enumOf slot node options = .ok enum)
    (given : slot.default = some default) :
    enumType slot node = .ok type ↔
      (∃ o ∈ options, o.sameScalar default) ∧ type = enum (some default) := by
  rw [enumType, listed, ok_bind]
  simp only [offers, ok_bind, given]
  rw [← List.any_eq_true]
  split
  · next among =>
    rw [pure_eq, Except.ok.injEq]
    exact ⟨fun same => ⟨among, same.symm⟩, fun taken => taken.2.symm⟩
  · next other =>
    refine ⟨fun typed => ?_, fun taken => absurd taken.1 other⟩
    cases typed

/-- **An enum whose default is one of its options,** if it has a default. An option that is an
integer may be spelled otherwise. -/
def SchemaType.OffersDefault : SchemaType → Prop
  | .stringEnum texts (some default) => ∃ s ∈ texts, default = .str s
  | .int32Enum ints (some default) => ∃ n ∈ ints, default.Spells n
  | _ => True

theorem offersDefault_of_enumType (typed : enumType slot node = .ok type) : type.OffersDefault := by
  cases given : slot.default with
  | none =>
    obtain ⟨-, ⟨texts, rfl⟩ | ⟨ints, rfl⟩⟩ := enumType_eq_ok typed <;> rw [given] <;> trivial
  | some default =>
    obtain ⟨options, listed, h⟩ := bind_eq_ok.1 typed
    cases options with
    | none => cases h
    | some options =>
      obtain ⟨enum, offers, -⟩ := bind_eq_ok.1 h
      obtain ⟨⟨o, mem, same⟩, rfl⟩ := (enumType_of_default listed offers given).1 typed
      -- the options are those of the enum, so the one that is the same is among them
      rcases enumOf_eq_ok offers with ⟨texts, rfl, rfl⟩ | ⟨ints, rfl, rfl⟩
      · obtain ⟨s, hs, rfl⟩ := List.mem_map.1 mem
        exact ⟨s, hs, Value.sameScalar_str.1 same⟩
      · obtain ⟨n, hn, rfl⟩ := List.mem_map.1 mem
        exact ⟨n, hn, Value.sameScalar_int.1 same⟩

/-- Defaults are among the options level by level. -/
theorem levelWise_offersDefault :
    LevelWise fun _ type => ∀ t ∈ type.annotations, t.OffersDefault where
  leaf slot type leaf := by
    cases leaf with
    | basic | reserved | mixed => exact List.forall_mem_singleton.2 trivial
    | union typed =>
      have offers := offersDefault_of_enumType typed
      obtain ⟨-, ⟨texts, rfl⟩ | ⟨ints, rfl⟩⟩ := enumType_eq_ok typed <;>
        exact List.forall_mem_singleton.2 offers
  array slot nullable type inside := List.forall_mem_cons.2 ⟨trivial, inside⟩
  object slot entries inside := by
    refine List.forall_mem_cons.2 ⟨trivial, fun t ht => ?_⟩
    obtain ⟨e, he, below⟩ := SchemaType.mem_entryAnnotations.1 ht
    obtain ⟨member, inner, -, -, -, offered⟩ := inside e he
    exact offered t below

/-- **The defaults of enums,** at every depth: that of an enum of texts is one of the texts, and
that of an enum of integers spells one of the integers. Unless it is a truth value or a float, it is
that integer. -/
structure SchemaType.EnumDefaults (type : SchemaType) : Prop where
  texts : ∀ texts default, .stringEnum texts (some default) ∈ type.annotations →
    ∃ s ∈ texts, default = .str s
  integers : ∀ ints default, .int32Enum ints (some default) ∈ type.annotations →
    ∃ n ∈ ints, default.Spells n
  identical : ∀ ints default, .int32Enum ints (some default) ∈ type.annotations →
    (∀ b, default ≠ .bool b) → (∀ x, default ≠ .float x) → ∃ n ∈ ints, default = .int n

theorem enumDefaults_of_offersDefault (h : ∀ t ∈ type.annotations, t.OffersDefault) :
    type.EnumDefaults := by
  refine ⟨fun texts default mem => h _ mem, fun ints default mem => h _ mem, ?_⟩
  intro ints default mem noTruth noFloat
  obtain ⟨n, hn, spells⟩ := h _ mem
  refine ⟨n, hn, ?_⟩
  cases spells with
  | integer => rfl
  | truth b => exact absurd rfl (noTruth b)
  | float x => exact absurd rfl (noFloat x)

/-- An enum of integers, and the defaults that it takes. -/
theorem annotate_of_integers {ints : List Int} (tag : node.hasTag "TSUnionType")
    (listed : choices node = .ok (some (ints.map .int))) (some_int : ints ≠ [])
    (given : slot.default = some default) :
    annotate types slot path node = .ok type ↔
      (∃ n ∈ ints, default.Spells n) ∧ type = .int32Enum ints (some default) := by
  have offers : enumOf slot node (ints.map .int) = .ok (.int32Enum ints) := by
    obtain ⟨n, rest, rfl⟩ := List.exists_cons_of_ne_nil some_int
    have integers (ints : List Int) : (ints.map Value.int).mapM int? = some ints := by
      induction ints with
      | nil => rfl
      | cons n rest ih =>
        rw [List.map_cons, List.mapM_cons, ih]
        rfl
    rw [enumOf, integers]
    rfl
  rw [annotate_of_union tag, enumType_of_default listed offers given]
  simp only [List.mem_map, exists_exists_and_eq_and, Value.sameScalar_int]

/-- **The default of an enum is one of its options.** In every type that an annotation or a member
has, at every depth, the default of an enum of texts is one of the texts, and that of an enum of
integers spells one of the integers; it is that integer unless it is a truth value or a float. An
enum of integers takes a default if and only if it spells one of them, and carries it as it is. -/
theorem enum_defaults_are_options (types : Declarations) :
    (∀ slot path node type, annotate types slot path node = .ok type → type.EnumDefaults) ∧
    (∀ withDefaults path member entry,
      memberEntry (annotate types) withDefaults path member = .ok entry → entry.type.EnumDefaults) ∧
    ∀ slot path node ints default type, node.hasTag "TSUnionType" →
      choices node = .ok (some (ints.map .int)) → ints ≠ [] → slot.default = some default →
      (annotate types slot path node = .ok type ↔
        (∃ n ∈ ints, default.Spells n) ∧ type = .int32Enum ints (some default)) := by
  have annotated (slot : Slot) (path : List Scalar) (node : Value) (type : SchemaType)
      (typed : annotate types slot path node = .ok type) : type.EnumDefaults :=
    enumDefaults_of_offersDefault (levelWise_offersDefault.of_annotate_eq_ok typed)
  refine ⟨annotated, fun withDefaults path member entry built => ?_, ?_⟩
  · obtain ⟨site, type, -, typed, rfl⟩ := memberEntry_eq_ok.1 built
    exact annotated _ _ _ type typed
  · intro slot path node ints default type tag listed some_int given
    exact annotate_of_integers tag listed some_int given

open Sample in
/-- A list of modes has one of the modes for its default, and a level that is `true` by default has
the option `1` in another spelling. -/
theorem enum_defaults_are_options_modes :
    (∃ s ∈ ["none", "some"], Value.str "none" = .str s) ∧
    (∃ n ∈ [0, 1], (Value.bool true).Spells n) ∧
    annotate [] (defaultSlot "level" (.bool true)) [] levelType =
      .ok (.int32Enum [0, 1] (some (.bool true))) := by
  obtain ⟨annotated, built, taken⟩ := enum_defaults_are_options []
  refine ⟨?_, ?_, ?_⟩
  · exact (annotated _ _ _ _ annotate_modes).texts _ _ (.tail _ (.head _))
  · exact (built true [] _ _ entryOf_level).integers _ _ (.head _)
  · have listed : choices levelType = .ok (some ([0, 1].map .int)) := by with_unfolding_all rfl
    exact (taken _ [] levelType [0, 1] (.bool true) _ rfl listed (by decide) rfl).2
      ⟨⟨1, by decide, .truth true rfl⟩, rfl⟩

open Sample in
/-- The default of an enum of integers need not be an integer. -/
theorem not_enum_default_is_option : ¬ ∀ (types : Declarations) (member : Value)
    (entry : Entry SchemaType), entryOf types true member = .ok entry →
    ∀ ints default, .int32Enum ints (some default) ∈ entry.type.annotations →
    ∃ n ∈ ints, default = .int n := by
  intro claim
  obtain ⟨n, -, same⟩ := claim [] _ _ entryOf_level _ _ (.head _)
  cases same

/-! ### Defaults that are kept -/

/-- The type of the elements inside all arrays. -/
def SchemaType.innermost : SchemaType → SchemaType
  | .array element => element.innermost
  | type => type

/-- **A type that keeps a declared default.** A basic type or an enum keeps it, and so does an enum
as the innermost element of arrays. Everything else is without it. -/
structure SchemaType.Keeps (type : SchemaType) (default : Value) : Prop where
  own : type.takesDefault → type.default? = some default
  enum : type.innermost.isEnum → type.innermost.default? = some default
  others : type.takesDefault = false → type.innermost.isEnum = false →
    type.innermost.default? = none

/-- A default goes with its slot level by level. -/
theorem levelWise_keeps : LevelWise fun slot type => ∀ default, slot.withDefaults →
    slot.default = some default →
      type.innermost.default? =
        if type.innermost.isEnum || type.takesDefault && !slot.element then some default
        else none where
  leaf slot type leaf default withDefaults given := by
    cases leaf with
    | basic basic =>
      cases element : slot.element <;>
        simp [Slot.basic, Slot.carriesDefault, withDefaults, element, given, SchemaType.innermost,
          SchemaType.default?, SchemaType.isEnum, SchemaType.takesDefault]
    | reserved | mixed => rfl
    | union typed => obtain ⟨-, ⟨texts, rfl⟩ | ⟨ints, rfl⟩⟩ := enumType_eq_ok typed <;> exact given
  array slot nullable type inside default withDefaults given := by
    -- the slot of an element keeps the default, but it is that of an element
    have kept := inside default withDefaults given
    simpa [SchemaType.innermost, SchemaType.takesDefault] using kept
  object slot entries inside default withDefaults given := rfl

theorem keeps_of_annotate_eq_ok (typed : annotate types slot path node = .ok type)
    (withDefaults : slot.withDefaults) (noElement : slot.element = false)
    (given : slot.default = some default) : type.Keeps default := by
  have kept := levelWise_keeps.of_annotate_eq_ok typed default withDefaults given
  rw [noElement, Bool.not_false, Bool.and_true] at kept
  refine ⟨fun takes => ?_, fun enum => ?_, fun bare noEnum => ?_⟩
  · -- a type that takes a default is no array
    have whole : type.innermost = type := by cases type <;> first | rfl | cases takes
    rw [whole, takes, Bool.or_true] at kept
    exact kept
  · rw [kept, enum]
    rfl
  · rw [kept, bare, noEnum]
    rfl

/-- **A declared default is kept** by the types that carry defaults. A member of props or state
whose type is declared with a default either has no entry, or it is optional. Basic types and enums
then carry the default, and so do enums as the innermost elements of arrays. Innermost elements of
other types carry none. -/
theorem declared_default_is_kept (types : Declarations) (path : List Scalar)
    {member reference node default : Value} {nullable : Bool} {entry : Entry SchemaType}
    (split : member.memberType.splitNullable = .ok (reference, nullable))
    (declared : DeclaresDefault reference node default)
    (built : memberEntry (annotate types) true path member = .ok entry) :
    entry.optional = true ∧ entry.type.Keeps default := by
  obtain ⟨site, type, sited, typed, rfl⟩ := memberEntry_eq_ok.1 built
  have slot := memberSite_eq_ok sited
  have signature : member.hasTag "TSPropertySignature" := (readsMember_of_memberSite sited).property
  have named : member.keyName.isNull = false := slot.named ▸ slot.present
  -- the slot of the member has the default
  have given : site.1.default = some default := by
    rw [memberSite_of_split signature named split] at sited
    simp only [if_true, declared.splitDefault_eq_ok, ok_bind, Except.ok.injEq] at sited
    rw [← sited]
  have optional : site.1.optional = true := slot.optional_of_default (by rw [given]; rfl)
  exact ⟨optional, keeps_of_annotate_eq_ok typed slot.keepsDefaults slot.noElement given⟩

open Sample in
/-- The default of a list of modes is kept by the modes. -/
theorem declared_default_is_kept_modes :
    entryOf [] true (defaultMember "modes" (arrayOf modeType) (textLiteral "none")) =
      .ok ⟨"modes", true, .array (.stringEnum ["none", "some"] (some (.str "none")))⟩ ∧
    (SchemaType.array (.stringEnum ["none", "some"] (some (.str "none")))).Keeps (.str "none") := by
  have value := typeLiteral?_textLiteral "none"
  have built : entryOf [] true (defaultMember "modes" (arrayOf modeType) (textLiteral "none")) =
      .ok ⟨"modes", true, .array (.stringEnum ["none", "some"] (some (.str "none")))⟩ :=
    memberEntry_eq_ok.2 ⟨_, _, memberSite_defaultMember "modes" value, annotate_modes, rfl⟩
  exact ⟨built, (declared_default_is_kept [] [] (splitNullable_defaultMember "modes" _ _)
    (declaresDefault_withDefault value) built).2⟩

open Sample in
/-- A list of texts does not keep a default that is declared with it, nor does a type that has no
place for one. -/
theorem not_every_default_is_kept : ¬ ∃ type ∈ [arrayOf (keyword "TSStringKeyword"),
      reference "ColorValue" [], reference "UnsafeMixed" [], literal []],
    ∀ entry, entryOf [] true (defaultMember "value" type (textLiteral "none")) = .ok entry →
      entry.optional = true ∧ entry.type.innermost.default? = some (.str "none") := by
  have value := typeLiteral?_textLiteral "none"
  -- what has a type without the default in it has an entry without it
  have lost {node : Value} {type : SchemaType}
      (typed : annotate [] (defaultSlot "value" (.str "none")) [] node = .ok type)
      (none : type.innermost.default? = none) :
      ¬ ∀ entry, entryOf [] true (defaultMember "value" node (textLiteral "none")) = .ok entry →
        entry.optional = true ∧ entry.type.innermost.default? = some (.str "none") := by
    intro claim
    have kept := (claim _ (memberEntry_eq_ok.2
      ⟨_, _, memberSite_defaultMember "value" value, typed, rfl⟩)).2
    rw [none] at kept
    cases kept
  rintro ⟨type, mem, claim⟩
  simp only [List.mem_cons, List.not_mem_nil, or_false] at mem
  rcases mem with rfl | rfl | rfl | rfl
  · exact lost annotate_texts rfl claim
  · have outlined : outline [] (defaultSlot "value" (.str "none")) [] (reference "ColorValue" []) =
        .ok (.leaf (.reserved .color)) := by with_unfolding_all rfl
    exact lost (annotate_of_outline outlined) rfl claim
  · have outlined : outline [] (defaultSlot "value" (.str "none")) [] (reference "UnsafeMixed" []) =
        .ok (.leaf .mixed) := by with_unfolding_all rfl
    exact lost (annotate_of_outline outlined) rfl claim
  · have bare : ∀ m ∈ ([] : List Value), m.hasTag "TSPropertySignature" := by simp
    have typed : annotate [] (defaultSlot "value" (.str "none")) [] (literal []) =
        .ok (.object []) := by
      rw [annotate_of_literal rfl rfl bare]
      rfl
    exact lost typed rfl claim

end ComponentSpec
