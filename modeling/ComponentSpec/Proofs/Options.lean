import ComponentSpec.Facet.Options
import ComponentSpec.Proofs.Parts
import ComponentSpec.Proofs.Sample
import ComponentSpec.Proofs.Tables
import ComponentSpec.Proofs.Unfiled

/-!
# What options hold

The options of a call are read property by property into a table. A property gives a key and a
value, or the reading fails; the table that comes out only depends on the pairs that are given
(`foldlM_set_eq_ok`), and it has each key where it was first given, with the value that was given
for it last (`Table.Collects`).

A component option gives the value of a literal, or a list. Nothing is asked of the elements of a
list: what is no literal among them is `null` in the list. So the object literals that are read are
known (`GivesOption`), but they are not those of literals alone.

* `Table.Collects` — the table of the pairs that are given;
* `GivesPairs`, `GivesOption` — what the properties of an object literal give;
* `LaidOut` — expressions as a parser writes them;
* `options_are_what_is_given` — which expressions are read, what is read, and how the others fail.
-/

namespace ComponentSpec

open Checked

/-! ### The table of the pairs that are given -/

namespace Table

variable {α : Type} {t pairs : Table α}

/-- **The table of the pairs that are given:** each key stands where it is first given, and is read
as what is given for it last. -/
structure Collects (t pairs : Table α) : Prop where
  order : t.keys = pairs.keys.eraseDupsBy Scalar.same
  last (k : Scalar) : t.find? k = find? pairs.reverse k

theorem collects_ofPairs (pairs : Table α) : (ofPairs pairs).Collects pairs :=
  ⟨keys_ofPairs pairs, find?_ofPairs pairs⟩

/-- There is one table of the pairs that are given: the one that they are written in. -/
theorem collects_iff : t.Collects pairs ↔ t = ofPairs pairs := by
  constructor
  · intro h
    have written := collects_ofPairs pairs
    have keys : t.keys = (ofPairs pairs).keys := h.order.trans written.order.symm
    have distinct : t.Distinct := by
      rw [distinct_iff, keys, ← distinct_iff]
      exact distinct_ofPairs pairs
    exact ext distinct (distinct_ofPairs pairs) keys fun k =>
      (h.last k).trans (written.last k).symm
  · rintro rfl
    exact collects_ofPairs pairs

end Table

/-! ### What properties give -/

/-- **A property of an object literal,** with its key and what its value gives. -/
structure GivesPair (gives : Value → Value → Prop) (property : Value)
    (pair : Scalar × Value) : Prop where
  kind : property.hasTagIn ["ObjectProperty", "Property"]
  key : property.keyName = .scalar pair.1
  named : property.keyName.isNull = false
  value : gives (property.get "value") pair.2

/-- **An object literal,** with the pairs that its properties give. -/
structure GivesPairs (gives : Value → Value → Prop) (expression : Value)
    (pairs : Table Value) : Prop where
  object : expression.hasTag "ObjectExpression"
  properties : ∃ properties, (expression.get "properties").elements = .ok properties ∧
    List.Forall₂ (GivesPair gives) properties pairs

variable {expression property value v : Value} {cause : Cause} {read : Value → Checked Value}
  {gives : Value → Value → Prop} {properties : List (Value × Value)} {pairs t u : Table Value}

theorem objectProperty_eq_ok {name : Value} : objectProperty cause property = .ok (name, v) ↔
    property.hasTagIn ["ObjectProperty", "Property"] ∧ name.isNull = false ∧
      name = property.keyName ∧ v = property.get "value" := by
  rw [objectProperty]
  constructor
  · intro h
    split at h
    · cases h
    · next given =>
      cases h
      rw [Bool.or_eq_true, not_or, Bool.not_eq_true', Bool.not_eq_false, Bool.not_eq_true] at given
      exact ⟨given.1, given.2, rfl, rfl⟩
  · rintro ⟨kind, named, rfl, rfl⟩
    simp [kind, named]

theorem objectProperties_eq_ok : objectProperties cause expression = .ok properties ↔
    expression.hasTag "ObjectExpression" ∧ ∃ items,
      (expression.get "properties").elements = .ok items ∧
        List.Forall₂ (fun item p => objectProperty cause item = .ok p) items properties := by
  rw [objectProperties]
  by_cases object : expression.hasTag "ObjectExpression"
  · simp [object, bind_eq_ok, mapM_eq_ok]
  · simp [object]

/-- **What is read off properties is set in a table,** in order. -/
theorem foldlM_set_eq_ok :
    properties.foldlM (fun (t : Table Value) (name, value) => do
        let v ← read value
        return t.set (← name.key) v) t = .ok u ↔
      ∃ pairs, List.Forall₂ (fun p e => p.1 = .scalar e.1 ∧ read p.2 = .ok e.2) properties pairs ∧
        u = t.merge pairs := by
  induction properties generalizing t with
  | nil =>
    simp only [List.foldlM_nil, pure_eq, Except.ok.injEq, List.forall₂_nil_left_iff]
    constructor
    · rintro rfl
      exact ⟨[], rfl, rfl⟩
    · rintro ⟨pairs, rfl, rfl⟩
      rfl
  | cons p properties ih =>
    obtain ⟨name, value⟩ := p
    rw [List.foldlM_cons]
    constructor
    · intro h
      obtain ⟨t', first, h⟩ := bind_eq_ok.1 h
      obtain ⟨v, reads, first⟩ := bind_eq_ok.1 first
      obtain ⟨k, keyed, first⟩ := bind_eq_ok.1 first
      cases first
      obtain ⟨pairs, rest, rfl⟩ := ih.1 h
      exact ⟨(k, v) :: pairs, .cons ⟨Value.key_eq_ok.1 keyed, reads⟩ rest, rfl⟩
    · rintro ⟨pairs, given, rfl⟩
      obtain ⟨e, pairs, ⟨keyed, reads⟩, rest, rfl⟩ := List.forall₂_cons_left_iff.1 given
      dsimp only at keyed reads
      subst keyed
      simp only [reads, Value.key, ok_bind, pure_eq]
      exact ih.2 ⟨pairs, rest, rfl⟩

/-- **The table of an object literal.** It is read if every property gives something, and it is the
table of what they give. -/
theorem objectTable_eq_ok (reads : ∀ value v, read value = .ok v ↔ gives value v) :
    (objectProperties cause expression >>= fun properties =>
      properties.foldlM (fun (t : Table Value) (name, value) => do
        let v ← read value
        return t.set (← name.key) v) []) = .ok t ↔
      ∃ pairs, GivesPairs gives expression pairs ∧ t.Collects pairs := by
  simp only [Table.collects_iff]
  constructor
  · intro h
    obtain ⟨properties, given, h⟩ := bind_eq_ok.1 h
    obtain ⟨object, items, run, items_give⟩ := objectProperties_eq_ok.1 given
    obtain ⟨pairs, properties_give, rfl⟩ := foldlM_set_eq_ok.1 h
    refine ⟨pairs, ⟨object, items, run, ?_⟩, rfl⟩
    clear * - reads items_give properties_give
    induction items_give generalizing pairs with
    | nil =>
      cases properties_give
      exact .nil
    | @cons item p items properties first _ ih =>
      obtain ⟨name, value⟩ := p
      obtain ⟨e, pairs, ⟨keyed, given⟩, rest, rfl⟩ := List.forall₂_cons_left_iff.1 properties_give
      obtain ⟨kind, named, rfl, rfl⟩ := objectProperty_eq_ok.1 first
      exact .cons ⟨kind, keyed, named, (reads _ _).1 given⟩ (ih _ rest)
  · rintro ⟨pairs, ⟨object, items, run, give⟩, rfl⟩
    have properties_read : ∃ properties,
        List.Forall₂ (fun item p => objectProperty cause item = .ok p) items properties ∧
          List.Forall₂ (fun p e => p.1 = .scalar e.1 ∧ read p.2 = .ok e.2) properties pairs := by
      clear run
      induction give with
      | nil => exact ⟨[], .nil, .nil⟩
      | @cons item e items pairs first _ ih =>
        obtain ⟨properties, given, given'⟩ := ih
        have property : objectProperty cause item = .ok (item.keyName, item.get "value") :=
          objectProperty_eq_ok.2 ⟨first.kind, first.named, rfl, rfl⟩
        exact ⟨_, .cons property given, .cons ⟨first.key, (reads _ _).2 first.value⟩ given'⟩
    obtain ⟨properties, given, given'⟩ := properties_read
    rw [objectProperties_eq_ok.2 ⟨object, items, run, given⟩, ok_bind]
    exact foldlM_set_eq_ok.2 ⟨pairs, given', rfl⟩

/-! ### What a component option gives -/

/-- **What the value of a component option gives:** the value of a literal, or a list with the
values of the elements that are literals, and `null` for each of the others. -/
inductive GivesOption (value : Value) : Value → Prop where
  | literal {v : Value} (found : value.literal? = some v) : GivesOption value v
  | list {elements : List Value} (array : value.hasTag "ArrayExpression")
      (run : (value.get "elements").elements = .ok elements) :
      GivesOption value (.arr (elements.map fun e => .ofOption e.literal?))

/-- A list is no literal. -/
theorem literal?_eq_none_of_array (array : value.hasTag "ArrayExpression") :
    value.literal? = none := by
  rw [Value.literal?]
  simp [Value.hasTagIn_of_hasTag array, Value.hasTag_of_hasTag array]

theorem optionValue_eq_ok : optionValue value = .ok v ↔ GivesOption value v := by
  rw [optionValue]
  by_cases array : value.hasTag "ArrayExpression"
  · simp only [array, if_true]
    constructor
    · intro h
      obtain ⟨values, listed, h⟩ := bind_eq_ok.1 h
      obtain ⟨elements, run, listed⟩ := bind_eq_ok.1 listed
      cases h
      cases listed
      exact .list array run
    · intro h
      cases h with
      | literal found =>
        rw [literal?_eq_none_of_array array] at found
        cases found
      | list _ run =>
        rw [elementValues, run]
        rfl
  · simp only [array]
    constructor
    · intro h
      cases found : value.literal? with
      | none => simp [found] at h
      | some w =>
        simp only [found, Bool.false_eq_true, if_false, pure_eq, Except.ok.injEq] at h
        subst h
        exact .literal found
    · intro h
      cases h with
      | literal found => simp [found]
      | list array' => exact absurd array' array

/-- **Both names of a component on the old architecture** are given, and neither is empty. -/
def TwoPaperNames (t : Table Value) : Prop :=
  (t.entry "paperComponentName").truthy ∧ (t.entry "paperComponentNameDeprecated").truthy

instance (t : Table Value) : Decidable (TwoPaperNames t) :=
  inferInstanceAs (Decidable (_ ∧ _))

theorem componentOptions_eq_ok (given : expression.isNull = false)
    {options : Option (Table Value)} : componentOptions expression = .ok options ↔
      ∃ pairs t, GivesPairs GivesOption expression pairs ∧ t.Collects pairs ∧ ¬ TwoPaperNames t ∧
        options = some t := by
  have unfolded : componentOptions expression =
      ((objectProperties .optionsNoLiteral expression >>= fun properties =>
        properties.foldlM (fun (t : Table Value) (name, value) => do
          let v ← optionValue value
          return t.set (← name.key) v) []) >>= fun t =>
        if (t.entry "paperComponentName").truthy
            && (t.entry "paperComponentNameDeprecated").truthy then
          .error (.about .twoPaperNames expression)
        else .ok (some t)) := by
    rw [componentOptions, bind_assoc]
    simp only [given, Bool.false_eq_true, if_false]
    rfl
  have reads (value v : Value) : optionValue value = .ok v ↔ GivesOption value v :=
    optionValue_eq_ok
  rw [unfolded, bind_eq_ok]
  simp only [Bool.and_eq_true]
  constructor
  · rintro ⟨t, table, h⟩
    obtain ⟨pairs, gives, collected⟩ := (objectTable_eq_ok reads).1 table
    split at h
    · cases h
    · next names =>
      cases h
      exact ⟨pairs, t, gives, collected, names, rfl⟩
  · rintro ⟨pairs, t, gives, collected, names, rfl⟩
    exact ⟨t, (objectTable_eq_ok reads).2 ⟨pairs, gives, collected⟩, if_neg names⟩

/-! ### Expressions as a parser writes them -/

theorem isOk_iff {ε α : Type} {x : Except ε α} : x.isOk ↔ ∃ a, x = .ok a := by
  cases x <;> simp [Except.isOk, Except.toBool]

theorem isSome_scalar?_iff : v.scalar?.isSome ↔ ∃ s, v = .scalar s := by
  cases v <;> simp [Value.scalar?]

/-- **A node as a parser writes it,** as far as options read it: its place can be told, its key is a
name or a literal, and it has lists of properties and elements if it has any. -/
structure Value.Tidy (node : Value) : Prop where
  placed : ∃ place, Place.ofNode node = .ok place
  keyed : ∃ name, node.keyName = .scalar name
  listed : ∀ key ∈ ["properties", "elements"], ∃ items, (node.get key).elements = .ok items

/-- **An expression as a parser writes it,** node by node. -/
def LaidOut (expression : Value) : Prop := ∀ part ∈ expression.parts, part.isObject → part.Tidy

instance (node : Value) : Decidable node.Tidy :=
  decidable_of_iff ((Place.ofNode node).isOk ∧ node.keyName.scalar?.isSome ∧
    ∀ key ∈ ["properties", "elements"], (node.get key).elements.isOk) (by
      constructor
      · rintro ⟨placed, keyed, listed⟩
        exact ⟨isOk_iff.1 placed, isSome_scalar?_iff.1 keyed,
          fun key h => isOk_iff.1 (listed key h)⟩
      · rintro ⟨placed, keyed, listed⟩
        exact ⟨isOk_iff.2 placed, isSome_scalar?_iff.2 keyed,
          fun key h => isOk_iff.2 (listed key h)⟩)

instance (expression : Value) : Decidable (LaidOut expression) :=
  inferInstanceAs (Decidable (∀ part ∈ expression.parts, part.isObject → part.Tidy))

/-- A report that something has the wrong shape. -/
def Fault.Mismatch (fault : Fault) : Prop := ∃ r, fault = .report r ∧ r.cause.category = .shape

/-- A step that only fails since something has the wrong shape. -/
abbrev Matches {α : Type} (x : Checked α) : Prop := Avoids (fun fault => ¬ fault.Mismatch) x

/-- What is no node is read as nothing. -/
theorem Value.tidy_of_not_isObject {node : Value} (h : node.isObject = false) : node.Tidy := by
  have nothing (key : String) : node.get key = .null := Value.get_eq_null h key
  have unnamed : Value.identifierName .null = .null := by
    rw [Value.identifierName]
    rfl
  refine ⟨⟨.unknown, ?_⟩, ⟨.null, ?_⟩, fun key _ => ⟨[], ?_⟩⟩
  · rw [Place.ofNode, h]
    rfl
  · rw [Value.keyName, nothing, unnamed]
    rfl
  · rw [nothing]
    rfl

namespace LaidOut

variable {node : Value}

theorem tidy (h : LaidOut node) : node.Tidy := by
  by_cases object : node.isObject
  · exact h node (Value.mem_parts_self node) object
  · exact Value.tidy_of_not_isObject (Bool.eq_false_iff.2 object)

theorem get (h : LaidOut node) (key : String) : LaidOut (node.get key) := by
  intro part hpart object
  by_cases node_object : node.isObject
  · exact h part (Value.mem_parts_trans hpart _ (Value.get_mem_parts node_object key)) object
  -- what is read off anything else than a node has no nodes in it
  · rw [Value.get_eq_null (Bool.eq_false_iff.2 node_object)] at hpart
    rw [List.mem_singleton.1 hpart] at object
    cases object

theorem of_mem_elements (h : LaidOut node) {items : List Value} (run : node.elements = .ok items)
    {item : Value} (hitem : item ∈ items) : LaidOut item :=
  fun part hpart object => h part (Value.mem_parts_of_mem_elements run hitem hpart object) object

theorem mismatch_about (h : LaidOut node) {cause : Cause} (shape : cause.category = .shape) :
    (Fault.about cause node).Mismatch := by
  obtain ⟨place, placed⟩ := h.tidy.placed
  rw [Fault.about_of_placed placed]
  exact ⟨_, rfl, shape⟩

theorem matches_about (h : LaidOut node) {α : Type} {cause : Cause}
    (shape : cause.category = .shape) : Matches (.error (.about cause node) : Checked α) :=
  avoids_error.2 (not_not_intro (h.mismatch_about shape))

/-- Lists can be run through. -/
theorem matches_elements (h : LaidOut node) {key : String}
    (hkey : key ∈ ["properties", "elements"]) : Matches (node.get key).elements := by
  obtain ⟨items, run⟩ := h.tidy.listed key hkey
  rw [run]
  exact avoids_ok items

theorem matches_objectProperties (h : LaidOut node) {cause : Cause}
    (shape : cause.category = .shape) : Matches (objectProperties cause node) := by
  rw [objectProperties]
  by_cases object : node.hasTag "ObjectExpression"
  · simp only [object, Bool.not_true, Bool.false_eq_true, if_false]
    refine (h.matches_elements (by decide)).bind fun items run => .mapM fun item hitem => ?_
    rw [objectProperty]
    split
    · exact ((h.get "properties").of_mem_elements run hitem).matches_about shape
    · exact avoids_ok _
  · simp only [object, Bool.not_false, if_true]
    exact h.matches_about shape

theorem matches_optionValue (h : LaidOut node) : Matches (optionValue node) := by
  rw [optionValue]
  split
  · rw [elementValues, bind_assoc]
    exact (h.matches_elements (by decide)).bind fun _ _ => avoids_ok _
  · split
    · exact avoids_ok _
    · exact h.matches_about rfl

/-- **What is read off properties** is a key and an option, each as a parser writes it. -/
theorem matches_componentOptions (h : LaidOut node) : Matches (componentOptions node) := by
  rw [componentOptions]
  split
  · exact avoids_ok _
  refine (h.matches_objectProperties rfl).bind fun properties given => ?_
  refine Avoids.bind (.foldlM (fun t p hp => ?_) []) fun t _ => ?_
  · -- each pair comes from a property of the expression
    obtain ⟨-, items, run, properties_give⟩ := objectProperties_eq_ok.1 given
    obtain ⟨item, hitem, property⟩ := exists_mem_of_mem_mapM (mapM_eq_ok.2 properties_give) hp
    obtain ⟨name, value⟩ := p
    obtain ⟨-, -, rfl, rfl⟩ := objectProperty_eq_ok.1 property
    have laid := (h.get "properties").of_mem_elements run hitem
    obtain ⟨name, keyed⟩ := laid.tidy.keyed
    refine (laid.get "value").matches_optionValue.bind fun v _ => ?_
    rw [keyed]
    exact avoids_ok _
  · split
    · exact h.matches_about rfl
    · exact avoids_ok _

end LaidOut

/-! ### Which options are read -/

/-- **The options of a component are what is given in an object literal.** Options are read exactly
if an expression is an object literal all of whose properties give something, and not both of the
names that exclude each other. Each key then stands where it is first given, with what is given for
it last, and nothing else is there. Any other expression is reported to have the wrong shape. -/
theorem options_are_what_is_given {expression : Value} (given : expression.isNull = false) :
    (∀ options, componentOptions expression = .ok options ↔
      ∃ pairs t, GivesPairs GivesOption expression pairs ∧ t.Collects pairs ∧ ¬ TwoPaperNames t ∧
        options = some t) ∧
    (LaidOut expression →
      ∀ fault, componentOptions expression = .error fault → fault.Mismatch) := by
  refine ⟨fun options => componentOptions_eq_ok given, fun laid fault failed => ?_⟩
  by_contra other
  exact laid.matches_componentOptions fault failed other

namespace Sample

/-- An object literal with a value for each of some keys. -/
def objectWith (properties : List (String × Value)) : Value :=
  node "ObjectExpression" [("properties", .arr (properties.map fun p =>
    node "ObjectProperty" [("key", identifier p.1), ("value", p.2)]))]

def listWith (elements : List Value) : Value := node "ArrayExpression" [("elements", .arr elements)]

def text (s : String) : Value := node "StringLiteral" [("value", .str s)]

def truth (b : Bool) : Value := node "BooleanLiteral" [("value", .bool b)]

/-- The options of a slider, one of them given twice, with a name among the platforms. -/
def sliderOptions : Value :=
  objectWith [("interfaceOnly", truth false),
    ("excludedPlatforms", listWith [text "iOS", identifier "PLATFORM"]),
    ("interfaceOnly", truth true)]

/-- Options that leave the platforms to a name. -/
def namedPlatforms : Value := objectWith [("excludedPlatforms", identifier "PLATFORMS")]

end Sample

open Sample in
theorem options_are_what_is_given_slider :
    componentOptions sliderOptions = .ok (some [("interfaceOnly", .bool true),
      ("excludedPlatforms", .arr ["iOS", .null])]) ∧
    ∃ fault, componentOptions namedPlatforms = .error fault ∧ fault.Mismatch := by
  constructor
  · have pair {name : String} {value v : Value} (gives : GivesOption value v) :
        GivesPair GivesOption
          (node "ObjectProperty" [("key", identifier name), ("value", value)]) (.str name, v) := by
      have key : (node "ObjectProperty" [("key", identifier name), ("value", value)]).keyName =
          .str name := keyName_property name Value.null
      exact ⟨rfl, key, by rw [key]; rfl, gives⟩
    have platforms : GivesOption (listWith [text "iOS", identifier "PLATFORM"])
        (.arr ["iOS", .null]) := by
      have listed : [text "iOS", identifier "PLATFORM"].map (fun e => Value.ofOption e.literal?) =
          [.str "iOS", .null] := by with_unfolding_all rfl
      exact listed ▸ .list rfl rfl
    have gives : GivesPairs GivesOption sliderOptions [("interfaceOnly", .bool false),
        ("excludedPlatforms", .arr ["iOS", .null]), ("interfaceOnly", .bool true)] :=
      ⟨by decide, _, rfl, .cons (pair (.literal (by with_unfolding_all rfl)))
        (.cons (pair platforms) (.cons (pair (.literal (by with_unfolding_all rfl))) .nil))⟩
    have collected : Table.Collects (α := Value) [("interfaceOnly", .bool true),
        ("excludedPlatforms", .arr ["iOS", .null])] [("interfaceOnly", .bool false),
          ("excludedPlatforms", .arr ["iOS", .null]), ("interfaceOnly", .bool true)] :=
      Table.collects_iff.2 rfl
    exact ((options_are_what_is_given rfl).1 _).2 ⟨_, _, gives, collected, by decide, rfl⟩
  · cases read : componentOptions namedPlatforms with
    | error fault =>
      exact ⟨fault, rfl, (options_are_what_is_given rfl).2 (by decide +kernel) fault read⟩
    | ok options =>
      have failed : (componentOptions namedPlatforms).isOk = false := by decide +kernel
      rw [read] at failed
      cases failed

open Sample in
/-- **What is listed in an option need not be a literal.** -/
theorem not_listed_elements_are_literals : ¬ ∀ expression options,
    componentOptions expression = .ok options →
      ∀ property ∈ (expression.get "properties").listOrEmpty,
        (property.get "value").hasTag "ArrayExpression" →
          ∀ element ∈ ((property.get "value").get "elements").listOrEmpty,
            element.literal?.isSome := by
  intro literals
  have read : ∃ options, componentOptions (objectWith
      [("excludedPlatforms", listWith [identifier "PLATFORM"])]) = .ok options :=
    ⟨_, by with_unfolding_all rfl⟩
  obtain ⟨options, read⟩ := read
  have literal := literals _ options read _ List.mem_cons_self rfl _ List.mem_cons_self
  have none : (identifier "PLATFORM").literal?.isSome = false := by decide +kernel
  rw [none] at literal
  cases literal

end ComponentSpec
