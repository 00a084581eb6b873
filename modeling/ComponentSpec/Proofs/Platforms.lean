import Mathlib.Data.Set.List
import ComponentSpec.Proofs.Building

/-!
# Reducing a library to a platform

A component says in its options which platforms exclude it. The options of a component can hold any
literals, and lists of whatever else, while a reduction reads the exclusions as a list of texts. So
files that build need not make a library for a platform: they do exactly if the exclusions of every
schema that is kept can be read so (`reduction_completes_iff`). Where they cannot, the reduction is
stopped by the layout of the library, and not by a report about a file
(`Library.misfit_of_forPlatform_eq_error`).

Options are looked up by name in the entry of a component, which holds what the schema's options
hold, since the keys of options do not repeat (`distinct_of_componentOptions`) and no facet has the
name.

* `Checked.Completes` — a step that gives something;
* `NamesPlatforms`, `ComponentSchema.ExcludesNames` — exclusions that can be read;
* `Made`, `HoldsSchemas` — libraries that are made of schemas;
* `reduction_completes_iff` — when a library can be reduced.
-/

namespace ComponentSpec

open Checked

variable {disk : Disk} {files : List String} {schemas : List ComponentSchema}
  {platform : Option String} {s : ComponentSchema}

/-! ### Options -/

/-- **The keys of options do not repeat.** -/
theorem distinct_of_componentOptions {expression : Value} {options : Option (Table Value)}
    (h : componentOptions expression = .ok options) : (options.getD []).Distinct := by
  have kept {properties : List (Value × Value)} {t u : Table Value} (dict : t.Distinct)
      (h : properties.foldlM (fun (options : Table Value) property => do
        let v ← optionValue property.2
        return options.set (← property.1.key) v) t = .ok u) : u.Distinct := by
    -- each property is set in the table so far, whose keys stay apart
    induction properties generalizing t with
    | nil =>
      cases h
      exact dict
    | cons property properties ih =>
      rw [List.foldlM_cons] at h
      obtain ⟨t', first, h⟩ := bind_eq_ok.1 h
      obtain ⟨v, -, first⟩ := bind_eq_ok.1 first
      obtain ⟨k, -, first⟩ := bind_eq_ok.1 first
      cases first
      exact ih (dict.set k v) h
  rw [componentOptions] at h
  split at h
  · cases h
    exact List.Pairwise.nil
  · obtain ⟨properties, -, h⟩ := bind_eq_ok.1 h
    obtain ⟨t, read, h⟩ := bind_eq_ok.1 h
    dsimp only at h
    split at h
    · cases h
    · cases h
      exact kept List.Pairwise.nil read

theorem distinct_of_componentSchema {tree : Value} (h : componentSchema tree = .ok s) :
    (s.options.getD []).Distinct := by
  obtain ⟨blueprint, types, -, -, h⟩ := componentSchema_eq_ok.1 h
  -- of all that an assembly reads only the options matter
  obtain ⟨_, -, h⟩ := bind_eq_ok.1 h
  obtain ⟨_, -, h⟩ := bind_eq_ok.1 h
  obtain ⟨_, -, h⟩ := bind_eq_ok.1 h
  obtain ⟨_, -, h⟩ := bind_eq_ok.1 h
  obtain ⟨options, read, h⟩ := bind_eq_ok.1 h
  obtain ⟨_, -, h⟩ := bind_eq_ok.1 h
  obtain ⟨_, -, h⟩ := bind_eq_ok.1 h
  obtain ⟨_, -, h⟩ := bind_eq_ok.1 h
  obtain ⟨_, -, h⟩ := bind_eq_ok.1 h
  obtain ⟨_, -, h⟩ := bind_eq_ok.1 h
  cases h
  exact distinct_of_componentOptions read

/-- The option of a name, `null` where there is none. -/
def ComponentSchema.option (s : ComponentSchema) (key : String) : Value :=
  ((s.options.getD []).find? key).getD .null

/-! ### Steps that complete -/

namespace Checked

variable {α β : Type} {x : Checked α}

/-- **A step that gives something.** -/
def Completes (x : Checked α) : Prop := ∃ a, x = .ok a

@[simp] theorem completes_ok (a : α) : Completes (.ok a : Checked α) := ⟨a, rfl⟩

@[simp] theorem not_completes_error (e : Fault) : ¬ Completes (.error e : Checked α) :=
  fun ⟨_, h⟩ => nomatch h

theorem completes_bind {f : α → Checked β} :
    Completes (x >>= f) ↔ ∃ a, x = .ok a ∧ Completes (f a) := by
  constructor
  · rintro ⟨b, h⟩
    obtain ⟨a, ha, hb⟩ := bind_eq_ok.1 h
    exact ⟨a, ha, b, hb⟩
  · rintro ⟨a, rfl, completes⟩
    exact completes

/-- A step after which nothing can go wrong. -/
@[simp] theorem completes_bind_ok {f : α → β} :
    Completes (x >>= fun a => .ok (f a)) ↔ Completes x := by
  rw [completes_bind]
  exact exists_congr fun a => and_iff_left (completes_ok (f a))

theorem completes_mapM {xs : List α} {f : α → Checked β} :
    Completes (xs.mapM f) ↔ ∀ a ∈ xs, Completes (f a) := by
  constructor
  · rintro ⟨ys, h⟩ a ha
    exact exists_of_mem_of_mapM_eq_ok h ha
  · intro h
    cases given : xs.mapM f with
    | ok ys => exact completes_ok ys
    | error e =>
      obtain ⟨a, ha, failed⟩ := exists_mem_of_mapM_eq_error given
      have completes := h a ha
      rw [failed] at completes
      exact absurd completes (not_completes_error e)

end Checked

/-! ### Names of platforms -/

/-- **A value that is read as names of platforms:** it is run through in nothing but texts. -/
def NamesPlatforms (v : Value) : Prop := ∃ names : List String, v.elements = .ok (names.map .str)

namespace Library

theorem completes_platformName {v : Value} :
    Completes (platformName v) ↔ ∃ name, v = .str name := by
  unfold platformName
  split
  · simp
  · next noText => simpa using noText

theorem completes_mapM_platformName {vs : List Value} :
    Completes (vs.mapM platformName) ↔ ∃ names : List String, vs = names.map .str := by
  rw [completes_mapM]
  constructor
  · intro h
    have texts : vs ∈ Set.range (List.map Value.str) := by
      rw [Set.range_list_map]
      intro v hv
      obtain ⟨name, same⟩ := completes_platformName.1 (h v hv)
      exact ⟨name, same.symm⟩
    obtain ⟨names, same⟩ := texts
    exact ⟨names, same.symm⟩
  · rintro ⟨names, rfl⟩ v hv
    obtain ⟨name, -, rfl⟩ := List.mem_map.1 hv
    exact completes_platformName.2 ⟨name, rfl⟩

/-- Whether a component excludes a platform can be told where its exclusions are names. -/
theorem completes_excludes {entry : Table Value} {platform : String} :
    Completes (excludes (.obj entry) platform) ↔
      NamesPlatforms ((entry.find? "excludedPlatforms").getD .null) := by
  have looked : entryOr (.obj entry) "excludedPlatforms" .null =
      .ok ((entry.find? "excludedPlatforms").getD .null) := rfl
  have read (vs : List Value) :
      Completes (vs.mapM platformName >>= fun names => pure (names.contains platform)) ↔
        ∃ names : List String, vs = names.map .str := by
    rw [← completes_mapM_platformName]
    exact completes_bind_ok
  rw [excludes, looked, ok_bind, completes_bind, NamesPlatforms]
  constructor
  · rintro ⟨vs, run, completes⟩
    obtain ⟨names, rfl⟩ := (read vs).1 completes
    exact ⟨names, run⟩
  · rintro ⟨names, run⟩
    exact ⟨_, run, (read _).2 ⟨names, rfl⟩⟩

/-- Whether a platform keeps the component of a schema can be told where it excludes names. -/
theorem completes_keepModule (dict : (s.options.getD []).Distinct) (platform : String) :
    Completes (keepModule platform s.module) ↔ NamesPlatforms (s.option "excludedPlatforms") := by
  -- the module of a schema has this component and no other
  let component : Scalar × Value := (.str s.name, .obj (s.toRecord.component (s.options.getD [])))
  have tests : List.filterM (fun c : Scalar × Value => Bool.not <$> excludes c.2 platform)
      [component] = excludes component.2 platform >>= fun out =>
        .ok (if out then [] else [component]) := by
    simp only [List.filterM, List.filterAuxM]
    cases excludes component.2 platform with
    | error e => rfl
    | ok out => cases out <;> rfl
  have steps : keepModule platform s.module =
      List.filterM (fun c : Scalar × Value => Bool.not <$> excludes c.2 platform) [component] >>=
        fun kept => .ok (if kept.isEmpty then none
          else some (s.module.put "components" (.obj kept))) := rfl
  have holds := ComponentRecord.holds_component (r := s.toRecord) dict
  rw [steps, tests, completes_bind_ok, completes_bind_ok, completes_excludes,
    holds.others _ (by decide), ComponentSchema.option]

/-- **A library can be reduced** where each of its modules can. -/
theorem completes_forPlatform {modules : Table Value} {platform : String} (named : platform ≠ "") :
    Completes (forPlatform (ofModules modules) (.str platform)) ↔
      ∀ e ∈ modules, Completes (keepModule (Text.lowercase platform) e.2) := by
  have truthy : (Value.str platform).truthy = true := by simp [Value.truthy, Scalar.truthy, named]
  have steps : forPlatform (ofModules modules) (.str platform) =
      modules.mapM (fun e => do
        return (← keepModule (Text.lowercase platform) e.2).map (e.1, ·)) >>= fun kept =>
          .ok (ofModules (kept.filterMap id)) := by
    rw [forPlatform]
    simp only [truthy]
    rfl
  rw [steps, completes_bind_ok, completes_mapM]
  refine forall₂_congr fun e _ => ?_
  exact completes_bind_ok

/-- **What stops a reduction** is the layout of the library. -/
theorem misfit_of_forPlatform_eq_error {library platform : Value} {e : Fault}
    (h : forPlatform library platform = .error e) : ∃ m, e = .misfit m := by
  have elements (v : Value) : Avoids (fun e => ∀ m, e ≠ .misfit m) v.elements := by
    unfold Value.elements
    split
    · simp
    · split <;> simp
  have entryOr (v : Value) (key : String) (substitute : Value) :
      Avoids (fun e => ∀ m, e ≠ .misfit m) (entryOr v key substitute) := by
    unfold Library.entryOr
    split <;> simp
  have tableOf (v : Value) : Avoids (fun e => ∀ m, e ≠ .misfit m) (tableOf v) := by
    unfold Library.tableOf
    split <;> simp
  have name (v : Value) : Avoids (fun e => ∀ m, e ≠ .misfit m) (platformName v) := by
    unfold platformName
    split <;> simp
  have excludes (component : Value) (platform : String) :
      Avoids (fun e => ∀ m, e ≠ .misfit m) (excludes component platform) := by
    simp [Library.excludes, entryOr, elements, Avoids.mapM fun v _ => name v]
  have keep (platform : String) (module : Value) :
      Avoids (fun e => ∀ m, e ≠ .misfit m) (keepModule platform module) := by
    simp [keepModule, entryOr, tableOf, excludes, Avoids.filterM]
  have all : Avoids (fun e => ∀ m, e ≠ .misfit m) (forPlatform library platform) := by
    simp [forPlatform, modules, entryOr, tableOf, name, keep, Avoids.mapM]
  simpa using all e h

end Library

/-! ### Libraries of schemas -/

/-- What holds of all modules that are gathered holds, said of the schemas, of the last of each
name. -/
theorem forall_mem_entries_iff {P : Value → Prop} :
    (∀ e ∈ Table.ofPairs (schemas.map ComponentSchema.entry), P e.2) ↔
      ∀ before s after, schemas = before ++ s :: after → (∀ t ∈ after, t.name ≠ s.name) →
        P s.module := by
  have last (s : ComponentSchema) (after : List ComponentSchema) :
      Table.has (after.map ComponentSchema.entry) (.str s.name) = false ↔
        ∀ t ∈ after, t.name ≠ s.name := by
    rw [Table.has, List.any_map, List.any_eq_false]
    refine forall₂_congr fun t _ => ?_
    simp [ComponentSchema.entry]
  rw [Table.forall_mem_ofPairs_iff]
  constructor
  · rintro all before s after rfl others
    refine all (before.map ComponentSchema.entry) (.str s.name) s.module
      (after.map ComponentSchema.entry) ?_ ((last s after).2 others)
    rw [List.map_append, List.map_cons]
    rfl
  · intro all before k v after split others
    obtain ⟨before, rest, rfl, rfl, ends⟩ := List.map_eq_append_iff.1 split
    obtain ⟨s, after, rfl, same, rfl⟩ := List.map_eq_cons_iff.1 ends
    cases same
    exact all before s after rfl ((last s after).1 others)

/-- **A library that is made of schemas,** by wrapping and combining. -/
inductive Made : Value → Prop where
  | wrap {tree library : Value} {s : ComponentSchema} (assembled : componentSchema tree = .ok s)
      (name : Option String) (wrapped : s.toRecord.wrap (.ofOption (name.map .str)) = .ok library) :
      Made library
  | combine {libraries : List Value} {library : Value} (made : ∀ l ∈ libraries, Made l)
      (combined : Library.combine libraries = .ok library) : Made library

/-- **The modules of a library that is made of schemas** are modules of schemas. -/
theorem Made.exists_modules {library : Value} (made : Made library) :
    ∃ modules, library = Library.ofModules modules ∧
      ∀ e ∈ modules, ∃ tree s, componentSchema tree = .ok s ∧ e.2 = s.module := by
  induction made with
  | @wrap tree library s assembled name wrapped =>
    rw [@ComponentRecord.wrap_eq s.toRecord s.options rfl] at wrapped
    cases wrapped
    refine ⟨_, rfl, fun e he => ⟨tree, s, assembled, ?_⟩⟩
    rw [List.mem_singleton.1 he]
    rfl
  | @combine libraries library _ combined ih =>
    have tables : libraries ∈ Set.range (List.map fun t : {t : Table Value // ∀ e ∈ t, ∃ tree s,
        componentSchema tree = .ok s ∧ e.2 = s.module} => Library.ofModules t.1) := by
      rw [Set.range_list_map]
      intro l hl
      obtain ⟨modules, rfl, each⟩ := ih l hl
      exact ⟨⟨modules, each⟩, rfl⟩
    obtain ⟨tables, rfl⟩ := tables
    have values : (tables.map fun t => Library.ofModules t.1) =
        (tables.map Subtype.val).map Library.ofModules := by
      rw [List.map_map]
      rfl
    rw [values, Library.combine_ofModules] at combined
    cases combined
    refine ⟨_, rfl, ?_⟩
    -- what is written into a table is all that it holds
    rw [Table.forall_mem_ofPairs_iff (P := fun module => ∃ tree s, componentSchema tree = .ok s ∧
      module = s.module)]
    intro before k v after split _
    have mem : (k, v) ∈ (tables.map Subtype.val).flatten := by rw [split]; simp
    obtain ⟨t, ht, mem⟩ := List.mem_flatten.1 mem
    obtain ⟨t', -, rfl⟩ := List.mem_map.1 ht
    exact t'.2 _ mem

/-- **Exclusions that can be read:** what a schema excludes are names of platforms. -/
def ComponentSchema.ExcludesNames (s : ComponentSchema) : Prop :=
  NamesPlatforms (s.option "excludedPlatforms")

theorem outcome_of_builds (built : List.Forall₂ (Builds disk) files schemas)
    (platform : Option String) : (buildLibrary disk files platform).outcome =
      Library.forPlatform
        (Library.ofModules (Table.ofPairs (schemas.map ComponentSchema.entry)))
        (.str (platform.getD "")) := by
  rw [buildLibrary_outcome, combine_of_builds built, ok_bind]

theorem distinct_of_builds {file : String} (built : Builds disk file s) :
    (s.options.getD []).Distinct := by
  obtain ⟨tree, -, assembled⟩ := bind_eq_ok.1 built
  exact distinct_of_componentSchema (schemaOfTree_eq_ok.1 assembled).2

/-- **Files that build** make a library for a platform where the last schema of each name excludes
names of platforms. -/
theorem completes_buildLibrary (built : List.Forall₂ (Builds disk) files schemas) :
    Completes (buildLibrary disk files platform).outcome ↔
      ∀ p ∈ platform, p ≠ "" → ∀ before s after, schemas = before ++ s :: after →
        (∀ t ∈ after, t.name ≠ s.name) → s.ExcludesNames := by
  rw [outcome_of_builds built]
  by_cases named : platform.getD "" = ""
  · rw [named]
    constructor
    · rintro - p hp other
      rw [Option.mem_def.1 hp] at named
      exact absurd named other
    · exact fun _ => ⟨_, rfl⟩
  · obtain ⟨p, rfl⟩ : ∃ p, platform = some p := by
      cases platform with
      | none => exact absurd rfl named
      | some p => exact ⟨p, rfl⟩
    have dict : ∀ s ∈ schemas, (s.options.getD []).Distinct :=
      Checked.forall_mem_of_forall₂ built fun _ _ => distinct_of_builds
    rw [Option.getD_some] at named ⊢
    rw [Library.completes_forPlatform named, forall_mem_entries_iff
      (P := fun module => Completes (Library.keepModule (Text.lowercase p) module))]
    simp only [Option.mem_some_iff, forall_eq', ne_eq, named, not_false_eq_true, forall_const]
    refine forall₄_congr fun before s after split => forall_congr' fun _ => ?_
    exact Library.completes_keepModule (dict s (by simp [split])) _

/-- **A library of schemas:** its modules are those of schemas that were assembled. -/
structure HoldsSchemas (held : List (Scalar × ComponentSchema)) (library : Value) : Prop where
  modules : library = Library.ofModules (held.map fun e => (e.1, e.2.module))
  assembled : ∀ e ∈ held, ∃ tree, componentSchema tree = .ok e.2

theorem Made.exists_schemas {library : Value} (made : Made library) :
    ∃ held, HoldsSchemas held library := by
  obtain ⟨modules, rfl, each⟩ := made.exists_modules
  -- the modules are those of schemas, one by one
  have schemas : modules ∈ Set.range (List.map
      fun e : {e : Scalar × ComponentSchema // ∃ tree, componentSchema tree = .ok e.2} =>
        (e.1.1, e.1.2.module)) := by
    rw [Set.range_list_map]
    intro e he
    obtain ⟨tree, s, assembled, same⟩ := each e he
    exact ⟨⟨(e.1, s), tree, assembled⟩, Prod.ext rfl same.symm⟩
  obtain ⟨held, rfl⟩ := schemas
  refine ⟨held.map Subtype.val, by rw [List.map_map]; rfl, fun e he => ?_⟩
  obtain ⟨e', -, rfl⟩ := List.mem_map.1 he
  exact e'.2

theorem HoldsSchemas.completes_forPlatform {held : List (Scalar × ComponentSchema)}
    {library : Value} (holds : HoldsSchemas held library) (platform : String) :
    Completes (Library.forPlatform library (.str platform)) ↔
      (platform ≠ "" → ∀ e ∈ held, e.2.ExcludesNames) := by
  obtain ⟨rfl, assembled⟩ := holds
  by_cases named : platform = ""
  · subst named
    exact ⟨fun _ other => absurd rfl other, fun _ => ⟨_, rfl⟩⟩
  · rw [Library.completes_forPlatform named, List.forall_mem_map]
    simp only [ne_eq, named, not_false_eq_true, forall_const]
    refine forall₂_congr fun e he => ?_
    obtain ⟨tree, assembled⟩ := assembled e he
    exact Library.completes_keepModule (distinct_of_componentSchema assembled) _

/-- **Reducing a library to a platform.** Of files that build, a library for a platform is made
exactly if the last schema of each name excludes names of platforms, and a library that is made of
schemas is reduced to a platform exactly if all of them do. What stops a build is no report. -/
theorem reduction_completes_iff (disk : Disk) (files : List String) (platform : Option String) :
    (∀ schemas, List.Forall₂ (Builds disk) files schemas →
      (Completes (buildLibrary disk files platform).outcome ↔
        ∀ p ∈ platform, p ≠ "" → ∀ before s after, schemas = before ++ s :: after →
          (∀ t ∈ after, t.name ≠ s.name) → s.ExcludesNames) ∧
      ∀ e, (buildLibrary disk files platform).outcome = .error e → ∃ m, e = .misfit m) ∧
    ∀ library, Made library →
      (∃ held, HoldsSchemas held library) ∧
      ∀ held, HoldsSchemas held library → ∀ platform : String,
        Completes (Library.forPlatform library (.str platform)) ↔
          (platform ≠ "" → ∀ e ∈ held, e.2.ExcludesNames) := by
  constructor
  · intro schemas built
    refine ⟨completes_buildLibrary built, fun e failed => ?_⟩
    rw [outcome_of_builds built] at failed
    exact Library.misfit_of_forPlatform_eq_error failed
  · intro library made
    exact ⟨made.exists_schemas, fun held holds => holds.completes_forPlatform⟩

namespace Sample

/-- A file whose component excludes some platforms. -/
def excludingFile (component : String) (excluded : List Value) : Value :=
  let options := node "ObjectExpression" [("properties", .arr [
    node "ObjectProperty" [("key", identifier "excludedPlatforms"),
      ("value", node "ArrayExpression" [("elements", .arr excluded)])]])]
  let call := node "CallExpression" [("callee", identifier "codegenNativeComponent"),
    ("typeParameters",
      node "TSTypeParameterInstantiation" [("params", .arr [reference "Props" []])]),
    ("arguments", .arr [node "StringLiteral" [("value", .str component)], options])]
  node "Program" [("body",
    .arr [dialProps, node "ExportDefaultDeclaration" [("declaration", call)]])]

def excluding (component : String) (excluded : List Value) : ComponentSchema where
  name := component
  options := some [("excludedPlatforms", .arr excluded)]
  inherited := []
  events := []
  props := []
  commands := []
  state := none

theorem componentSchema_excludingFile (component : String) (excluded : List Value) :
    componentSchema (excludingFile component excluded) = .ok (excluding component
      (excluded.map fun e => Value.ofOption e.literal?)) := by
  have declared : Declarations.ofTree (excludingFile component excluded) =
      .ok (table [("Props", dialProps)]) := by
    with_unfolding_all rfl
  have expanded : membersOf (table [("Props", dialProps)]) (.str "Props") = .ok [] :=
    membersOf_eq_ok.2 ⟨_, _, .ofInterface rfl rfl rfl rfl, .nil⟩
  have located : Blueprint.locate (excludingFile component excluded) = .ok ⟨component, "Props", "",
      none, none, some [("type", "ObjectExpression"), ("properties", .arr [
        node "ObjectProperty" [("key", identifier "excludedPlatforms"),
          ("value", node "ArrayExpression" [("elements", .arr excluded)])]])]⟩ := by
    with_unfolding_all rfl
  simp only [componentSchema_eq, located, declared, ok_bind, schemaOf, expanded, assembleState,
    Resolver.standard]
  -- an empty list is not run through like any other
  cases excluded <;> with_unfolding_all rfl

/-- Two files, of which one excludes a platform and the other `null`. -/
def rack : Disk where
  root := .directory [
    ("picker.json", .file (Utf8.encode (Json.write 2
      (excludingFile "Picker" [node "StringLiteral" [("value", "iOS")]])))),
    ("slider.json", .file (Utf8.encode (Json.write 2
      (excludingFile "Slider" [node "NullLiteral" []]))))]
  working := []
  home := "/"

theorem builds_picker : Builds rack "picker.json" (excluding "Picker" ["iOS"]) := by
  have held : rack.read "picker.json" = .ok (Utf8.encode (Json.write 2
      (excludingFile "Picker" [node "StringLiteral" [("value", "iOS")]]))) := by
    with_unfolding_all rfl
  have plain : Json.isPlain (excludingFile "Picker" [node "StringLiteral" [("value", "iOS")]]) := by
    with_unfolding_all rfl
  have assembled := componentSchema_excludingFile "Picker" [node "StringLiteral" [("value", "iOS")]]
  refine builds_of_written held plain rfl (assembled.trans ?_) rfl
  with_unfolding_all rfl

theorem builds_slider : Builds rack "slider.json" (excluding "Slider" [.null]) := by
  have held : rack.read "slider.json" = .ok (Utf8.encode (Json.write 2
      (excludingFile "Slider" [node "NullLiteral" []]))) := by
    with_unfolding_all rfl
  have plain : Json.isPlain (excludingFile "Slider" [node "NullLiteral" []]) := by
    with_unfolding_all rfl
  have assembled := componentSchema_excludingFile "Slider" [node "NullLiteral" []]
  refine builds_of_written held plain rfl (assembled.trans ?_) rfl
  with_unfolding_all rfl

theorem not_excludesNames_slider : ¬ (excluding "Slider" [.null]).ExcludesNames := by
  rintro ⟨names, run⟩
  have items : [Value.null] = names.map Value.str := Except.ok.inj run
  cases names with
  | nil => cases items
  | cons name names => cases (List.cons.inj items).1

end Sample

open Sample in
/-- A library with the picker alone is there for every platform; with the slider there is none for a
platform. -/
theorem reduction_completes_iff_rack :
    (∀ platform, Completes (buildLibrary rack ["picker.json"] platform).outcome) ∧
    (∃ m, (buildLibrary rack ["picker.json", "slider.json"] (some "ios")).outcome =
      .error (.misfit m)) ∧
    ∃ library, Made library ∧ Completes (Library.forPlatform library "ios") := by
  refine ⟨fun platform => ?_, ?_, ?_⟩
  · have picker := (reduction_completes_iff rack _ platform).1 _ (.cons builds_picker .nil)
    refine picker.1.2 ?_
    intro p _ _ before s after split _
    have mem : s ∈ [excluding "Picker" ["iOS"]] := by simp [split]
    rw [List.mem_singleton.1 mem]
    exact ⟨["iOS"], rfl⟩
  · obtain ⟨completes, misfit⟩ := (reduction_completes_iff rack _ (some "ios")).1 _
      (.cons builds_picker (.cons builds_slider .nil))
    cases outcome : (buildLibrary rack ["picker.json", "slider.json"] (some "ios")).outcome with
    | ok library =>
      have names := completes.1 ⟨library, outcome⟩ "ios" rfl (by decide)
        [excluding "Picker" ["iOS"]] _ [] rfl fun _ h => absurd h List.not_mem_nil
      exact absurd names not_excludesNames_slider
    | error e =>
      obtain ⟨m, rfl⟩ := misfit e outcome
      exact ⟨m, rfl⟩
  · have assembled := componentSchema_excludingFile "Picker" []
    have made := Made.wrap assembled none (ComponentSchema.wrap_toRecord _)
    have all : ∀ e ∈ [(Scalar.str "Picker", excluding "Picker" [])],
        ∃ tree, componentSchema tree = .ok e.2 := by
      intro e he
      rw [List.mem_singleton.1 he]
      exact ⟨_, assembled⟩
    have holds : HoldsSchemas _ _ := ⟨rfl, all⟩
    have libraries := (reduction_completes_iff rack [] none).2
    refine ⟨_, made, ((libraries _ made).2 _ holds "ios").2 fun _ e he => ?_⟩
    rw [List.mem_singleton.1 he]
    exact ⟨[], rfl⟩

open Sample in
/-- There are files that build and a platform without a library. -/
theorem not_completes_buildLibrary : ¬ ∀ (disk : Disk) (files : List String) (platform : String),
    (∀ f ∈ files, ∃ s, Builds disk f s) →
      ∃ library, (buildLibrary disk files (some platform)).outcome = .ok library := by
  intro claim
  have built : ∀ f ∈ ["slider.json"], ∃ s, Builds rack f s := by
    intro f hf
    rw [List.mem_singleton.1 hf]
    exact ⟨_, builds_slider⟩
  have names := (completes_buildLibrary (.cons builds_slider .nil)).1 (claim rack _ "ios" built)
    "ios" rfl (by decide) [] _ [] rfl fun _ h => absurd h List.not_mem_nil
  exact not_excludesNames_slider names

end ComponentSpec
