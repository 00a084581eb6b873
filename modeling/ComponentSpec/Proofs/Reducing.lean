import ComponentSpec.Library
import ComponentSpec.Proofs.Checked
import ComponentSpec.Proofs.Parts
import ComponentSpec.Proofs.Sample

/-!
# What a reduction keeps

A reduction to a platform runs through the modules of a library and, in a module of components,
through the components. It asks each component for the platforms that it excludes. Where these are
names, as they are in a library that is well typed, nothing can go wrong, and the reduction is a
plain function of the modules: a module of components is left with those that do not exclude the
platform, and is left out if there are none, also if it had none before; every other module stays as
it is (`forPlatform_eq`).

The function only depends on the test that it puts to the components. Selecting twice, by one test
and then by another, is selecting once by both (`selectModule_bind`), whichever of the two empties a
module. That both tests can be put in either order is all that the laws of reductions need.

* `TableAt`, `Excludes`, `WellTyped` — libraries whose components exclude names;
* `keepsOn` — whether a component is kept on a platform;
* `selectModule`, `selectModules` — the modules with the components that pass a test;
* `forPlatform_eq` — a reduction selects what is kept;
* `reduction_selects` — what a reduction keeps, and the laws of reductions.
-/

namespace ComponentSpec

open Checked

/-! ### Writing an entry twice -/

/-- Of two entries written under one key the second stays. -/
theorem Table.set_set {α : Type} (t : Table α) (k : Scalar) (v w : α) :
    (t.set k v).set k w = t.set k w := by
  induction t with
  | nil => simp [set]
  | cons e t ih =>
    obtain ⟨k', v'⟩ := e
    by_cases here : k'.same k
    · simp [set, here]
    · simp [set, here, ih]

theorem Value.put_put (v : Value) (key : String) (a b : Value) :
    (v.put key a).put key b = v.put key b := by
  cases v with
  | obj entries => simp [put, Table.set_set]
  | scalar | arr => rfl

theorem Value.isObject_put (v : Value) (key : String) (a : Value) :
    (v.put key a).isObject = v.isObject := by
  cases v <;> rfl

namespace Library

/-! ### Well-typed libraries -/

/-- **A table under a key,** empty where an object does not have the key. -/
inductive TableAt (v : Value) (key : String) : Table Value → Prop where
  | missing (object : v.isObject) (absent : v.hasKey key = false) : TableAt v key []
  | given {entries : Table Value} (read : v.get key = .obj entries) : TableAt v key entries

/-- **The names of the platforms that a component excludes:** none where nothing is said or `null`,
else a list of texts. -/
inductive Excludes (component : Value) : List String → Prop where
  | nothing (object : component.isObject) (unsaid : component.get "excludedPlatforms" = .null) :
      Excludes component []
  | names {names : List String}
      (listed : component.get "excludedPlatforms" = .arr (names.map .str)) :
      Excludes component names

/-- **A module whose components, if it is one of components, exclude names.** -/
structure ModuleTyped (module : Value) : Prop where
  object : module.isObject
  components : module.hasTag "Component" → ∃ components, TableAt module "components" components ∧
    ∀ c ∈ components, ∃ names, Excludes c.2 names

/-- **A well-typed library** with the given modules. -/
structure WellTyped (library : Value) (modules : Table Value) : Prop where
  table : TableAt library "modules" modules
  typed : ∀ e ∈ modules, ModuleTyped e.2

variable {v library module component : Value} {key : String} {entries modules : Table Value}
  {names : List String} {platform p q : String} {test test' : Value → Bool}

theorem isObject_of_get_eq_obj (h : v.get key = .obj entries) : v.isObject := by
  cases v with
  | obj => rfl
  | scalar | arr => cases h

theorem entryOr_of_isObject (object : v.isObject) (key : String) :
    entryOr v key .null = .ok (v.get key) := by
  cases v with
  | obj entries => rfl
  | scalar | arr => cases object

theorem TableAt.entryOr_eq (h : TableAt v key entries) :
    entryOr v key (.obj []) = .ok (.obj entries) := by
  cases h with
  | missing object absent =>
    obtain ⟨fields, rfl⟩ := Value.isObject_iff.1 object
    rw [entryOr, Table.find?_eq_none absent, Option.getD_none]
  | given read =>
    obtain ⟨fields, rfl⟩ := Value.isObject_iff.1 (isObject_of_get_eq_obj read)
    rw [Value.get] at read
    -- the entry is there, since a missing one is read as `null`
    cases found : Table.find? fields key with
    | none =>
      rw [found] at read
      cases read
    | some w =>
      rw [found] at read
      rw [entryOr, found]
      exact congrArg Except.ok read

/-! ### Selecting components -/

/-- The components of a module. -/
def componentsOf (module : Value) : Table Value :=
  match module.get "components" with
  | .obj components => components
  | _ => []

/-- The names in the exclusions of a component. -/
def excludedNames (component : Value) : List String :=
  (component.get "excludedPlatforms").listOrEmpty.filterMap Value.str?

/-- **Whether a component is kept on a platform:** none of the names that it excludes is that of the
platform, however they are capitalised. -/
def keepsOn (platform : String) (component : Value) : Bool :=
  (excludedNames component).all fun name => Text.lowercase name != Text.lowercase platform

/-- **What is selected of a module:** the components that pass a test, and nothing if there are none
in a module of components; any other module is selected as it is. -/
def selectModule (test : Value → Bool) (module : Value) : Option Value :=
  if module.hasTag "Component" then
    let kept := (componentsOf module).filter fun c => test c.2
    if kept.isEmpty then none else some (module.put "components" (.obj kept))
  else some module

/-- **The modules of which something is selected,** in their order. -/
def selectModules (test : Value → Bool) (modules : Table Value) : Table Value :=
  modules.filterMap fun e => (selectModule test e.2).map (e.1, ·)

theorem TableAt.componentsOf_eq (h : TableAt module "components" entries) :
    componentsOf module = entries := by
  cases h with
  | missing object absent => rw [componentsOf, Value.get_of_not_hasKey absent]
  | given read => rw [componentsOf, read]

theorem Excludes.excludedNames_eq (h : Excludes component names) :
    excludedNames component = names := by
  cases h with
  | nothing object unsaid =>
    rw [excludedNames, unsaid]
    rfl
  | names listed =>
    rw [excludedNames, listed]
    show (names.map Value.str).filterMap Value.str? = names
    rw [List.filterMap_map]
    exact List.filterMap_some

/-! ### A reduction of a well-typed library -/

theorem Excludes.mapM_platformName (names : List String) :
    (names.map Value.str).mapM platformName = .ok (names.map Text.lowercase) := by
  rw [mapM_eq_ok]
  refine List.forall₂_map_left_iff.2 (List.forall₂_map_right_iff.2 ?_)
  exact List.forall₂_same.2 fun _ _ => rfl

/-- Whether a component is left out is told by the names that it excludes. -/
theorem Excludes.excludes_eq (h : Excludes component names) (platform : String) :
    excludes component (Text.lowercase platform) = .ok (!keepsOn platform component) := by
  have object : component.isObject := by
    cases h with
    | nothing object => exact object
    | names listed =>
      cases component with
      | obj => rfl
      | scalar | arr => cases listed
  have run : (component.get "excludedPlatforms").elements = .ok (names.map .str) := by
    cases h with
    | nothing _ unsaid =>
      rw [unsaid]
      rfl
    | names listed => rw [listed, Value.elements_arr]
  have same : (names.map Text.lowercase).contains (Text.lowercase platform) =
      !keepsOn platform component := by
    rw [keepsOn, h.excludedNames_eq, Bool.eq_iff_iff]
    simp
  rw [excludes, entryOr_of_isObject object, ok_bind, run, ok_bind, mapM_platformName, ok_bind,
    same]
  rfl

/-- What a platform keeps of a module is selected by asking what is kept. -/
theorem ModuleTyped.keepModule_eq (h : ModuleTyped module) (platform : String) :
    keepModule (Text.lowercase platform) module =
      .ok (selectModule (keepsOn platform) module) := by
  rw [keepModule, entryOr_of_isObject h.object, ok_bind, selectModule]
  by_cases tag : module.hasTag "Component"
  · obtain ⟨components, held, typed⟩ := h.components tag
    have kind : (module.get "type").isText "Component" = true := tag
    have kept : components.filterM (fun c : Scalar × Value =>
        Bool.not <$> excludes c.2 (Text.lowercase platform)) =
          .ok (components.filter fun c => keepsOn platform c.2) := by
      refine filterM_eq_ok fun c hc => ?_
      obtain ⟨names, excluded⟩ := typed c hc
      rw [excluded.excludes_eq, map_ok, Bool.not_not]
    rw [kind, held.entryOr_eq, held.componentsOf_eq, if_pos tag]
    simp only [Bool.not_true, Bool.false_eq_true, if_false, ok_bind, tableOf, kept, pure_eq]
  · have kind : (module.get "type").isText "Component" = false := Bool.eq_false_iff.2 tag
    rw [kind, if_neg tag]
    rfl

/-- **A reduction selects what is kept.** -/
theorem WellTyped.forPlatform_eq (h : WellTyped library modules) (named : p ≠ "") :
    forPlatform library (.str p) = .ok (ofModules (selectModules (keepsOn p) modules)) := by
  have truthy : (Value.str p).truthy = true := by simp [Value.truthy, Scalar.truthy, named]
  have kept : modules.mapM (fun e : Scalar × Value =>
      keepModule (Text.lowercase p) e.2 >>= fun m => .ok (m.map (e.1, ·))) =
        .ok (modules.map fun e => (selectModule (keepsOn p) e.2).map (e.1, ·)) := by
    rw [mapM_eq_ok]
    refine List.forall₂_map_right_iff.2 (List.forall₂_same.2 fun e he => ?_)
    rw [(h.typed e he).keepModule_eq, ok_bind]
  have name : platformName (.str p) = .ok (Text.lowercase p) := rfl
  rw [forPlatform, truthy, name, Library.modules, h.table.entryOr_eq]
  simp only [Bool.not_true, Bool.false_eq_true, if_false, ok_bind, tableOf, pure_eq, kept,
    List.filterMap_map]
  rfl

/-! ### Selecting twice -/

theorem componentsOf_put (object : module.isObject) (kept : Table Value) :
    componentsOf (module.put "components" (.obj kept)) = kept := by
  rw [componentsOf, Value.get_put object]

/-- **Selecting by one test and then by another** is selecting by both. -/
theorem selectModule_bind (test test' : Value → Bool) (module : Value) :
    (selectModule test module).bind (selectModule test') =
      selectModule (fun c => test c && test' c) module := by
  by_cases tag : module.hasTag "Component"
  · have both : ((componentsOf module).filter fun c => test c.2).filter (fun c => test' c.2) =
        (componentsOf module).filter fun c => test c.2 && test' c.2 := by
      rw [List.filter_filter]
      exact List.filter_congr fun c _ => Bool.and_comm _ _
    rw [selectModule, selectModule, if_pos tag, if_pos tag, ← both]
    generalize (componentsOf module).filter (fun c => test c.2) = kept
    cases kept with
    -- a module that the first test empties has nothing left for the second
    | nil => rfl
    | cons c kept =>
      have object : module.isObject := Value.isObject_of_hasTag tag
      have tag' : (module.put "components" (.obj (c :: kept))).hasTag "Component" := by
        rw [Value.hasTag, Value.tag, Value.get_put_of_ne (by decide)]
        exact tag
      show selectModule test' (module.put "components" (.obj (c :: kept))) = _
      rw [selectModule, if_pos tag', componentsOf_put object]
      simp only [Value.put_put]
  · have alone (test : Value → Bool) : selectModule test module = some module := by
      rw [selectModule, if_neg tag]
    rw [alone, alone, Option.bind_some, alone]

theorem selectModules_selectModules (test test' : Value → Bool) (modules : Table Value) :
    selectModules test' (selectModules test modules) =
      selectModules (fun c => test c && test' c) modules := by
  rw [selectModules, selectModules, selectModules, List.filterMap_filterMap]
  refine List.filterMap_congr fun e _ => ?_
  rw [← selectModule_bind]
  cases selectModule test e.2 <;> rfl

/-- What is selected of a well-typed module is well typed. -/
theorem ModuleTyped.of_selectModule {module' : Value} (h : ModuleTyped module)
    (selected : selectModule test module = some module') : ModuleTyped module' := by
  rw [selectModule] at selected
  split at selected
  · next tag =>
    obtain ⟨components, held, typed⟩ := h.components tag
    rw [held.componentsOf_eq] at selected
    dsimp only at selected
    split at selected
    · cases selected
    · cases selected
      refine ⟨by rw [Value.isObject_put, h.object], fun _ => ?_⟩
      refine ⟨_, .given (Value.get_put h.object _ _), ?_⟩
      exact fun c hc => typed c (List.mem_of_mem_filter hc)
  · cases selected
    exact h

theorem WellTyped.select (h : WellTyped library modules) (test : Value → Bool) :
    WellTyped (ofModules (selectModules test modules)) (selectModules test modules) := by
  refine ⟨.given rfl, fun e he => ?_⟩
  obtain ⟨e', he', selected⟩ := List.mem_filterMap.1 he
  obtain ⟨module', kept, rfl⟩ := Option.map_eq_some_iff.1 selected
  exact (h.typed e' he').of_selectModule kept

/-- Reducing to one platform and then to another selects what both keep. -/
theorem WellTyped.forPlatform_bind (h : WellTyped library modules) (hp : p ≠ "") (hq : q ≠ "") :
    (forPlatform library (.str p) >>= fun reduced => forPlatform reduced (.str q)) =
      .ok (ofModules (selectModules (fun c => keepsOn p c && keepsOn q c) modules)) := by
  rw [h.forPlatform_eq hp, ok_bind, (h.select (keepsOn p)).forPlatform_eq hq,
    selectModules_selectModules]

/-! ### The laws of reductions -/

theorem keepsOn_congr (same : Text.lowercase p = Text.lowercase q) : keepsOn p = keepsOn q := by
  funext component
  rw [keepsOn, keepsOn, same]

/-- **What a reduction keeps.** A well-typed library reduced to a platform has, in their order, the
modules that are none of components and those of which a component is kept, with just the components
whose exclusions do not name the platform. Reducing it again changes nothing, two platforms can be
taken in either order, and how a platform is capitalised does not matter. -/
theorem reduction_selects {library : Value} {modules : Table Value}
    (typed : WellTyped library modules) {p q : String} (hp : p ≠ "") (hq : q ≠ "") :
    forPlatform library (.str p) = .ok (ofModules (selectModules (keepsOn p) modules)) ∧
    (forPlatform library (.str p) >>= fun reduced => forPlatform reduced (.str p)) =
      forPlatform library (.str p) ∧
    (forPlatform library (.str p) >>= fun reduced => forPlatform reduced (.str q)) =
      (forPlatform library (.str q) >>= fun reduced => forPlatform reduced (.str p)) ∧
    (Text.lowercase p = Text.lowercase q →
      forPlatform library (.str p) = forPlatform library (.str q)) := by
  refine ⟨typed.forPlatform_eq hp, ?_, ?_, fun same => ?_⟩
  · rw [typed.forPlatform_bind hp hp, typed.forPlatform_eq hp]
    simp only [Bool.and_self]
  · rw [typed.forPlatform_bind hp hq, typed.forPlatform_bind hq hp]
    simp only [Bool.and_comm]
  · rw [typed.forPlatform_eq hp, typed.forPlatform_eq hq, keepsOn_congr same]

end Library

namespace Sample

/-- A component that says this of the platforms that exclude it. -/
def excludingEntry (excluded : List (String × Value)) : Value :=
  .record (excluded ++ [("props", .arr [])])

def moduleOf (components : List (String × Value)) : Value :=
  node "Component" [("components", .record components)]

/-- A module of which either of two platforms keeps something, though not both the same. -/
def mixedModule : Value :=
  moduleOf [("Slider", excludingEntry [("excludedPlatforms", .arr ["iOS"])]),
    ("Picker", excludingEntry [("excludedPlatforms", .arr ["Android", "macOS"])])]

/-- Modules of components, one of them without any, and a module of another kind. -/
def catalogModules : Table Value :=
  [("Mixed", mixedModule),
    ("Plain", moduleOf [("Switch", excludingEntry []),
      ("Label", excludingEntry [("excludedPlatforms", .null)])]),
    ("Empty", moduleOf []), ("Sensors", node "NativeModule" [])]

def catalog : Value := Library.ofModules catalogModules

open Library in
theorem wellTyped_catalog : WellTyped catalog catalogModules := by
  have named (names : List String) :
      Excludes (excludingEntry [("excludedPlatforms", .arr (names.map .str))]) names := .names rfl
  have module (components : List (String × Value))
      (typed : ∀ c ∈ components, ∃ names, Excludes c.2 names) :
      ModuleTyped (moduleOf components) := by
    refine ⟨rfl, fun _ => ⟨_, .given rfl, ?_⟩⟩
    exact List.forall_mem_map.2 typed
  refine ⟨.given rfl, ?_⟩
  simp only [catalogModules, List.forall_mem_cons]
  refine ⟨module _ ?_, module _ ?_, module _ nofun, ⟨rfl, fun tag => ?_⟩, nofun⟩
  · simp only [List.forall_mem_cons]
    exact ⟨⟨_, named ["iOS"]⟩, ⟨_, named ["Android", "macOS"]⟩, nofun⟩
  · simp only [List.forall_mem_cons]
    exact ⟨⟨_, .nothing rfl rfl⟩, ⟨_, .nothing rfl rfl⟩, nofun⟩
  · rw [hasTag_node] at tag
    cases tag

end Sample

open Sample Library in
/-- A catalog without what excludes one platform, and without what excludes either of two. -/
theorem reduction_selects_catalog :
    (∃ slider, forPlatform catalog "ANDROID" = .ok (ofModules [
      ("Mixed", mixedModule.put "components" (.obj [("Slider", slider)])),
      catalogModules[1], ("Sensors", node "NativeModule" [])])) ∧
    (forPlatform catalog "ANDROID" >>= fun reduced => forPlatform reduced "ios") =
      (forPlatform catalog "ios" >>= fun reduced => forPlatform reduced "ANDROID") ∧
    (forPlatform catalog "ANDROID" >>= fun reduced => forPlatform reduced "ios") =
      .ok (ofModules [catalogModules[1], ("Sensors", node "NativeModule" [])]) := by
  obtain ⟨selects, -, commutes, -⟩ :=
    reduction_selects wellTyped_catalog (p := "ANDROID") (q := "ios") (by decide) (by decide)
  refine ⟨⟨_, selects.trans (by with_unfolding_all rfl)⟩, commutes, ?_⟩
  rw [wellTyped_catalog.forPlatform_bind (by decide) (by decide)]
  with_unfolding_all rfl

end ComponentSpec
