import ComponentSpec.Library
import ComponentSpec.Proofs.Checked
import ComponentSpec.Proofs.Tables

/-!
# What an entry of a library holds

The entry of a component is one table, in which its options and its facets stand side by side. The
facets are written over the options, so an option under the name of a facet is lost, and every other
option is kept (`ComponentRecord.holds_component`).

The state is the one facet that a component need not have, and only where it has one is the key
written. An option of that name is then all there is under it: the entry of a component without a
state has a state, if the options give it one (`wrap_state_of_option`).

* `ComponentRecord.component` — the entry of a component whose options are known;
* `Holds` — what an entry holds, facet by facet and beside the facets;
* `wrap_holds_facets` — a wrapped component holds its facets and its options.
-/

namespace ComponentSpec

open Checked

/-! ### Entries -/

namespace ComponentRecord

/-- **The entry of a component** with the given options. -/
def component (r : ComponentRecord) (options : Table Value) : Table Value :=
  (Table.ofPairs options).merge r.facets

/-- The module of a component with the given options. -/
def module (r : ComponentRecord) (options : Table Value) : Value :=
  .record [("type", "Component"), ("components", .obj [(.str r.name, .obj (r.component options))])]

/-- The name of the module that a component is put into. -/
def moduleName (r : ComponentRecord) : Option String → String
  | some name => if name.isEmpty then r.filename else name
  | none => r.filename

variable {r : ComponentRecord} {options : Option (Table Value)}

theorem componentEntry_eq (given : r.options = tableValue options) :
    r.componentEntry = .ok (r.component (options.getD [])) := by
  rw [componentEntry, given]
  match options with
  | none | some [] | some (_ :: _) => rfl

/-- **A component is wrapped,** whatever the module is to be called. -/
theorem wrap_eq (given : r.options = tableValue options) (name : Option String) :
    r.wrap (.ofOption (name.map .str)) =
      .ok (Library.ofModules [(.str (r.moduleName name), r.module (options.getD []))]) := by
  rw [wrap, componentEntry_eq given, ok_bind]
  match name with
  | none => rfl
  | some name =>
    by_cases empty : name = ""
    · subst empty
      rfl
    · have named : (Value.str name).truthy = true := by simp [Value.truthy, Scalar.truthy, empty]
      have kept : name.isEmpty = false := by simpa using empty
      simp only [Option.map_some, Value.ofOption, named, if_true, Value.key, ok_bind, moduleName,
        kept]
      rfl

end ComponentRecord

/-! ### Facets and options -/

/-- The names of the facets. -/
def facetNames : List String := ["extendsProps", "events", "props", "commands", "state"]

/-- **An entry holds the facets of a component,** and beside them its options. Under the name of the
state it holds the option of that name where there is no state. -/
structure Holds (r : ComponentRecord) (options entry : Table Value) : Prop where
  distinct : entry.Distinct
  inherited : entry.find? "extendsProps" = some (.arr r.inherited)
  events : entry.find? "events" = some (.arr r.events)
  props : entry.find? "props" = some (.arr r.props)
  commands : entry.find? "commands" = some (.arr r.commands)
  state : entry.find? "state" = r.state.or (options.find? "state")
  others : ∀ k, (∀ name ∈ facetNames, k ≠ .str name) → entry.find? k = options.find? k

namespace ComponentRecord

variable {r : ComponentRecord} {options : Table Value}

theorem distinct_facets (r : ComponentRecord) : r.facets.Distinct := by
  rw [facets]
  cases r.state <;> simp [Table.Distinct]

theorem find?_facets_of_other {k : Scalar} (other : ∀ name ∈ facetNames, k ≠ .str name) :
    r.facets.find? k = none := by
  refine Table.find?_eq_none ?_
  have apart : ∀ name ∈ facetNames, (Scalar.str name).same k = false := by
    intro name hname
    rw [Bool.eq_false_iff]
    exact fun same => other name hname (Scalar.eq_str_of_same same)
  simp only [facetNames, List.forall_mem_cons] at apart
  obtain ⟨inherited, events, props, commands, state, -⟩ := apart
  rw [facets]
  cases r.state <;> simp [inherited, events, props, commands, state]

/-- **The facets stand over the options.** -/
theorem holds_component (dict : options.Distinct) : Holds r options (r.component options) := by
  have read (k : Scalar) :
      (r.component options).find? k = (r.facets.find? k).or (options.find? k) := by
    rw [component, Table.find?_merge_of_distinct _ r.distinct_facets, Table.find?_ofPairs,
      Table.find?_perm dict (List.reverse_perm options).symm]
  -- the first four facets are always written, the state where there is one
  refine ⟨(Table.distinct_ofPairs options).merge r.facets, ?_, ?_, ?_, ?_, ?_, fun k other => ?_⟩
  · rw [read]; rfl
  · rw [read]; rfl
  · rw [read]; rfl
  · rw [read]; rfl
  · rw [read, facets]
    cases r.state <;> rfl
  · rw [read, find?_facets_of_other other, Option.none_or]

end ComponentRecord

/-- **A wrapped component holds its facets and its options.** There is one module in the library and
one component in the module. Its entry holds the facets of the record, whatever the options are, and
under every name that is none of a facet what the options hold; a state that the record does not
have is left to the options. -/
theorem wrap_holds_facets (r : ComponentRecord) (options : Option (Table Value))
    (given : r.options = tableValue options) (dict : (options.getD []).Distinct)
    (name : Option String) :
    ∃ entry, r.wrap (.ofOption (name.map .str)) =
        .ok (Library.ofModules [(.str (r.moduleName name), .record
          [("type", "Component"), ("components", .obj [(.str r.name, .obj entry)])])]) ∧
      Holds r (options.getD []) entry :=
  ⟨_, ComponentRecord.wrap_eq given name, ComponentRecord.holds_component dict⟩

namespace Sample

/-- A component without a state, whose options hold one. -/
def statelessRecord : ComponentRecord where
  filename := "Button"
  name := "Button"
  options := .record [("state", "idle"), ("events", "none"), ("interfaceOnly", .bool true)]
  inherited := []
  events := []
  props := []
  commands := []
  state := none

end Sample

open Sample in
theorem wrap_holds_facets_stateless : ∃ entry : Table Value, statelessRecord.wrap .null =
      .ok (Library.ofModules [("Button", .record
        [("type", "Component"), ("components", .obj [("Button", .obj entry)])])]) ∧
    entry.find? "events" = some (.arr []) ∧ entry.find? "interfaceOnly" = some (.bool true) := by
  have dict : Table.Distinct (Option.getD (some [(Scalar.str "state", Value.str "idle"),
      (.str "events", .str "none"), (.str "interfaceOnly", .bool true)]) []) := by
    simp [Table.Distinct]
  obtain ⟨entry, wrapped, holds⟩ := wrap_holds_facets statelessRecord
    (some [("state", "idle"), ("events", "none"), ("interfaceOnly", .bool true)]) rfl dict none
  refine ⟨entry, wrapped, holds.events, ?_⟩
  rw [holds.others _ (by decide)]
  rfl

/-- An option can give an entry a state that its component does not have. -/
theorem wrap_state_of_option : ¬ ∀ (r : ComponentRecord) (options entry : Table Value),
    r.options = .obj options → options.Distinct →
    r.wrap .null = .ok (Library.ofModules [(.str r.filename, .record
      [("type", "Component"), ("components", .obj [(.str r.name, .obj entry)])])]) →
    entry.has "state" = r.state.isSome := by
  intro claim
  have wrapped := @ComponentRecord.wrap_eq Sample.statelessRecord (some _) rfl none
  have stateless := claim Sample.statelessRecord _ _ rfl (by simp [Table.Distinct]) wrapped
  revert stateless
  decide

end ComponentSpec
