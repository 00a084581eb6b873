import ComponentSpec.Proofs.Statements

/-!
# Searching the statements

Two probes run over the statements of a file, one for the component call and one for the commands
call. A probe answers what it finds in a statement, and a statement in which it finds nothing is
passed over. Whatever a statement looks like, the first probe has an answer. So has the second but
for statements of one shape: an exported declaration of variables with something in the place of its
variables that has no first item. Such a statement stops the search, and no blueprint is found.

* `ExportsCommands` — the statements in which a commands call is found;
* `Unsearchable` — the statements that stop the search;
* `search_passes_over_or_stops` — all others are passed over.
-/

namespace ComponentSpec

open Checked

variable {tree statement call : Value} {before after : List Value} {e : Fault}

/-! ### The variables that a statement exports -/

/-- What stands in the place of the variables that a statement exports. -/
def Value.exportedVariables (statement : Value) : Value :=
  (statement.get "declaration").get "declarations"

/-- **A statement that exports a declaration of variables,** with something in their place. -/
structure ExportsVariables (statement : Value) : Prop where
  exported : statement.hasTag "ExportNamedDeclaration"
  declares : (statement.get "declaration").hasTag "VariableDeclaration"
  present : statement.exportedVariables.truthy

/-- **A statement that exports a commands call:** its first variable is initialised by one. -/
structure ExportsCommands (statement call : Value) : Prop extends ExportsVariables statement where
  init : ∃ first others, statement.exportedVariables = .arr (first :: others) ∧
    first.get "init" = call
  callee : call.calleeName = .str "codegenNativeCommands"

/-- **A statement that stops the search:** what stands in the place of its variables is neither a
list nor a text. -/
structure Unsearchable (statement : Value) : Prop extends ExportsVariables statement where
  noList : statement.exportedVariables.list? = none
  noText : statement.exportedVariables.str? = none

/-- What is missing in a statement that stops the search: an object has no first entry, and what is
no object has no entries at all. -/
def searchMisfit (statement : Value) : Misfit :=
  if statement.exportedVariables.isObject then .entry else .kind

/-! ### What the probe for the commands call answers -/

/-- A statement that exports no variables is passed over. -/
theorem commandsCall?_of_not_exportsVariables (h : ¬ ExportsVariables statement) :
    commandsCall? statement = .ok none := by
  rw [commandsCall?]
  by_cases exported : statement.hasTag "ExportNamedDeclaration"
  · by_cases declares : (statement.get "declaration").hasTag "VariableDeclaration"
    · have absent : ((statement.get "declaration").get "declarations").truthy = false :=
        Bool.eq_false_iff.2 fun present => h ⟨exported, declares, present⟩
      simp [exported, declares, absent]
    · simp [exported, declares]
  · simp [exported]

/-- Of a statement that exports variables, what initialises the first one is looked at. -/
theorem commandsCall?_of_exportsVariables (h : ExportsVariables statement) :
    commandsCall? statement = (fun first : Value =>
      if (first.get "init").calleeName.isText "codegenNativeCommands" then some (first.get "init")
      else none) <$> statement.exportedVariables.first := by
  have present : ((statement.get "declaration").get "declarations").truthy := h.present
  rw [commandsCall?, Value.exportedVariables]
  simp only [h.exported, h.declares, present, Bool.not_true, Bool.false_eq_true, if_false]
  cases ((statement.get "declaration").get "declarations").first <;> rfl

/-- Where there is something, its first item is missing if it is neither a list nor a text. -/
theorem Value.first_eq_error {v : Value} (present : v.truthy) : v.first = .error e ↔
    v.list? = none ∧ v.str? = none ∧ e = .misfit (if v.isObject then .entry else .kind) := by
  match v with
  | .arr (item :: items) => simp [first, list?]
  | .arr [] => cases present
  | .obj entries => simp [first, list?, str?, isObject, eq_comm]
  | .str s =>
    -- a text that is not empty has a first character
    have filled : s ≠ "" := bne_iff_ne.1 present
    cases held : Text.codes s with
    | nil => exact absurd (Text.codes_eq_nil.1 held) filled
    | cons code codes => simp [first, held, str?]
  | .null | .bool _ | .int _ | .float _ => simp [first, list?, str?, isObject, eq_comm]

/-- The character of a text is no variable, so only the first item of a list can be one. -/
theorem Value.first_eq_ok {v first : Value} (h : v.first = .ok first) :
    (∃ others, v = .arr (first :: others)) ∨ ∃ s, first = .str s := by
  match v with
  | .arr (item :: items) =>
    cases h
    exact .inl ⟨items, rfl⟩
  | .arr [] | .obj _ | .null | .bool _ | .int _ | .float _ => cases h
  | .str s =>
    rw [Value.first] at h
    split at h <;> cases h
    exact .inr ⟨_, rfl⟩

/-- **What stops the search,** and with which fault. -/
theorem commandsCall?_eq_error : commandsCall? statement = .error e ↔
    Unsearchable statement ∧ e = .misfit (searchMisfit statement) := by
  by_cases h : ExportsVariables statement
  · rw [commandsCall?_of_exportsVariables h, map_eq_error, Value.first_eq_error h.present]
    constructor
    · rintro ⟨noList, noText, fault⟩
      exact ⟨⟨h, noList, noText⟩, fault⟩
    · rintro ⟨stops, fault⟩
      exact ⟨stops.noList, stops.noText, fault⟩
  · rw [commandsCall?_of_not_exportsVariables h]
    constructor
    · intro absurd
      cases absurd
    · rintro ⟨stops, -⟩
      exact absurd stops.toExportsVariables h

/-- **What the search finds.** -/
theorem commandsCall?_eq_some :
    commandsCall? statement = .ok (some call) ↔ ExportsCommands statement call := by
  constructor
  · intro found
    by_cases h : ExportsVariables statement
    · rw [commandsCall?_of_exportsVariables h] at found
      obtain ⟨first, isFirst, initialised⟩ := map_eq_ok.1 found
      split at initialised
      · next callee =>
        cases initialised
        refine ⟨h, ?_, Value.isText_iff.1 callee⟩
        rcases Value.first_eq_ok isFirst with ⟨others, listed⟩ | ⟨s, rfl⟩
        · exact ⟨first, others, listed, rfl⟩
        · simp [Value.calleeName, Value.hasTag, Value.tag, Value.get, Value.isText] at callee
      · cases initialised
    · rw [commandsCall?_of_not_exportsVariables h] at found
      cases found
  · intro h
    obtain ⟨first, others, listed, init⟩ := h.init
    rw [commandsCall?_of_exportsVariables h.toExportsVariables, listed, Value.first, map_ok,
      init, if_pos (Value.isText_iff.2 h.callee)]

/-- **What the search passes over.** -/
theorem commandsCall?_eq_none : commandsCall? statement = .ok none ↔
    ¬ Unsearchable statement ∧ ∀ call, ¬ ExportsCommands statement call := by
  constructor
  · intro h
    refine ⟨fun stops => ?_, fun call found => ?_⟩
    · rw [commandsCall?_eq_error.2 ⟨stops, rfl⟩] at h
      cases h
    · rw [commandsCall?_eq_some.2 found] at h
      cases h
  · rintro ⟨searchable, nothing⟩
    match answer : commandsCall? statement with
    | .ok none => rfl
    | .ok (some call) => exact absurd (commandsCall?_eq_some.1 answer) (nothing call)
    | .error e => exact absurd (commandsCall?_eq_error.1 answer).1 searchable

/-! ### The search through a file -/

/-- A statement that stops the search is not looked past. -/
theorem commandsAmong_eq_error {found : List (Value × Value)} (h : Unsearchable statement)
    (searched : commandsAmong before = .ok found) :
    commandsAmong (before ++ statement :: after) = .error (.misfit (searchMisfit statement)) := by
  have stops := commandsCall?_eq_error.2 ⟨h, rfl⟩
  rw [commandsAmong] at searched ⊢
  rw [filterMap_mapM_append, searched, ok_bind, filterMap_mapM_cons, stops, error_bind, error_bind,
    map_error]

/-- **A statement is passed over, or it stops the search.** The probe for the component call always
has an answer, and the probe for the commands call has one unless the statement is `Unsearchable`. A
statement in which nothing is found changes nothing for the search. A statement that stops the
search leaves a file without a blueprint, and with a fault that is no report. -/
theorem search_passes_over_or_stops (statement : Value) (before after : List Value) :
    ((∃ found, commandsCall? statement = .ok found) ↔ ¬ Unsearchable statement) ∧
      (componentCall? statement = none → (before ++ statement :: after).filterMap componentCall? =
        (before ++ after).filterMap componentCall?) ∧
      (¬ Unsearchable statement → (∀ call, ¬ ExportsCommands statement call) →
        commandsAmong (before ++ statement :: after) = commandsAmong (before ++ after)) ∧
      (Unsearchable statement → ∀ tree component found,
        tree.programBody = before ++ statement :: after →
        tree.programBody.filterMap componentCall? = [component] →
        commandsAmong before = .ok found →
        Blueprint.locate tree = .error (.misfit (searchMisfit statement))) := by
  refine ⟨⟨?answered, ?searchable⟩, ?component, ?commands, ?stops⟩
  case answered =>
    rintro ⟨found, answered⟩ stops
    rw [commandsCall?_eq_error.2 ⟨stops, rfl⟩] at answered
    cases answered
  case searchable =>
    intro searchable
    cases answer : commandsCall? statement with
    | ok found => exact ⟨found, rfl⟩
    | error e => exact absurd (commandsCall?_eq_error.1 answer).1 searchable
  case component =>
    intro nothing
    rw [List.filterMap_append, List.filterMap_cons_none nothing, List.filterMap_append]
  case commands =>
    intro searchable nothing
    refine filterMap_mapM_insert before after ?_
    rw [commandsCall?_eq_none.2 ⟨searchable, nothing⟩, ok_bind]
    rfl
  case stops =>
    intro stops tree component found body components searched
    rw [Blueprint.locate, components]
    simp only
    rw [body, commandsAmong_eq_error stops searched, error_bind]

/-- An export whose only variable stands in the place of the list of its variables. -/
def Sample.unlistedExport : Value := node "ExportNamedDeclaration" [("declaration",
  node "VariableDeclaration" [("declarations", node "VariableDeclarator" [])])]

open Sample in
theorem unsearchable_unlistedExport : Unsearchable unlistedExport :=
  ⟨⟨by decide +kernel, by decide +kernel, by decide +kernel⟩, by decide +kernel, by decide +kernel⟩

open Sample in
theorem search_passes_over_or_stops_unlisted :
    Blueprint.locate (file [buttonProps, unlistedExport] "Button" "Props") =
      .error (.misfit .entry) := by
  have body : (file [buttonProps, unlistedExport] "Button" "Props").programBody =
      [buttonProps] ++ unlistedExport :: (file [] "Button" "Props").programBody := by
    with_unfolding_all rfl
  have components : (file [buttonProps, unlistedExport] "Button" "Props").programBody.filterMap
      componentCall? = [⟨.str "Props", "Button", none⟩] := by with_unfolding_all rfl
  have searched : commandsAmong [buttonProps] = .ok [] := by with_unfolding_all rfl
  exact (search_passes_over_or_stops unlistedExport _ _).2.2.2 unsearchable_unlistedExport _ _ _
    body components searched

/-- **Searching does not always end with an answer.** -/
theorem not_commandsCall?_answers : ¬ ∃ found, commandsCall? Sample.unlistedExport = .ok found := by
  rintro ⟨found, answered⟩
  rw [commandsCall?_eq_error.2 ⟨unsearchable_unlistedExport, rfl⟩] at answered
  cases answered

end ComponentSpec
