import ComponentSpec.Proofs.Stages
import ComponentSpec.Trace

/-!
# The order of an assembly

Whatever the resolver, an assembly is a run through a list of *stages*, each of which adds to what
the stages before it have found (`assemble_eq_stages`). The list is fixed by the blueprint. Its
stages are the steps of the resolver, two of them members steps where there is a state, and the
check of the commands, which no resolver is asked for and no record shows.

So a recorded assembly is read off one stage (`run_take`): the stage adds its call to the record,
and then succeeds or fails as the standard step does, unless it is told to fail. `Ended` says how a
whole run can end: every stage has succeeded, or one of them has failed after those before it
succeeded.

* `Stage`, `Blueprint.stages`, `Stage.take` — the stages, and what each of them does;
* `assemble_eq_stages` — an assembly is the run of its stages;
* `Ended`, `exists_ended` — how a recorded run ends;
* `traceAssembly_in_order` — the record of an assembly against its plan.
-/

namespace ComponentSpec

open Checked

/-! ### Stages -/

/-- **The stages of an assembly.** -/
inductive Stage where
  | declarations
  | propsMembers
  | commandOptions
  | commandMembers
  | inherited
  | options
  | ownMembers
  | props
  | events
  | commands
  | stateMembers
  | state
deriving DecidableEq

/-- **What the stages have found so far.** -/
structure Findings where
  types : Declarations
  members : List Value
  commandOptions : Option CommandOptions
  commandMembers : List Value
  inherited : List InheritedGroup
  options : Option (Table Value)
  own : List Value
  props : List (Entry SchemaType)
  events : List Event
  commands : List Command
  stateMembers : List Value
  state : Option (List (Entry SchemaType))

def Findings.nothing : Findings := ⟨[], [], none, [], [], none, [], [], [], [], [], none⟩

/-- The schema with what was found. -/
def Findings.schema (found : Findings) (blueprint : Blueprint) : ComponentSchema where
  name := blueprint.componentName
  options := found.options
  inherited := found.inherited
  events := found.events
  props := found.props
  commands := found.commands
  state := found.state

/-- **The stages for a blueprint,** in order. -/
def Blueprint.stages (blueprint : Blueprint) : List Stage :=
  [.declarations, .propsMembers, .commandOptions, .commandMembers, .inherited, .options,
    .ownMembers, .props, .events, .commands]
    ++ if blueprint.stateType.isEmpty then [] else [.stateMembers, .state]

/-- **One stage,** by the steps of a resolver, after what was found before it. -/
def Stage.take {m : Type → Type} [Monad m] [MonadExceptOf Fault m] (resolver : Resolver m)
    (tree : Value) (blueprint : Blueprint) (found : Findings) : Stage → m Findings
  | .declarations => return { found with types := ← resolver.declarations tree }
  | .propsMembers => return { found with
      members := ← resolver.members blueprint.propsType found.types }
  | .commandOptions => return { found with
      commandOptions := ← resolver.commandOptions (tableValue blueprint.commandOptions) }
  | .commandMembers => return { found with
      commandMembers := ← MonadExcept.ofExcept
        (ComponentSpec.commandMembers found.types blueprint.commandsName found.commandOptions) }
  | .inherited => return { found with inherited := ← resolver.inherited found.members found.types }
  | .options => return { found with options := ← resolver.options (tableValue blueprint.options) }
  | .ownMembers => return { found with own := ← resolver.ownMembers found.members found.types }
  | .props => return { found with props := ← resolver.props found.own found.types }
  | .events => return { found with events := ← resolver.events found.members found.types }
  | .commands => return { found with
      commands := ← resolver.commands found.commandMembers found.types }
  | .stateMembers => return { found with
      stateMembers := ← resolver.members blueprint.stateType found.types }
  | .state => return { found with state := some (← resolver.state found.stateMembers found.types) }

/-- **An assembly is the run of its stages,** whatever the resolver. -/
theorem assemble_eq_stages {m : Type → Type} [Monad m] [LawfulMonad m] [MonadExceptOf Fault m]
    (resolver : Resolver m) (tree : Value) :
    assemble resolver tree = (do
      let blueprint ← MonadExcept.ofExcept (Blueprint.locate tree)
      let found ← blueprint.stages.foldlM (Stage.take resolver tree blueprint) Findings.nothing
      return found.schema blueprint) := by
  rw [assemble]
  refine bind_congr fun blueprint => ?_
  -- with a state type and without one the list of stages is known
  cases h : blueprint.stateType.isEmpty <;>
    simp [Blueprint.stages, h, assembleState, Stage.take, Findings.schema, Findings.nothing,
      Blueprint.commandsName]

theorem componentSchema_eq_stages (tree : Value) :
    componentSchema tree = Blueprint.locate tree >>= fun blueprint =>
      blueprint.stages.foldlM (Stage.take Resolver.standard tree blueprint) Findings.nothing >>=
        fun found => .ok (found.schema blueprint) := by
  rw [componentSchema, assemble_eq_stages, ofExcept_eq]
  rfl

variable {failAt : Option Step} {tree : Value} {blueprint : Blueprint} {stage : Stage}
  {stages done rest : List Stage} {found found' : Findings} {calls before : List Call} {e : Fault}

/-! ### The record of a stage -/

namespace Stage

/-- The step that a stage takes. -/
def step? : Stage → Option Step
  | .declarations => some .declarations
  | .propsMembers => some .members
  | .commandOptions => some .commandOptions
  | .commandMembers => none
  | .inherited => some .inherited
  | .options => some .options
  | .ownMembers => some .ownMembers
  | .props => some .props
  | .events => some .events
  | .commands => some .commands
  | .stateMembers => some .members
  | .state => some .state

/-- The summary of what a stage gives its step first. -/
def summary (tree : Value) (blueprint : Blueprint) (found : Findings) : Stage → Value
  | .declarations => nodeSummary tree
  | .propsMembers => .str blueprint.propsType
  | .commandOptions => nodeSummary (tableValue blueprint.commandOptions)
  | .commandMembers => .null
  | .options => nodeSummary (tableValue blueprint.options)
  | .inherited | .ownMembers | .events => .arr (found.members.map memberSummary)
  | .props => .arr (found.own.map memberSummary)
  | .commands => .arr (found.commandMembers.map memberSummary)
  | .stateMembers => .str blueprint.stateType
  | .state => .arr (found.stateMembers.map memberSummary)

/-- The call that is recorded of a stage. -/
def call? (tree : Value) (blueprint : Blueprint) (found : Findings) (stage : Stage) : Option Call :=
  stage.step?.map fun step => ⟨step, stage.summary tree blueprint found⟩

theorem eq_commandMembers_of_call?_eq_none (h : stage.call? tree blueprint found = none) :
    stage = .commandMembers := by
  cases stage <;> first | rfl | cases h

end Stage

/-- The fault of a step that was told to fail. -/
def Fault.injected : Fault := .bare (.other .shape "injected" none)

/-- **One stage of a recorded assembly:** the standard one, unless its step was told to fail. -/
def Stage.attempt (failAt : Option Step) (tree : Value) (blueprint : Blueprint) (found : Findings)
    (stage : Stage) : Checked Findings :=
  match stage.step? with
  | some step =>
    if failAt = some step then .error .injected
    else stage.take Resolver.standard tree blueprint found
  | none => stage.take Resolver.standard tree blueprint found

theorem run_recorded {α : Type} (failAt : Option Step) (step : Step) (summary : Value)
    (x : Checked α) (put : α → Findings) (calls : List Call) :
    ((do
      recordStep failAt step summary
      MonadExcept.ofExcept x : Recorded α) >>= fun a => pure (put a)).run calls =
      (if failAt = some step then .error .injected else x >>= fun a => pure (put a),
        calls ++ [⟨step, summary⟩]) := by
  by_cases here : failAt = some step
  · subst here
    simp only [recordStep, if_true]
    rfl
  · simp only [recordStep, here, if_false]
    cases x <;> rfl

/-- **A stage of a recorded assembly adds its call to the record,** whether it fails or not. -/
theorem run_take (failAt : Option Step) (tree : Value) (blueprint : Blueprint) (found : Findings)
    (stage : Stage) (calls : List Call) :
    (stage.take (Resolver.recording failAt) tree blueprint found).run calls =
      (stage.attempt failAt tree blueprint found,
        calls ++ (stage.call? tree blueprint found).toList) := by
  cases stage with
  | commandMembers =>
    -- the check asks nothing of the resolver
    rw [Stage.call?, Stage.step?, Option.map_none, Option.toList_none, List.append_nil]
    cases h : commandMembers found.types blueprint.commandsName found.commandOptions <;>
      simp only [Stage.take, Stage.attempt, Stage.step?, h, ofExcept_eq] <;> rfl
  | _ => exact run_recorded failAt _ _ _ _ calls

theorem take_of_attempt_eq_ok (h : stage.attempt failAt tree blueprint found = .ok found') :
    stage.take Resolver.standard tree blueprint found = .ok found' ∧
      ∀ call ∈ (stage.call? tree blueprint found).toList, failAt ≠ some call.step := by
  rw [Stage.attempt] at h
  cases hstep : stage.step? with
  | none =>
    rw [hstep] at h
    exact ⟨h, by simp [Stage.call?, hstep]⟩
  | some step =>
    simp only [hstep] at h
    split at h
    · cases h
    · next elsewhere => exact ⟨h, by simpa [Stage.call?, hstep] using elsewhere⟩

/-! ### Plans -/

/-- A call as it is planned: its step and, where members are asked for, the type they are of. -/
def Call.planned (call : Call) : Step × Option Value :=
  (call.step, if call.step = .members then some call.summary else none)

/-- **The calls that are planned for a blueprint.** -/
def Blueprint.plan (blueprint : Blueprint) : List (Step × Option Value) :=
  [(.declarations, none), (.members, some (.str blueprint.propsType)), (.commandOptions, none),
    (.inherited, none), (.options, none), (.ownMembers, none), (.props, none), (.events, none),
    (.commands, none)]
    ++ if blueprint.stateType.isEmpty then []
      else [(.members, some (.str blueprint.stateType)), (.state, none)]

/-- What is planned of a stage. -/
def Stage.planned? (blueprint : Blueprint) : Stage → Option (Step × Option Value)
  | .propsMembers => some (.members, some (.str blueprint.propsType))
  | .stateMembers => some (.members, some (.str blueprint.stateType))
  | stage => stage.step?.map (·, none)

theorem map_planned_call? (tree : Value) (blueprint : Blueprint) (found : Findings)
    (stage : Stage) :
    (stage.call? tree blueprint found).map Call.planned = stage.planned? blueprint := by
  cases stage <;> rfl

theorem filterMap_planned?_stages (blueprint : Blueprint) :
    blueprint.stages.filterMap (Stage.planned? blueprint) = blueprint.plan := by
  rw [Blueprint.stages, Blueprint.plan]
  cases blueprint.stateType.isEmpty <;> rfl

theorem suffix_plan_iff :
    [(Step.members, some (Value.str blueprint.stateType)), (.state, none)] <:+ blueprint.plan ↔
      blueprint.stateType.isEmpty = false := by
  rw [Blueprint.plan]
  cases blueprint.stateType.isEmpty with
  | true =>
    -- the plan ends with the commands then
    refine iff_of_false ?_ (by simp)
    rintro ⟨before, split⟩
    have last := congrArg List.getLast? split
    simp at last
  | false => exact iff_of_true (List.suffix_append _ _) rfl

/-! ### How a run ends -/

/-- **How a recorded run ends:** all stages have succeeded, or one has failed after those before it
succeeded. Of the calls that succeeded none was told to fail. -/
inductive Ended (failAt : Option Step) (tree : Value) (blueprint : Blueprint)
    (stages : List Stage) (found : Findings) : Checked Findings → List Call → Prop where
  | completed {found' : Findings} {calls : List Call}
      (taken : stages.foldlM (Stage.take Resolver.standard tree blueprint) found = .ok found')
      (planned : calls.map Call.planned = stages.filterMap (Stage.planned? blueprint))
      (unreached : ∀ call ∈ calls, failAt ≠ some call.step) :
      Ended failAt tree blueprint stages found (.ok found') calls
  | stopped {found' : Findings} {before : List Call} {done rest : List Stage} {stage : Stage}
      {e : Fault} (split : stages = done ++ stage :: rest)
      (taken : done.foldlM (Stage.take Resolver.standard tree blueprint) found = .ok found')
      (planned : before.map Call.planned = done.filterMap (Stage.planned? blueprint))
      (unreached : ∀ call ∈ before, failAt ≠ some call.step)
      (fails : stage.attempt failAt tree blueprint found' = .error e) :
      Ended failAt tree blueprint stages found (.error e)
        (before ++ (stage.call? tree blueprint found').toList)

namespace Ended

variable {outcome : Checked Findings}

/-- A stage that succeeds, in front of a run. -/
theorem cons (h : stage.attempt failAt tree blueprint found = .ok found')
    (ended : Ended failAt tree blueprint stages found' outcome calls) :
    Ended failAt tree blueprint (stage :: stages) found outcome
      ((stage.call? tree blueprint found).toList ++ calls) := by
  obtain ⟨taken, unreached⟩ := take_of_attempt_eq_ok h
  have planned {calls : List Call} {stages : List Stage}
      (later : calls.map Call.planned = stages.filterMap (Stage.planned? blueprint)) :
      ((stage.call? tree blueprint found).toList ++ calls).map Call.planned =
        (stage :: stages).filterMap (Stage.planned? blueprint) := by
    rw [List.map_append, later, List.filterMap_cons, ← map_planned_call? tree blueprint found]
    cases stage.call? tree blueprint found <;> rfl
  cases ended with
  | completed taken' planned' unreached' =>
    refine .completed ?_ (planned planned') (List.forall_mem_append.2 ⟨unreached, unreached'⟩)
    rw [List.foldlM_cons, taken, ok_bind, taken']
  | stopped split taken' planned' unreached' fails =>
    rw [← List.append_assoc]
    refine .stopped (congrArg (stage :: ·) split) ?_ (planned planned')
      (List.forall_mem_append.2 ⟨unreached, unreached'⟩) fails
    rw [List.foldlM_cons, taken, ok_bind, taken']

/-- Where the step that was told to fail is not taken, the run ends as the standard one does. -/
theorem foldlM_eq (ended : Ended failAt tree blueprint stages found outcome calls)
    (unreached : ∀ step, failAt = some step → step ∉ calls.map Call.step) :
    stages.foldlM (Stage.take Resolver.standard tree blueprint) found = outcome := by
  cases ended with
  | completed taken => exact taken
  | @stopped found' before done rest stage e split taken planned _ fails =>
    have failed : stage.take Resolver.standard tree blueprint found' = .error e := by
      rw [Stage.attempt] at fails
      cases hstep : stage.step? with
      | none => simpa only [hstep] using fails
      | some step =>
        have elsewhere : failAt ≠ some step := by
          intro here
          refine unreached step here ?_
          simp [Stage.call?, hstep]
        simpa only [hstep, if_neg elsewhere] using fails
    rw [split, List.foldlM_append, taken, ok_bind, List.foldlM_cons, failed, error_bind]

/-- Where it is taken, it is taken last, and once. -/
theorem eq_injected (ended : Ended failAt tree blueprint stages found outcome calls) {step : Step}
    (here : failAt = some step) (reached : step ∈ calls.map Call.step) :
    outcome = .error .injected ∧
      ∃ before, calls.map Call.step = before ++ [step] ∧ step ∉ before := by
  obtain ⟨call, mem, rfl⟩ := List.mem_map.1 reached
  cases ended with
  | completed _ _ unreached => exact absurd here (unreached call mem)
  | @stopped found' before done rest stage e split taken planned unreached fails =>
    rcases List.mem_append.1 mem with mem | mem
    · exact absurd here (unreached call mem)
    · obtain ⟨step, hstep, rfl⟩ := Option.map_eq_some_iff.1 (Option.mem_toList.1 mem)
      rw [Stage.attempt, hstep] at fails
      simp only [here, if_true] at fails
      cases fails
      refine ⟨rfl, before.map Call.step, by simp [Stage.call?, hstep], ?_⟩
      intro again
      obtain ⟨call, mem, same⟩ := List.mem_map.1 again
      exact unreached call mem (here.trans (congrArg some same.symm))

end Ended

theorem run_bind_of_ok {α β : Type} {x : Recorded α} {f : α → Recorded β} {calls' : List Call}
    {a : α} (h : x.run calls = (.ok a, calls')) : (x >>= f).run calls = (f a).run calls' := by
  rw [ExceptT.run_bind]
  change StateT.bind x.run _ calls = _
  rw [StateT.bind, h]
  rfl

theorem run_bind_of_error {α β : Type} {x : Recorded α} {f : α → Recorded β} {calls' : List Call}
    (h : x.run calls = (.error e, calls')) : (x >>= f).run calls = (.error e, calls') := by
  rw [ExceptT.run_bind]
  change StateT.bind x.run _ calls = _
  rw [StateT.bind, h]
  rfl

/-- **Every recorded run ends so.** -/
theorem exists_ended (failAt : Option Step) (tree : Value) (blueprint : Blueprint)
    (stages : List Stage) (found : Findings) (calls : List Call) :
    ∃ outcome new,
      (stages.foldlM (Stage.take (Resolver.recording failAt) tree blueprint) found).run calls =
        (outcome, calls ++ new) ∧
      Ended failAt tree blueprint stages found outcome new := by
  induction stages generalizing found calls with
  | nil => exact ⟨.ok found, [], by rw [List.append_nil]; rfl, .completed rfl rfl (by simp)⟩
  | cons stage stages ih =>
    rw [List.foldlM_cons]
    have first := run_take failAt tree blueprint found stage calls
    cases h : stage.attempt failAt tree blueprint found with
    | error e =>
      rw [h] at first
      refine ⟨_, _, run_bind_of_error first, ?_⟩
      have nothing : ∀ call ∈ ([] : List Call), failAt ≠ some call.step := by simp
      exact .stopped (List.nil_append _).symm rfl rfl nothing h
    | ok found' =>
      rw [h] at first
      obtain ⟨outcome, new, run, ended⟩ :=
        ih found' (calls ++ (stage.call? tree blueprint found).toList)
      refine ⟨outcome, (stage.call? tree blueprint found).toList ++ new, ?_, ended.cons h⟩
      rw [run_bind_of_ok first, run, List.append_assoc]

theorem exists_ended_of_locate (failAt : Option Step)
    (located : Blueprint.locate tree = .ok blueprint) :
    ∃ outcome calls, traceAssembly failAt tree =
        (outcome >>= fun found => .ok (found.schema blueprint), calls) ∧
      Ended failAt tree blueprint blueprint.stages Findings.nothing outcome calls := by
  obtain ⟨outcome, calls, run, ended⟩ :=
    exists_ended failAt tree blueprint blueprint.stages Findings.nothing []
  refine ⟨outcome, calls, ?_, ended⟩
  have read : ExceptT.run (MonadExcept.ofExcept (.ok blueprint) : Recorded Blueprint) [] =
      (.ok blueprint, []) := rfl
  rw [traceAssembly, assemble_eq_stages, located, run_bind_of_ok read]
  cases outcome with
  | ok found => rw [run_bind_of_ok run]; rfl
  | error e => rw [run_bind_of_error run]; rfl

/-! ### The record against the plan -/

/-- **The last call that is recorded is the one that fails,** with the given fault: the stages
before it have succeeded, and what they have found makes it fail, or it was told to. -/
def FailsLast (failAt : Option Step) (tree : Value) (blueprint : Blueprint) (calls : List Call)
    (e : Fault) : Prop :=
  ∃ done stage rest found before call, blueprint.stages = done ++ stage :: rest ∧
    done.foldlM (Stage.take Resolver.standard tree blueprint) Findings.nothing = .ok found ∧
    before.map Call.planned = done.filterMap (Stage.planned? blueprint) ∧
    stage.call? tree blueprint found = some call ∧ calls = before ++ [call] ∧
    stage.attempt failAt tree blueprint found = .error e

/-- **The check of the commands fails,** right after the call for their options. -/
def ChecksLast (tree : Value) (blueprint : Blueprint) (calls : List Call) (e : Fault) : Prop :=
  calls.map Call.step = [.declarations, .members, .commandOptions] ∧
    ∃ types options, Declarations.ofTree tree = .ok types ∧
      commandOptions (tableValue blueprint.commandOptions) = .ok options ∧
      commandMembers types blueprint.commandsName options = .error e

/-- **A record in order:** as planned, up to the first failure and no further. -/
structure InOrder (failAt : Option Step) (tree : Value) (blueprint : Blueprint)
    (outcome : Checked ComponentSchema) (calls : List Call) : Prop where
  planned : calls.map Call.planned <+: blueprint.plan
  complete : ∀ schema, outcome = .ok schema → calls.map Call.planned = blueprint.plan
  failed : ∀ e, outcome = .error e →
    FailsLast failAt tree blueprint calls e ∨ ChecksLast tree blueprint calls e
  reached : ∀ step, failAt = some step → step ∈ calls.map Call.step →
    outcome = .error .injected ∧
      ∃ before, calls.map Call.step = before ++ [step] ∧ step ∉ before
  unreached : (∀ step, failAt = some step → step ∉ calls.map Call.step) →
    outcome = componentSchema tree
  state : ∀ schema, outcome = .ok schema → (schema.state.isSome ↔
    [(.members, some (.str blueprint.stateType)), (.state, none)] <:+ calls.map Call.planned)

/-- The check has its place after the call for the options, and no other. -/
theorem eq_of_stages_eq_append (h : blueprint.stages = done ++ .commandMembers :: rest) :
    done = [.declarations, .propsMembers, .commandOptions] := by
  rw [Blueprint.stages] at h
  match done with
  | [] | [_] | [_, _] => simp at h
  | [_, _, _] =>
    simp only [List.cons_append, List.nil_append, List.cons.injEq] at h
    simp [h]
  | _ :: _ :: _ :: _ :: done =>
    simp only [List.cons_append, List.nil_append, List.cons.injEq] at h
    -- any later, and the check would be there twice
    have again : Stage.commandMembers ∈ done ++ .commandMembers :: rest := by simp
    rw [← h.2.2.2.2] at again
    split at again <;> simp at again

theorem checksLast_of_stopped (split : blueprint.stages = done ++ .commandMembers :: rest)
    (taken : done.foldlM (Stage.take Resolver.standard tree blueprint) Findings.nothing = .ok found)
    (planned : before.map Call.planned = done.filterMap (Stage.planned? blueprint))
    (fails : Stage.commandMembers.attempt failAt tree blueprint found = .error e) :
    ChecksLast tree blueprint before e := by
  cases eq_of_stages_eq_append split
  constructor
  · have steps := congrArg (List.map Prod.fst) planned
    rw [List.map_map] at steps
    exact steps
  · -- the three stages before the check, one by one
    obtain ⟨_, first, taken⟩ := bind_eq_ok.1 taken
    obtain ⟨types, declared, h⟩ := bind_eq_ok.1 first
    cases h
    obtain ⟨_, second, taken⟩ := bind_eq_ok.1 taken
    obtain ⟨members, -, h⟩ := bind_eq_ok.1 second
    cases h
    obtain ⟨_, third, taken⟩ := bind_eq_ok.1 taken
    obtain ⟨options, given, h⟩ := bind_eq_ok.1 third
    cases h
    cases taken
    refine ⟨types, options, declared, given, ?_⟩
    rcases bind_eq_error.1 fails with fails | ⟨_, _, h⟩
    · rwa [ofExcept_eq] at fails
    · cases h

/-- A schema has a state exactly if its blueprint has a state type. -/
theorem isSome_state {schema : ComponentSchema} (located : Blueprint.locate tree = .ok blueprint)
    (h : componentSchema tree = .ok schema) :
    schema.state.isSome = !blueprint.stateType.isEmpty := by
  obtain ⟨blueprint', types, located', -, h⟩ := componentSchema_eq_ok.1 h
  cases located.symm.trans located'
  obtain ⟨_, _, completed⟩ := completed_of_schemaOf h
  have state := completed.state
  rw [assembleState] at state
  cases given : blueprint.stateType.isEmpty with
  | true =>
    rw [given, if_pos rfl, pure_eq, Except.ok.injEq] at state
    rw [← state]
    rfl
  | false =>
    rw [given, if_neg Bool.false_ne_true] at state
    obtain ⟨members, -, state⟩ := bind_eq_ok.1 state
    obtain ⟨properties, -, state⟩ := bind_eq_ok.1 state
    rw [pure_eq, Except.ok.injEq] at state
    rw [← state]
    rfl

/-- **An assembly takes its steps in one order and stops at the first failure.** -/
theorem traceAssembly_in_order (failAt : Option Step) (tree : Value) :
    (∀ e, Blueprint.locate tree = .error e → traceAssembly failAt tree = (.error e, [])) ∧
    ∀ blueprint, Blueprint.locate tree = .ok blueprint →
      InOrder failAt tree blueprint (traceAssembly failAt tree).1
        (traceAssembly failAt tree).2 := by
  constructor
  · intro e failed
    rw [traceAssembly, assemble_eq_stages, failed]
    rfl
  intro blueprint located
  obtain ⟨outcome, calls, traced, ended⟩ := exists_ended_of_locate failAt located
  rw [traced]
  have unreached (h : ∀ step, failAt = some step → step ∉ calls.map Call.step) :
      (outcome >>= fun found => .ok (found.schema blueprint)) = componentSchema tree := by
    rw [componentSchema_eq_stages, located, ok_bind, ended.foldlM_eq h]
  have reached (step : Step) (here : failAt = some step) (mem : step ∈ calls.map Call.step) :=
    ended.eq_injected here mem
  cases ended with
  | @completed found calls taken planned never =>
    rw [filterMap_planned?_stages] at planned
    -- every call has succeeded, so none of them was told to fail
    replace never : ∀ step, failAt = some step → step ∉ calls.map Call.step := by
      intro step here mem
      obtain ⟨call, mem, same⟩ := List.mem_map.1 mem
      exact never call mem (here.trans (congrArg some same.symm))
    refine ⟨planned ▸ List.prefix_rfl, fun _ _ => planned, (fun _ h => nomatch h), ?_, unreached,
      ?_⟩
    · exact fun step here mem => absurd mem (never step here)
    · intro schema h
      rw [isSome_state located ((unreached never).symm.trans h), planned, suffix_plan_iff]
      simp
  | @stopped found before done rest stage e split taken planned never fails =>
    refine ⟨?_, (fun _ h => nomatch h), ?_, ?_, unreached, (fun _ h => nomatch h)⟩
    · rw [← filterMap_planned?_stages, split, List.map_append, planned, List.filterMap_append,
        List.prefix_append_right_inj, List.filterMap_cons,
        ← map_planned_call? tree blueprint found]
      cases stage.call? tree blueprint found <;> simp
    · intro e' h
      cases h
      cases recorded : stage.call? tree blueprint found with
      | some call =>
        exact .inl ⟨done, stage, rest, found, before, call, split, taken, planned, recorded, rfl,
          fails⟩
      | none =>
        -- the one stage that records no call is the check
        cases Stage.eq_commandMembers_of_call?_eq_none recorded
        rw [Option.toList_none, List.append_nil]
        exact .inr (checksLast_of_stopped split taken planned fails)
    · intro step here mem
      obtain ⟨same, first⟩ := reached step here mem
      cases same
      exact ⟨rfl, first⟩

namespace Sample

/-- The state of a dial. -/
def dialState : Value :=
  interfaceNamed "DialNativeState" [] [property "turn" (reference "Int32" [])]

def dialProps : Value := interfaceNamed "Props" [] []

def dialFile : Value := file [dialProps, dialState] "Dial" "Props"

def dialBlueprint : Blueprint := ⟨"Dial", "Props", "DialNativeState", none, none, none⟩

theorem locate_dialFile : Blueprint.locate dialFile = .ok dialBlueprint := by
  with_unfolding_all rfl

def dial : ComponentSchema where
  name := "Dial"
  options := none
  inherited := []
  events := []
  props := []
  commands := []
  state := some [⟨"turn", false, .basic .int32 (some (.int 0))⟩]

theorem componentSchema_dialFile : componentSchema dialFile = .ok dial := by
  have declared : Declarations.ofTree dialFile =
      .ok (table [("Props", dialProps), ("DialNativeState", dialState)]) := by
    with_unfolding_all rfl
  have expanded : membersOf (table [("Props", dialProps), ("DialNativeState", dialState)])
      (.str "Props") = .ok [] :=
    membersOf_eq_ok.2 ⟨_, _, .ofInterface rfl rfl rfl rfl, .nil⟩
  have stateExpanded : membersOf (table [("Props", dialProps), ("DialNativeState", dialState)])
      (.str "DialNativeState") = .ok [property "turn" (reference "Int32" [])] :=
    membersOf_eq_ok.2 ⟨_, _, .ofInterface rfl rfl rfl rfl, .property rfl .nil⟩
  simp only [componentSchema_eq, locate_dialFile, declared, ok_bind, schemaOf, dialBlueprint,
    expanded, assembleState, Resolver.standard, Value.key, stateExpanded]
  with_unfolding_all rfl

end Sample

open Sample in
/-- Undisturbed, the steps for a dial are all taken, and it has a state. Told to fail at the
members, they end at the first of the two calls for members. -/
theorem traceAssembly_in_order_dial :
    (∃ schema calls, traceAssembly none dialFile = (.ok schema, calls) ∧
      calls.map Call.planned = dialBlueprint.plan ∧ schema.state.isSome) ∧
    ∃ calls before, traceAssembly (some .members) dialFile = (.error .injected, calls) ∧
      calls.map Call.step = before ++ [.members] ∧ .members ∉ before := by
  have assembled := componentSchema_dialFile
  constructor
  · have order := (traceAssembly_in_order none dialFile).2 dialBlueprint locate_dialFile
    have given := (order.unreached fun _ h => nomatch h).trans assembled
    have all := order.complete dial given
    refine ⟨dial, _, Prod.ext given rfl, all, (order.state dial given).2 ?_⟩
    rw [all]
    exact suffix_plan_iff.2 rfl
  · have order := (traceAssembly_in_order (some .members) dialFile).2 dialBlueprint locate_dialFile
    -- were the step not taken, the assembly would succeed, and the step with it
    have taken : Step.members ∈ (traceAssembly (some .members) dialFile).2.map Call.step := by
      by_contra untaken
      have given := (order.unreached (by rintro _ ⟨⟩; exact untaken)).trans assembled
      refine untaken ?_
      have steps := congrArg (List.map Prod.fst) (order.complete dial given)
      rw [List.map_map] at steps
      change Step.members ∈ List.map (Prod.fst ∘ Call.planned) _
      rw [steps]
      decide
    obtain ⟨failed, before, steps, first⟩ := order.reached _ rfl taken
    exact ⟨_, before, Prod.ext failed rfl, steps, first⟩

end ComponentSpec
