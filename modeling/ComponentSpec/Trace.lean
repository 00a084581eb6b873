import ComponentSpec.Assembly

/-!
# Watching an assembly

A recording resolver does what the standard one does and keeps a list of the steps that were taken,
each with a summary of what it was given first. It can be told to fail at a step; the step is
recorded, and fails instead of being taken.

* `Step` — the steps of a resolver;
* `Recorded` — faults over a record of steps;
* `Resolver.recording` — the recording resolver;
* `traceAssembly` — the record of an assembly and its outcome.
-/

namespace ComponentSpec

/-- The steps of a resolver. -/
inductive Step where
  | declarations
  | members
  | commandOptions
  | inherited
  | options
  | ownMembers
  | props
  | events
  | commands
  | state
deriving DecidableEq, Inhabited

/-- A step that was taken, with a summary of what it was given. -/
structure Call where
  step : Step
  summary : Value
deriving Inhabited

/-- **Faults over a record of steps.** The record survives the fault. -/
abbrev Recorded := ExceptT Fault (StateM (List Call))

/-- The name of a member: that of its key or, where this is missing or empty, that of the type it
refers to. -/
def memberSummary (member : Value) : Value :=
  if member.keyName.truthy then member.keyName else member.referenceName

/-- A node is summed up by its tag, anything else by itself. -/
def nodeSummary (v : Value) : Value := if v.isObject then v.tag else v

/-- Records a step, and fails at the step that is to fail. -/
def recordStep (failAt : Option Step) (step : Step) (summary : Value) : Recorded Unit := do
  modify fun calls => calls ++ [⟨step, summary⟩]
  if failAt = some step then throw (Fault.bare (.other .shape "injected" none))

/-- **The standard steps, recorded.** -/
def Resolver.recording (failAt : Option Step) : Resolver Recorded where
  declarations tree := do
    recordStep failAt .declarations (nodeSummary tree)
    MonadExcept.ofExcept (standard.declarations tree)
  members name types := do
    recordStep failAt .members name
    MonadExcept.ofExcept (standard.members name types)
  commandOptions expression := do
    recordStep failAt .commandOptions (nodeSummary expression)
    MonadExcept.ofExcept (standard.commandOptions expression)
  inherited members types := do
    recordStep failAt .inherited (.arr (members.map memberSummary))
    MonadExcept.ofExcept (standard.inherited members types)
  options expression := do
    recordStep failAt .options (nodeSummary expression)
    MonadExcept.ofExcept (standard.options expression)
  ownMembers members types := do
    recordStep failAt .ownMembers (.arr (members.map memberSummary))
    MonadExcept.ofExcept (standard.ownMembers members types)
  props members types := do
    recordStep failAt .props (.arr (members.map memberSummary))
    MonadExcept.ofExcept (standard.props members types)
  events members types := do
    recordStep failAt .events (.arr (members.map memberSummary))
    MonadExcept.ofExcept (standard.events members types)
  commands members types := do
    recordStep failAt .commands (.arr (members.map memberSummary))
    MonadExcept.ofExcept (standard.commands members types)
  state members types := do
    recordStep failAt .state (.arr (members.map memberSummary))
    MonadExcept.ofExcept (standard.state members types)

/-- **The outcome of an assembly and the steps it took.** -/
def traceAssembly (failAt : Option Step) (tree : Value) : Checked ComponentSchema × List Call :=
  (assemble (Resolver.recording failAt) tree).run []

end ComponentSpec
