import ComponentSpec.Declarations
import ComponentSpec.Schema.Component

/-!
# Inherited props

A reference that is left among the members after flattening names a type from elsewhere. Only the
core view props may be inherited so.

* `inheritedGroup?` — the group that a member inherits, if it is such a reference;
* `inheritedOf` — the groups among the members;
* `withoutInherited` — the other members.
-/

namespace ComponentSpec

/-- **The group that a member inherits.** A property inherits none, nor does a reference to a type
of this file. -/
def inheritedGroup? (types : Declarations) (member : Value) : Checked (Option InheritedGroup) := do
  if !member.hasTagIn Value.referenceTags then return none
  let name := member.referenceName
  if ← types.declares name then return none
  if name.isText "ViewProps" then return some .coreView
  throw (.about (.propSpread name) member)

/-- **The groups that are inherited.** -/
def inheritedOf (types : Declarations) (members : List Value) : Checked (List InheritedGroup) :=
  List.filterMap id <$> members.mapM (inheritedGroup? types)

/-- **The members that inherit nothing.** -/
def withoutInherited (types : Declarations) (members : List Value) : Checked (List Value) :=
  members.filterM fun member => Option.isNone <$> inheritedGroup? types member

end ComponentSpec
