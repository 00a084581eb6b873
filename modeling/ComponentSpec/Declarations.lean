import ComponentSpec.Node

/-!
# Declared types

The types that a file declares at its top level, exported or not, by name. Where a name is declared
twice the last declaration stands. Types are only ever looked up; the order of the table is the
order of the first declarations.

* `Declarations` — the table;
* `Declarations.ofTree` — the declarations of a file;
* `Declarations.find`, `Declarations.declares` — looking up what a tree holds in the place of a
  name.
-/

namespace ComponentSpec

/-- **The declared types, by name.** -/
abbrev Declarations := Table Value

namespace Declarations

/-- The type declaration that a statement makes, exported or not. -/
def declared? (statement : Value) : Option Value :=
  let declaration :=
    if statement.hasTag "ExportNamedDeclaration" then statement.get "declaration" else statement
  if declaration.hasTagIn ["TSTypeAliasDeclaration", "TSInterfaceDeclaration", "TSEnumDeclaration"]
  then some declaration
  else none

/-- The table with the declaration of one more statement. A declaration without a name is left
out. -/
def addStatement (types : Declarations) (statement : Value) : Checked Declarations :=
  match declared? statement with
  | none => .ok types
  | some declaration =>
    let name := declaration.declarationName
    if name.truthy then do
      return types.set (← name.key) declaration
    else .ok types

/-- **The types that a file declares.** -/
def ofTree (tree : Value) : Checked Declarations := tree.programBody.foldlM addStatement []

/-- The declaration of a name, `null` where there is none. -/
def find (types : Declarations) (name : Value) : Checked Value :=
  return (Table.find? types (← name.key)).getD .null

/-- Whether a name is declared. -/
def declares (types : Declarations) (name : Value) : Checked Bool :=
  return Table.has types (← name.key)

end Declarations

end ComponentSpec
