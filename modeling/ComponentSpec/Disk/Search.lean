import ComponentSpec.Disk.Tree
import ComponentSpec.Disk.Pattern

/-!
# Searching a disk

A search path is a path whose names may be patterns; the name `**` stands for any number of
directories. What it finds is spelled as the search path spells it. A name that begins with a dot is
hidden: no pattern fits it unless the pattern begins with a dot itself.

* `Disk.search` — the paths that a search path finds;
* `Disk.collect` — the files of a source: a file itself, or what lies below a directory and fits a
  pattern, in order.
-/

namespace ComponentSpec

namespace FileTree

def isDirectory : FileTree → Bool
  | .directory _ => true
  | .file _ => false

end FileTree

namespace Disk

def isHidden (name : String) : Bool := name.toList.head? == some '.'

mutual

/-- The paths of what lies below a directory, hidden names left out. -/
def below (onlyDirectories : Bool) : FileTree → List String
  | .file _ => []
  | .directory entries => belowEntries onlyDirectories entries

def belowEntries (onlyDirectories : Bool) : List (String × FileTree) → List String
  | [] => []
  | (name, t) :: es =>
    (if isHidden name then []
    else
      (if onlyDirectories && !t.isDirectory then [] else [name])
        ++ (below onlyDirectories t).map (Path.join name))
      ++ belowEntries onlyDirectories es

end

/-- The directory that a search looks into; the working directory if none is named. -/
def lookInto (disk : Disk) (directory : String) : List (String × FileTree) :=
  disk.entries (if directory.isEmpty then "." else directory)

/-- What one name of a search path finds in a directory. -/
def searchName (disk : Disk) (onlyDirectories : Bool) (directory name : String) : List String :=
  if name = "**" then
    (if directory.isEmpty || disk.isDirectory directory then [""] else [])
      ++ belowEntries onlyDirectories (disk.lookInto directory)
  else if Pattern.isOpen name then
    (disk.lookInto directory).filterMap fun e =>
      if (onlyDirectories && !e.2.isDirectory) || (isHidden e.1 && !isHidden name) then none
      else if Pattern.fits name e.1 then some e.1 else none
  else if name.isEmpty then
    if disk.isDirectory directory then [name] else []
  else if disk.holds (if directory.isEmpty then name else Path.join directory name) then [name]
  else []

/-- **The paths that a search path finds.** Only the last name may find a file, and only if
`onlyDirectories` does not forbid it. -/
def search (disk : Disk) (onlyDirectories : Bool) (path : String) : List String :=
  let directory := Path.head path
  let name := Path.base path
  if !Pattern.isOpen path then
    if name.isEmpty then
      if disk.isDirectory directory then [path] else []
    else if disk.holds path then [path] else []
  else if directory.isEmpty then disk.searchName onlyDirectories "" name
  else
    let directories :=
      if Pattern.isOpen directory then
        if _shorter : directory.length < path.length then disk.search true directory
        else [directory]
      else [directory]
    directories.flatMap fun d => (disk.searchName onlyDirectories d name).map (Path.join d)
  termination_by path.length

/-- **The files of a source.** A file stands for itself; a directory for everything below it that
ends in `.json` and fits the pattern, sorted; anything else for nothing. -/
def collect (disk : Disk) (source pattern : String) : Option (List String) :=
  if disk.isFile source then some [source]
  else if disk.isDirectory source then
    let found := disk.search false (Path.join (Path.join source "**") "*.json")
    some ((found.filter fun p => Pattern.fits pattern (Path.base p)).mergeSort fun a b => a ≤ b)
  else none

end Disk

end ComponentSpec
