import ComponentSpec.CommandLine.Run
import ComponentSpec.Disk.Changes

/-!
# The program

The outer layer of the command line. It takes a picture of those parts of the disk that the words
reach, runs them on the picture, prints what is printed and writes what the run has changed. What is
done is decided by `CommandLine.run` alone.

* `Invocation.paths` — the paths that a command line reaches;
* `treeAt`, `picture` — reading them;
* `runOnDisk` — a run on the disk itself.
-/

namespace ComponentSpec.CommandLine

/-! ### What is reached -/

/-- The paths that an invocation reaches, each with whether everything below it counts. -/
def Invocation.paths (i : Invocation) : List (String × Bool) :=
  let single (p : String) : String × Bool := (p, false)
  let paths := match i.command with
    | none => []
    | some (.build file output _) => (file :: output.toList).map single
    | some (.combine sources output _) =>
      sources.map (fun p => (p, true)) ++ output.toList.map single
    | some (.check files) => files.map single
  i.config.toList.map single ++ paths

/-- Whether the standard input is read. -/
def Invocation.readsInput (i : Invocation) : Bool :=
  match i.command with
  | some (.build file _ _) => file == "-"
  | _ => false

/-- The names that lead to a path, from the root, as it is spelled. -/
def namesOf (working : List String) (path : String) : List String :=
  (Path.components path).foldl
    (fun place name =>
      if name = "" ∨ name = "." then place else if name = ".." then place.dropLast
      else place ++ [name])
    (if Path.isAbsolute path then [] else working)

/-- The paths above a path, the uppermost first. -/
def pathsAbove (path : String) : List String :=
  let components := Path.components path
  (List.range components.length).map fun n => "/".intercalate (components.take n)

/-! ### Reading -/

/-- What stands at a path. Directories are empty unless everything below them counts. -/
partial def treeAt (deep : Bool) (path : String) : IO (Option FileTree) := do
  let place := (← IO.currentDir) / path
  if ← place.isDir then
    if !deep then return some (.directory [])
    let mut entries := []
    for entry in ← place.readDir do
      if let some t ← treeAt deep (Path.join path entry.fileName) then
        entries := entries ++ [(entry.fileName, t)]
    return some (.directory entries)
  if !(← place.pathExists) then return none
  return some (.file (← IO.FS.readBinFile place).toList)

/-- The tree with another one at the end of a list of names, unless something is there. -/
def putNew (tree : FileTree) (names : List String) (t : FileTree) : FileTree :=
  if (tree.at? names).isNone then tree.put names t else tree

/-- The tree with what stands at a path, and the directories above it. -/
def addPath (working : List String) (tree : FileTree) (path : String) (deep : Bool) :
    IO FileTree := do
  let mut tree := tree
  for above in pathsAbove path do
    if let some (.directory _) ← treeAt false above then
      tree := putNew tree (namesOf working above) (.directory [])
  match ← treeAt deep path with
  | some t =>
    let names := namesOf working path
    return if deep then tree.put names t else putNew tree names t
  | none => return tree

/-- The part of the disk that a command line reaches. -/
def picture (words : List String) : IO Disk := do
  let working := namesOf [] (← IO.currentDir).toString
  let home := (← IO.getEnv "HOME").getD "/"
  let paths := match Invocation.parse words with
    | .ok i => i.paths
    | .error _ => []
  let start : Disk := { root := (FileTree.directory []).put working (.directory []), working, home }
  let settings := (Settings.places start).map fun p => (p, false)
  let mut root := start.root
  for (path, deep) in settings ++ paths do
    root ← addPath working root path deep
  return { start with root }

/-- The rest of a stream. -/
partial def readRest (stream : IO.FS.Stream) (done : String) : IO String := do
  let line ← stream.getLine
  if line.isEmpty then return done else readRest stream (done ++ line)

/-- The standard input, if a command line reads it. -/
def inputFor (words : List String) : IO String := do
  match Invocation.parse words with
  | .ok i => if i.readsInput then readRest (← IO.getStdin) "" else return ""
  | .error _ => return ""

/-! ### The program -/

/-- Makes a change at its place. -/
def writeChange (change : Change) : IO Unit := do
  let path := "/" ++ "/".intercalate change.names
  match change.bytes with
  | some bytes => IO.FS.writeBinFile path ⟨bytes.toArray⟩
  | none => IO.FS.createDir path

/-- Runs a command line on the disk. A fault that nothing expects ends the run like a failure. -/
def runOnDisk (words : List String) : IO UInt32 := do
  let disk ← picture words
  let outcome := run disk (← inputFor words) words
  for change in disk.root.changes outcome.disk.root do
    writeChange change
  IO.print outcome.stdout
  IO.eprint outcome.stderr
  match outcome.ending with
  | .exit status => return status.toUInt32
  | .crash fault =>
    IO.eprint (line (faultText fault))
    return 1

end ComponentSpec.CommandLine

/-- **The program.** -/
def main (words : List String) : IO UInt32 := ComponentSpec.CommandLine.runOnDisk words
