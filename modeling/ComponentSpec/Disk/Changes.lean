import ComponentSpec.Disk.Tree

/-!
# Changes of a tree

What a later tree has that an earlier one has not: files with other bytes, files and directories
that are new. What is gone from the later tree is no change, since nothing is ever removed.

* `Change` — a file or a directory, and the names that lead to it;
* `FileTree.changes` — all changes, each directory before what is in it.
-/

namespace ComponentSpec

/-- **A change**; a directory has no bytes. -/
structure Change where
  names : List String
  bytes : Option (List UInt8)
deriving DecidableEq

namespace FileTree

/-- The change that a file makes in the place of an earlier tree, if any. -/
def fileChange (names : List String) (bytes : List UInt8) : Option FileTree → List Change
  | some (.file earlier) => if earlier = bytes then [] else [⟨names, some bytes⟩]
  | _ => [⟨names, some bytes⟩]

/-- The change that a directory makes in the place of an earlier tree, if any. -/
def directoryChange (names : List String) : Option FileTree → List Change
  | some (.directory _) => []
  | _ => [⟨names, none⟩]

mutual

/-- The changes at the end of a list of names. -/
def changesFrom (names : List String) (earlier : Option FileTree) : FileTree → List Change
  | .file bytes => fileChange names bytes earlier
  | .directory entries =>
    directoryChange names earlier ++ entryChanges names earlier entries

def entryChanges (names : List String) (earlier : Option FileTree) :
    List (String × FileTree) → List Change
  | [] => []
  | (name, later) :: es =>
    changesFrom (names ++ [name]) (earlier.bind fun t => t.child? name) later
      ++ entryChanges names earlier es

end

/-- **The changes from one tree to a later one.** -/
def changes (earlier later : FileTree) : List Change := changesFrom [] (some earlier) later

end FileTree

end ComponentSpec
