import ComponentSpec.Disk.Path
import ComponentSpec.Text.Quoted
import ComponentSpec.Value

/-!
# Files and directories

A disk is a tree of directories and files, a working directory in it, and the home directory of its
user. Paths are followed from the root or from the working directory, name by name: `.` and an empty
name stay, `..` goes up, and all of them ask for a directory to start from. An operation fails with
the cause that a system would give, and the path it was asked for.

* `FileTree`, `Disk` — the data;
* `System` — what the system that has the disk can read, assemble and print;
* `Disk.locate` — where a path leads, whether or not something is there;
* `Disk.read`, `Disk.makeDirectories`, `Disk.write` — the operations.
-/

namespace ComponentSpec

/-- A file with its bytes, or a directory with its entries. -/
inductive FileTree where
  | file (bytes : List UInt8)
  | directory (entries : List (String × FileTree))
deriving Inhabited

/-- Why an operation on a disk fails. -/
inductive DiskCause where
  | missing
  | occupied
  | notDirectory
  | isDirectory
  | nameTooLong
  /-- A path with a null character names nothing. -/
  | unnameable
deriving DecidableEq

/-- A failed operation. -/
structure DiskError where
  cause : DiskCause
  path : String
deriving DecidableEq

namespace DiskError

/-- The number and the wording of a cause, where the system has one. -/
def described : DiskCause → Option (Nat × String)
  | .missing => some (2, "No such file or directory")
  | .occupied => some (17, "File exists")
  | .notDirectory => some (20, "Not a directory")
  | .isDirectory => some (21, "Is a directory")
  | .nameTooLong => some (36, "File name too long")
  | .unnameable => none

def message (e : DiskError) : String :=
  match described e.cause with
  | some (number, text) =>
    "[Errno " ++ toString number ++ "] " ++ text ++ ": " ++ Text.quoted (Text.hold e.path)
  | none => "embedded null byte"

end DiskError

namespace FileTree

/-- The entry of a directory. -/
def child? : FileTree → String → Option FileTree
  | .directory entries, name => entries.lookup name
  | .file _, _ => none

/-- What stands at the end of a list of names. -/
def at? : FileTree → List String → Option FileTree
  | t, [] => some t
  | t, name :: names => match t.child? name with
    | some c => c.at? names
    | none => none

@[simp] theorem at?_nil (t : FileTree) : t.at? [] = some t := rfl

/-- The entries with one of them replaced, or added at the end. -/
def putEntry (entries : List (String × FileTree)) (name : String) (t : FileTree) :
    List (String × FileTree) :=
  match entries with
  | [] => [(name, t)]
  | e :: es => if e.1 = name then (name, t) :: es else e :: putEntry es name t

theorem lookup_putEntry (entries : List (String × FileTree)) (name : String) (t : FileTree)
    (name' : String) :
    (putEntry entries name t).lookup name'
      = if name' = name then some t else entries.lookup name' := by
  induction entries with
  | nil =>
    by_cases h : name' = name
    · simp [putEntry, h]
    · rw [putEntry, List.lookup_cons, beq_false_of_ne h, if_neg h]
  | cons e es ih =>
    obtain ⟨n, s⟩ := e
    rw [putEntry]
    split
    · next here =>
      subst here
      by_cases h : name' = n
      · simp [h]
      · rw [List.lookup_cons, List.lookup_cons, beq_false_of_ne h, if_neg h]
    · next elsewhere =>
      by_cases h : name' = n
      · have apart : ¬ name' = name := fun same => elsewhere (h.symm.trans same)
        rw [List.lookup_cons, List.lookup_cons, if_neg apart]
        simp [h]
      · rw [List.lookup_cons, List.lookup_cons, beq_false_of_ne h]
        exact ih

/-- The tree with a new one at the end of a list of names; directories on the way are made. -/
def put : FileTree → List String → FileTree → FileTree
  | _, [], new => new
  | .file bytes, _ :: _, _ => .file bytes
  | .directory entries, name :: names, new =>
    .directory (putEntry entries name (((entries.lookup name).getD (.directory [])).put names new))

end FileTree

/-- **What the system takes of a run.** Reading a text and assembling a tree go down a level of the
stack for each level that these are nested, and how many there are is a matter of the system. So is
whether its output prints half of a pair: strict output prints none. -/
structure System where
  /-- Whether a text can be read before the stack gives out. -/
  reads : String → Bool
  /-- Whether a tree can be assembled before the stack gives out. -/
  assembles : Value → Bool
  /-- Whether half of a pair can be printed. -/
  prints : Nat → Bool

namespace System

/-- A system with a stack that no run exhausts, and with strict output. -/
def standard : System := ⟨fun _ => true, fun _ => true, fun _ => false⟩

/-- Whether a text holds half of a pair that cannot be printed. -/
def refuses (system : System) (s : String) : Bool :=
  (Text.codes s).any fun code => Text.isHalf code && !system.prints code

end System

/-- **A disk,** and the system of the runs on it. -/
structure Disk where
  root : FileTree
  /-- The names that lead from the root to the working directory. -/
  working : List String
  /-- The path of the home directory. -/
  home : String
  system : System := .standard

namespace Disk

/-- One step along a path, from the place reached so far. -/
def step (disk : Disk) (place : List String) (name : String) : Except DiskCause (List String) :=
  match disk.root.at? place with
  | none => .error .missing
  | some (.file _) => .error .notDirectory
  | some (.directory _) =>
    if name = "" ∨ name = "." then .ok place
    else if name = ".." then .ok place.dropLast
    else if 255 < name.utf8ByteSize then .error .nameTooLong
    else .ok (place ++ [name])

/-- **Where a path leads.** Everything but the last name has to be there. A path and the byte that
ends it have room for 4096 bytes, a name for 255. -/
def locate (disk : Disk) (path : String) : Except DiskCause (List String) :=
  if path.isEmpty then .error .missing
  else if path.toList.contains '\x00' then .error .unnameable
  else if 4096 ≤ path.utf8ByteSize then .error .nameTooLong
  else
    (Path.components path).foldlM disk.step (if Path.isAbsolute path then [] else disk.working)

/-- What a path leads to. -/
def find (disk : Disk) (path : String) : Except DiskError FileTree :=
  match disk.locate path with
  | .error cause => .error ⟨cause, path⟩
  | .ok place =>
    match disk.root.at? place with
    | some t => .ok t
    | none => .error ⟨.missing, path⟩

def holds (disk : Disk) (path : String) : Bool :=
  match disk.find path with
  | .ok _ => true
  | .error _ => false

def isFile (disk : Disk) (path : String) : Bool :=
  match disk.find path with
  | .ok (.file _) => true
  | _ => false

def isDirectory (disk : Disk) (path : String) : Bool :=
  match disk.find path with
  | .ok (.directory _) => true
  | _ => false

/-- The entries of a directory; none where there is no directory. -/
def entries (disk : Disk) (path : String) : List (String × FileTree) :=
  match disk.find path with
  | .ok (.directory es) => es
  | _ => []

/-- **The bytes of a file.** -/
def read (disk : Disk) (path : String) : Except DiskError (List UInt8) :=
  match disk.find path with
  | .ok (.file bytes) => .ok bytes
  | .ok (.directory _) => .error ⟨.isDirectory, path⟩
  | .error e => .error e

/-- The disk with a directory made where nothing is. -/
def makeDirectory (disk : Disk) (path : String) : Except DiskError Disk :=
  match disk.locate path with
  | .error cause => .error ⟨cause, path⟩
  | .ok place =>
    match disk.root.at? place with
    | some _ => .error ⟨.occupied, path⟩
    | none => .ok { disk with root := disk.root.put place (.directory []) }

/-- The disk with a directory made, unless it is there already, and what went wrong. -/
def ensureDirectory (disk : Disk) (path : String) : Disk × Option DiskError :=
  match disk.makeDirectory path with
  | .ok made => (made, none)
  | .error e => (disk, if disk.isDirectory path then none else some e)

/-- **The disk with a directory and those above it made**, as far as they are not there, and what
went wrong. Directories that were made before something went wrong stay. A path has at most as many
directories above it as it has characters. -/
def makeDirectories (disk : Disk) (path : String) : Disk × Option DiskError :=
  go path.length disk path
where
  finish (disk : Disk) (name path : String) : Disk × Option DiskError :=
    if name = "." then (disk, none) else disk.ensureDirectory path
  go : Nat → Disk → String → Disk × Option DiskError
    | 0, disk, path => disk.ensureDirectory path
    | depth + 1, disk, path =>
      -- A slash at the end asks for the same directory.
      let (above, name) :=
        if (Path.base path).isEmpty then (Path.head (Path.head path), Path.base (Path.head path))
        else (Path.head path, Path.base path)
      if above.isEmpty || name.isEmpty || disk.holds above then disk.ensureDirectory path
      else
        match go depth disk above with
        | (disk, none) => finish disk name path
        | (disk, some e) => if e.cause = .occupied then finish disk name path else (disk, some e)

/-- **The disk with a file written**, new or in the place of an old one. -/
def write (disk : Disk) (path : String) (bytes : List UInt8) : Except DiskError Disk :=
  match disk.locate path with
  | .error cause => .error ⟨cause, path⟩
  | .ok place =>
    match disk.root.at? place with
    | some (.directory _) => .error ⟨.isDirectory, path⟩
    | _ => .ok { disk with root := disk.root.put place (.file bytes) }

end Disk

end ComponentSpec
