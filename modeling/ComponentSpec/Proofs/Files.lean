import Mathlib.Data.Set.Basic
import ComponentSpec.Disk.Tree
import ComponentSpec.Proofs.Checked
import ComponentSpec.Proofs.Paths

/-!
# Files that stay

A disk changes in two ways only: a directory is made where nothing is, and a file is written where
no directory is. What is put into a tree at a place shows there and at nothing but the places below
and above it, and above it there is a directory before and after. So every other file keeps its
bytes, and every directory stays one.

That directories stay is what keeps paths in their places: every step of a path starts from a
directory. A path leads after a change where it led before, and what is read at the end of it is
what has been written there.

* `FileTree.HasRoom` — the places at which something can be put;
* `FileTree.at?_put_append`, `FileTree.bytes?_put` — what shows of a tree with something put into
  it;
* `Disk.Keeps` — one disk with the files and directories of another, some places aside;
* `Disk.keeps_makeDirectories`, `Disk.keeps_write` — what the operations keep;
* `Disk.read_of_write` — what is written is read back.
-/

namespace ComponentSpec

/-! ### Trees -/

namespace FileTree

variable {t s new : FileTree} {place names : List String} {name : String} {bytes : List UInt8}

/-- The bytes of a file; a directory has none. -/
def bytes? : FileTree → Option (List UInt8)
  | .file bytes => some bytes
  | .directory _ => none

theorem at?_cons_eq_some : t.at? (name :: names) = some s ↔
    ∃ entries child, t = .directory entries ∧ entries.lookup name = some child ∧
      child.at? names = some s := by
  cases t with
  | file => simp [at?, child?]
  | directory entries => cases found : entries.lookup name <;> simp [at?, child?, found]

/-- Nothing is inside what has no entries. -/
theorem at?_eq_none_of_bare (bare : ∀ name, t.child? name = none) (below : names ≠ []) :
    t.at? names = none := by
  obtain ⟨name, names, rfl⟩ := List.exists_cons_of_ne_nil below
  rw [at?, bare name]

/-- A way in two parts leads on from where the first part leads. -/
theorem at?_append (t : FileTree) (names more : List String) :
    t.at? (names ++ more) = (t.at? names).bind fun s => s.at? more := by
  induction names generalizing t with
  | nil => rfl
  | cons name names ih =>
    rw [List.cons_append, at?, at?]
    cases t.child? name with
    | none => rfl
    | some child => exact ih child

/-- **The places at which something can be put:** the root, and what is or may come in a
directory. -/
def HasRoom (t : FileTree) (place : List String) : Prop :=
  place ≠ [] → ∃ entries, t.at? place.dropLast = some (.directory entries)

theorem hasRoom_nil : t.HasRoom [] := fun h => absurd rfl h

/-- Inside a directory there is room under every name. -/
theorem hasRoom_append_singleton {entries : List (String × FileTree)}
    (h : t.at? place = some (.directory entries)) (name : String) :
    t.HasRoom (place ++ [name]) := by
  intro _
  rw [List.dropLast_concat]
  exact ⟨entries, h⟩

/-- Where something stands there is room. -/
theorem hasRoom_of_at? (h : t.at? place = some s) : t.HasRoom place := by
  intro nonempty
  rw [← List.dropLast_concat_getLast nonempty, at?_append] at h
  obtain ⟨above, found, h⟩ := Option.bind_eq_some_iff.1 h
  obtain ⟨entries, -, rfl, -⟩ := at?_cons_eq_some.1 h
  exact ⟨entries, found⟩

/-- Room below a name is room in a directory, and in what the name leads to. -/
theorem HasRoom.of_cons (h : t.HasRoom (name :: names)) :
    ∃ entries, t = .directory entries ∧
      ((entries.lookup name).getD (.directory [])).HasRoom names ∧
      (names ≠ [] → (entries.lookup name).isSome) := by
  obtain ⟨inner, found⟩ := h (List.cons_ne_nil _ _)
  cases names with
  | nil =>
    obtain rfl := Option.some.inj found
    exact ⟨inner, rfl, hasRoom_nil, absurd rfl⟩
  | cons name' names =>
    obtain ⟨entries, child, rfl, here, found⟩ := at?_cons_eq_some.1 found
    refine ⟨entries, rfl, ?_, ?_⟩ <;> rw [here]
    · intro _
      exact ⟨inner, found⟩
    · intro _
      rfl

/-- **What is put at a place stands there.** -/
theorem at?_put_append (room : t.HasRoom place) (more : List String) :
    (t.put place new).at? (place ++ more) = new.at? more := by
  induction place generalizing t with
  | nil => cases t <;> rfl
  | cons name place ih =>
    obtain ⟨entries, rfl, inner, -⟩ := room.of_cons
    rw [put, List.cons_append, at?, child?, lookup_putEntry, if_pos rfl]
    exact ih inner

/-- What is put somewhere stands there, if there was room. -/
theorem at?_put (room : t.HasRoom place) : (t.put place new).at? place = some new := by
  have here : (t.put place new).at? (place ++ []) = new.at? [] := at?_put_append room []
  rwa [List.append_nil] at here

/-- **Away from the place nothing shows of it.** Above it a directory is one that it was before,
with other entries. -/
theorem bytes?_put (room : t.HasRoom place) (apart : ¬ place <+: names) :
    ((t.put place new).at? names).map bytes? = (t.at? names).map bytes? := by
  induction place generalizing t names with
  | nil => exact absurd List.nil_prefix apart
  | cons name place ih =>
    obtain ⟨entries, rfl, inner, found⟩ := room.of_cons
    cases names with
    | nil => rfl
    | cons name' names =>
      rw [put, at?, at?, child?, child?, lookup_putEntry]
      by_cases same : name' = name
      · subst same
        have apart' : ¬ place <+: names := fun h => apart (List.cons_prefix_cons.2 ⟨rfl, h⟩)
        -- the place is further below, so that the name leads to something already
        have further : place ≠ [] := by
          rintro rfl
          exact apart' List.nil_prefix
        obtain ⟨child, here⟩ := Option.isSome_iff_exists.1 (found further)
        rw [here, Option.getD_some] at inner ⊢
        rw [if_pos rfl]
        exact ih inner apart'
      · rw [if_neg same]

theorem map_bytes?_eq_file {o : Option FileTree} :
    o.map bytes? = some (some bytes) ↔ o = some (.file bytes) := by
  match o with
  | none | some (.directory _) => simp [bytes?]
  | some (.file _) => simp [bytes?]

theorem map_bytes?_eq_directory {o : Option FileTree} :
    o.map bytes? = some none ↔ ∃ entries, o = some (.directory entries) := by
  match o with
  | none | some (.directory _) => simp [bytes?]
  | some (.file _) => simp [bytes?]

end FileTree

/-! ### Disks -/

namespace Disk

open FileTree

variable {disk before middle after : Disk} {but : Set (List String)}
  {place place' names : List String} {name path : String} {bytes : List UInt8} {new : FileTree}

/-- **One disk has what another had:** the same files with the same bytes, some places aside, and
the directories. There may be more directories. -/
structure Keeps (but : Set (List String)) (before after : Disk) : Prop where
  files : ∀ names, names ∉ but → ∀ bytes,
    after.root.at? names = some (.file bytes) ↔ before.root.at? names = some (.file bytes)
  directories : ∀ names entries, before.root.at? names = some (.directory entries) →
    ∃ entries', after.root.at? names = some (.directory entries')
  working : after.working = before.working

theorem Keeps.refl (but : Set (List String)) (disk : Disk) : Keeps but disk disk :=
  ⟨fun _ _ _ => Iff.rfl, fun _ entries h => ⟨entries, h⟩, rfl⟩

/-- What two changes keep, both of them together keep. -/
theorem Keeps.trans (first : Keeps but before middle) (second : Keeps but middle after) :
    Keeps but before after := by
  constructor
  · intro names outside bytes
    rw [second.files names outside bytes, first.files names outside bytes]
  · intro names entries found
    obtain ⟨entries', found'⟩ := first.directories names entries found
    exact second.directories names entries' found'
  · rw [second.working, first.working]

/-- It may be left open for more places what happened to them. -/
theorem Keeps.mono {but' : Set (List String)} (h : Keeps but before after) (sub : but ⊆ but') :
    Keeps but' before after :=
  ⟨fun names outside => h.files names fun inside => outside (sub inside), h.directories, h.working⟩

/-! ### Where a path leads -/

/-- A step of a way is taken from a directory: it stays, goes up, or goes into what has the name. -/
theorem step_eq_ok (h : disk.step place name = .ok place') :
    ∃ entries, disk.root.at? place = some (.directory entries) ∧
      (place' = place ∨ place' = place.dropLast ∨ place' = place ++ [name]) := by
  unfold step at h
  split at h
  · cases h
  · cases h
  · next entries found =>
    refine ⟨entries, found, ?_⟩
    split at h
    · exact .inl (Except.ok.inj h).symm
    · split at h
      · exact .inr (.inl (Except.ok.inj h).symm)
      · split at h
        · cases h
        · exact .inr (.inr (Except.ok.inj h).symm)

/-- A step takes to where there is room. -/
theorem hasRoom_of_step (h : disk.step place name = .ok place') : disk.root.HasRoom place' := by
  obtain ⟨entries, found, rfl | rfl | rfl⟩ := step_eq_ok h
  · exact hasRoom_of_at? found
  · rcases eq_or_ne place [] with rfl | below
    · exact hasRoom_nil
    · obtain ⟨entries', above⟩ := hasRoom_of_at? found below
      exact hasRoom_of_at? above
  · exact hasRoom_append_singleton found name

/-- A path has at least one component, be it an empty name. -/
theorem components_ne_nil (path : String) : Path.components path ≠ [] := by
  simpa [Path.components] using Path.pieces_ne_nil path.toList

theorem steps_cons_eq_ok : (name :: names).foldlM disk.step place = .ok place' ↔
    ∃ next, disk.step place name = .ok next ∧ names.foldlM disk.step next = .ok place' := by
  rw [List.foldlM_cons, Checked.bind_eq_ok]

/-- A way that can be gone leads to a place where there is room. -/
theorem hasRoom_of_steps (some : names ≠ []) (h : names.foldlM disk.step place = .ok place') :
    disk.root.HasRoom place' := by
  induction names generalizing place with
  | nil => exact absurd rfl some
  | cons name names ih =>
    obtain ⟨next, first, rest⟩ := steps_cons_eq_ok.1 h
    rcases eq_or_ne names [] with rfl | more
    · cases rest
      exact hasRoom_of_step first
    · exact ih more rest

/-- A path that leads somewhere is one that can be followed, and its steps lead there. -/
theorem locate_eq_ok : disk.locate path = .ok place ↔
    (path.isEmpty = false ∧ path.toList.contains '\x00' = false ∧ path.utf8ByteSize < 4096) ∧
      (Path.components path).foldlM disk.step
        (if Path.isAbsolute path then [] else disk.working) = .ok place := by
  rw [locate]
  cases path.isEmpty with
  | true => simp
  | false =>
    cases path.toList.contains '\x00' with
    | true => simp
    | false =>
      by_cases long : 4096 ≤ path.utf8ByteSize
      · simp [long, Nat.not_lt.2 long]
      · simp [long, Nat.lt_of_not_le long]

/-- **A path leads to where there is room.** -/
theorem hasRoom_of_locate (h : disk.locate path = .ok place) : disk.root.HasRoom place :=
  hasRoom_of_steps (components_ne_nil path) (locate_eq_ok.1 h).2

/-- Where directories stay, a step takes to where it took. -/
theorem step_of_keeps (keeps : Keeps but before after) (h : before.step place name = .ok place') :
    after.step place name = .ok place' := by
  obtain ⟨entries, found, -⟩ := step_eq_ok h
  obtain ⟨entries', found'⟩ := keeps.directories place entries found
  rw [step, found] at h
  rw [step, found']
  exact h

/-- **A way that could be gone can still be gone** on a disk that keeps the directories. -/
theorem steps_of_keeps (keeps : Keeps but before after)
    (h : names.foldlM before.step place = .ok place') :
    names.foldlM after.step place = .ok place' := by
  induction names generalizing place with
  | nil => exact h
  | cons name names ih =>
    obtain ⟨next, first, rest⟩ := steps_cons_eq_ok.1 h
    exact steps_cons_eq_ok.2 ⟨next, step_of_keeps keeps first, ih rest⟩

/-- **A path leads to where it led.** -/
theorem locate_of_keeps (keeps : Keeps but before after) (h : before.locate path = .ok place) :
    after.locate path = .ok place := by
  obtain ⟨followed, steps⟩ := locate_eq_ok.1 h
  rw [← keeps.working] at steps
  exact locate_eq_ok.2 ⟨followed, steps_of_keeps keeps steps⟩

/-- A file can be read if its path leads to one. -/
theorem read_eq_ok : disk.read path = .ok bytes ↔
    ∃ place, disk.locate path = .ok place ∧ disk.root.at? place = some (.file bytes) := by
  rw [read, find]
  cases disk.locate path with
  | error cause => simp
  | ok place => rcases found : disk.root.at? place with _ | _ | _ <;> simp [found]

/-! ### Operations -/

/-- **What is put where no directory is** leaves the rest as it was. -/
theorem keeps_put (room : disk.root.HasRoom place)
    (vacant : ∀ entries, disk.root.at? place ≠ some (.directory entries))
    (bare : ∀ name, new.child? name = none) :
    Keeps {place} disk { disk with root := disk.root.put place new } := by
  have nothing (more : List String) (below : more ≠ []) :
      disk.root.at? (place ++ more) = none := by
    rw [at?_append]
    cases here : disk.root.at? place with
    | none => rfl
    | some s =>
      cases s with
      | directory entries => exact absurd here (vacant entries)
      | file bytes => exact at?_eq_none_of_bare (fun _ => rfl) below
  have same (names : List String) (other : names ≠ place) :
      ((disk.root.put place new).at? names).map bytes? = (disk.root.at? names).map bytes? := by
    by_cases inside : place <+: names
    · obtain ⟨more, rfl⟩ := inside
      have below : more ≠ [] := by simpa using other
      rw [at?_put_append room, at?_eq_none_of_bare bare below, nothing more below]
    · exact bytes?_put room inside
  constructor
  · intro names other bytes
    rw [← map_bytes?_eq_file, ← map_bytes?_eq_file, same names other]
  · intro names entries found
    -- the place itself was no directory
    have other : names ≠ place := by
      rintro rfl
      exact vacant entries found
    rw [← map_bytes?_eq_directory, same names other]
    exact map_bytes?_eq_directory.2 ⟨entries, found⟩
  · rfl

/-- A directory is made where nothing stands, and nothing else changes. -/
theorem makeDirectory_eq_ok : disk.makeDirectory path = .ok after ↔
    ∃ place, disk.locate path = .ok place ∧ disk.root.at? place = none ∧
      after = { disk with root := disk.root.put place (.directory []) } := by
  rw [makeDirectory]
  cases disk.locate path with
  | error cause => simp
  | ok place => cases found : disk.root.at? place <;> simp [found, eq_comm]

/-- A file is written where no directory stands, and nothing else changes. -/
theorem write_eq_ok : disk.write path bytes = .ok after ↔
    ∃ place, disk.locate path = .ok place ∧
      (∀ entries, disk.root.at? place ≠ some (.directory entries)) ∧
      after = { disk with root := disk.root.put place (.file bytes) } := by
  rw [write]
  cases disk.locate path with
  | error cause => simp
  | ok place => rcases found : disk.root.at? place with _ | _ | _ <;> simp [found, eq_comm]

/-- **Making a directory** changes no file. -/
theorem keeps_makeDirectory (h : disk.makeDirectory path = .ok after) : Keeps ∅ disk after := by
  obtain ⟨place, leads, missing, rfl⟩ := makeDirectory_eq_ok.1 h
  have room := hasRoom_of_locate leads
  have keeps : Keeps {place} disk { disk with root := disk.root.put place (.directory []) } :=
    keeps_put room (by simp [missing]) fun _ => rfl
  refine ⟨?_, keeps.directories, rfl⟩
  intro names _ bytes
  by_cases here : names = place
  · -- there was nothing, and now there is a directory
    subst here
    simp [at?_put room, missing]
  · exact keeps.files names here bytes

/-- Making directories keeps every file. -/
theorem keeps_ensureDirectory (disk : Disk) (path : String) :
    Keeps ∅ disk (disk.ensureDirectory path).1 := by
  unfold ensureDirectory
  split
  · next made => exact keeps_makeDirectory made
  · exact Keeps.refl ∅ disk

theorem keeps_finish (disk : Disk) (name path : String) :
    Keeps ∅ disk (makeDirectories.finish disk name path).1 := by
  unfold makeDirectories.finish
  split
  · exact Keeps.refl ∅ disk
  · exact keeps_ensureDirectory disk path

/-- **Making directories,** as far as that goes, changes no file. -/
theorem keeps_makeDirectories (disk : Disk) (path : String) :
    Keeps ∅ disk (disk.makeDirectories path).1 := by
  have go (depth : Nat) (path : String) : Keeps ∅ disk (makeDirectories.go depth disk path).1 := by
    -- those above are made first, and then the last one
    induction depth generalizing path with
    | zero => exact keeps_ensureDirectory disk path
    | succ depth ih =>
      unfold makeDirectories.go
      generalize (if (Path.base path).isEmpty then
        (Path.head (Path.head path), Path.base (Path.head path))
        else (Path.head path, Path.base path)) = split
      obtain ⟨above, name⟩ := split
      have first := ih above
      simp only
      split
      · exact keeps_ensureDirectory disk path
      · split
        · next made => exact (made ▸ first).trans (keeps_finish _ name path)
        · next made =>
          split
          · exact (made ▸ first).trans (keeps_finish _ name path)
          · exact made ▸ first
  exact go path.length path

/-- **Writing a file** changes the file that its path leads to, and no other. -/
theorem keeps_write (h : disk.write path bytes = .ok after) :
    ∃ place, Keeps {place} disk after ∧ after.locate path = .ok place ∧
      after.root.at? place = some (.file bytes) := by
  obtain ⟨place, leads, vacant, rfl⟩ := write_eq_ok.1 h
  have room := hasRoom_of_locate leads
  have keeps : Keeps {place} disk { disk with root := disk.root.put place (.file bytes) } :=
    keeps_put room vacant fun _ => rfl
  exact ⟨place, keeps, locate_of_keeps keeps leads, at?_put room⟩

/-- **What is written is read back.** -/
theorem read_of_write (h : disk.write path bytes = .ok after) : after.read path = .ok bytes := by
  obtain ⟨place, -, leads, here⟩ := keeps_write h
  exact read_eq_ok.2 ⟨place, leads, here⟩

end Disk

end ComponentSpec
