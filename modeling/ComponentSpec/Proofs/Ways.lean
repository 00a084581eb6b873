import Mathlib.Data.List.Nodup
import ComponentSpec.Disk.Search
import ComponentSpec.Proofs.Files

/-!
# The ways below a directory

What lies below a directory is listed by going through the tree, and it is looked at by following
the path that spells it. Both are told by the names on the way. The listing has every way without a
hidden name exactly once (`mem_ways`, `nodup_ways`), and a path that goes on from a directory with
the names of a way leads to the end of it (`locate_under`). This is so on a disk whose directories
have proper names, each once (`FileTree.Sound`), because there a name is found if and only if it is
listed.

The slashes at the end of a directory's path are no names, and with or without them the path leads
to the same place (`leads_opened`). A path may be too long to be followed at all, also where each
step of it could be taken; then nothing is seen at its end (`lookInto_under`).

* `FileTree.Sound` — trees as a disk holds them;
* `Disk.ways` — the ways to what lies below a directory;
* `Disk.Leads` — where the components of a path lead from a place;
* `Disk.locate_under`, `Disk.lookInto_under` — where a way leads, and what is seen there.
-/

namespace ComponentSpec

open ComponentSpec.Path

/-! ### Trees as a disk holds them -/

namespace FileTree

variable {t s : FileTree} {entries : List (String × FileTree)} {name : String}
  {place names : List String}

/-- **A tree as a disk holds it:** the entries of every directory have names, each its own. -/
def Sound (t : FileTree) : Prop :=
  ∀ place entries, t.at? place = some (.directory entries) →
    (entries.map Prod.fst).Nodup ∧ ∀ e ∈ entries, IsName e.1

theorem sound_file (bytes : List UInt8) : (file bytes).Sound := by
  intro place entries found
  cases place with
  | nil => cases found
  | cons name place => simp [at?, child?] at found

theorem Sound.below (sound : t.Sound) (found : t.at? place = some s) : s.Sound := by
  intro names entries inside
  refine sound (place ++ names) entries ?_
  rw [at?_append, found]
  exact inside

theorem lookup_eq_some_iff (distinct : (entries.map Prod.fst).Nodup) :
    entries.lookup name = some t ↔ (name, t) ∈ entries := by
  induction entries with
  | nil => simp
  | cons e entries ih =>
    obtain ⟨here, distinct⟩ := List.nodup_cons.1 distinct
    rw [List.lookup_cons, List.mem_cons]
    by_cases same : name = e.1
    · subst same
      have absent : (e.1, t) ∉ entries := by
        intro inside
        exact here (List.mem_map.2 ⟨_, inside, rfl⟩)
      simp [absent, Prod.ext_iff, eq_comm]
    · have other : (name, t) ≠ e := fun h => same (congrArg Prod.fst h)
      rw [beq_false_of_ne same, ih distinct]
      simp [other]

theorem Sound.child (sound : (directory entries).Sound) (inside : (name, t) ∈ entries) :
    t.Sound := by
  have here := (lookup_eq_some_iff (sound [] entries rfl).1).2 inside
  have found : (directory entries).at? [name] = some t :=
    at?_cons_eq_some.2 ⟨entries, t, rfl, here, rfl⟩
  exact sound.below found

theorem sound_directory (distinct : (entries.map Prod.fst).Nodup)
    (inside : ∀ e ∈ entries, IsName e.1 ∧ e.2.Sound) : (directory entries).Sound := by
  intro place entries' found
  cases place with
  | nil =>
    cases found
    exact ⟨distinct, fun e he => (inside e he).1⟩
  | cons name place =>
    obtain ⟨entries, child, same, here, below⟩ := at?_cons_eq_some.1 found
    cases same
    exact (inside _ ((lookup_eq_some_iff distinct).1 here)).2 place entries' below

/-- The names on the way are names. -/
theorem Sound.isName (sound : t.Sound) (found : t.at? names = some s) : ∀ n ∈ names, IsName n := by
  induction names generalizing t with
  | nil => exact fun _ h => absurd h List.not_mem_nil
  | cons name names ih =>
    obtain ⟨entries, child, rfl, here, below⟩ := at?_cons_eq_some.1 found
    obtain ⟨distinct, named⟩ := sound [] entries rfl
    have inside := (lookup_eq_some_iff distinct).1 here
    exact List.forall_mem_cons.2 ⟨named _ inside, ih (sound.child inside) below⟩

theorem Sound.isName_of_append (sound : t.Sound) (found : t.at? (place ++ names) = some s) :
    ∀ n ∈ names, IsName n :=
  fun n hn => sound.isName found n (List.mem_append_right _ hn)

end FileTree

namespace Disk

open FileTree

variable {disk : Disk} {t : FileTree} {entries : List (String × FileTree)} {onlyDirectories : Bool}
  {source path name : String} {place names start : List String}

/-! ### The ways below a directory -/

mutual

/-- **The ways from a directory to what lies below it,** hidden names left out. -/
def ways (onlyDirectories : Bool) : FileTree → List (List String)
  | .file _ => []
  | .directory entries => waysAmong onlyDirectories entries

def waysAmong (onlyDirectories : Bool) : List (String × FileTree) → List (List String)
  | [] => []
  | (name, t) :: es =>
    (if isHidden name then []
    else
      (if onlyDirectories && !t.isDirectory then [] else [[name]])
        ++ (ways onlyDirectories t).map (name :: ·))
      ++ waysAmong onlyDirectories es

end

theorem mem_waysAmong : names ∈ waysAmong onlyDirectories entries ↔
    ∃ name inner t, names = name :: inner ∧ (name, t) ∈ entries ∧ isHidden name = false ∧
      ((inner = [] ∧ (onlyDirectories → t.isDirectory)) ∨ inner ∈ ways onlyDirectories t) := by
  induction entries with
  | nil => simp [waysAmong]
  | cons e entries ih =>
    obtain ⟨name, t⟩ := e
    have first : names ∈ (if isHidden name then [] else
          (if onlyDirectories && !t.isDirectory then [] else [[name]])
            ++ (ways onlyDirectories t).map (name :: ·)) ↔
        ∃ inner, names = name :: inner ∧ isHidden name = false ∧
          ((inner = [] ∧ (onlyDirectories → t.isDirectory)) ∨ inner ∈ ways onlyDirectories t) := by
      have alone : names ∈ (if onlyDirectories && !t.isDirectory then [] else [[name]]) ↔
          names = [name] ∧ (onlyDirectories → t.isDirectory) := by
        cases onlyDirectories <;> cases t.isDirectory <;> simp
      cases isHidden name with
      | true => simp
      | false =>
        rw [if_neg Bool.false_ne_true, List.mem_append, alone, List.mem_map]
        constructor
        · rintro (⟨rfl, only⟩ | ⟨inner, further, rfl⟩)
          · exact ⟨[], rfl, rfl, .inl ⟨rfl, only⟩⟩
          · exact ⟨inner, rfl, rfl, .inr further⟩
        · rintro ⟨inner, rfl, -, ⟨rfl, only⟩ | further⟩
          · exact .inl ⟨rfl, only⟩
          · exact .inr ⟨inner, further, rfl⟩
    rw [waysAmong, List.mem_append, first, ih]
    constructor
    · rintro (⟨inner, same, rest⟩ | ⟨name', inner, t', same, inside, rest⟩)
      · exact ⟨name, inner, t, same, List.mem_cons_self, rest⟩
      · exact ⟨name', inner, t', same, List.mem_cons_of_mem _ inside, rest⟩
    · rintro ⟨name', inner, t', same, inside, rest⟩
      rcases List.mem_cons.1 inside with here | inside
      · cases here
        exact .inl ⟨inner, same, rest⟩
      · exact .inr ⟨name', inner, t', same, inside, rest⟩

/-- **What lies at the end of a way.** -/
theorem mem_ways (onlyDirectories : Bool) (sound : t.Sound) :
    names ∈ ways onlyDirectories t ↔
    names ≠ [] ∧ (∀ n ∈ names, isHidden n = false) ∧
      ∃ s, t.at? names = some s ∧ (onlyDirectories → s.isDirectory) := by
  induction names generalizing t with
  | nil =>
    cases t with
    | file bytes => simp [ways]
    | directory entries => simp [ways, mem_waysAmong]
  | cons name names ih =>
    cases t with
    | file bytes => simp [ways, at?, child?]
    | directory entries =>
      have distinct := (sound [] entries rfl).1
      rw [ways, mem_waysAmong, List.forall_mem_cons]
      constructor
      · rintro ⟨_, _, t, ⟨rfl, rfl⟩, inside, visible, ends⟩
        have here := (lookup_eq_some_iff distinct).2 inside
        rcases ends with ⟨rfl, only⟩ | further
        · exact ⟨List.cons_ne_nil _ _, ⟨visible, by simp⟩, t,
            at?_cons_eq_some.2 ⟨entries, t, rfl, here, rfl⟩, only⟩
        · obtain ⟨-, others, s, found, only⟩ := (ih (sound.child inside)).1 further
          exact ⟨List.cons_ne_nil _ _, ⟨visible, others⟩, s,
            at?_cons_eq_some.2 ⟨entries, t, rfl, here, found⟩, only⟩
      · rintro ⟨-, ⟨visible, others⟩, s, found, only⟩
        obtain ⟨_, t, ⟨rfl⟩, here, found⟩ := at?_cons_eq_some.1 found
        have inside := (lookup_eq_some_iff distinct).1 here
        refine ⟨name, names, t, rfl, inside, visible, ?_⟩
        rcases eq_or_ne names [] with rfl | more
        · cases found
          exact .inl ⟨rfl, only⟩
        · exact .inr ((ih (sound.child inside)).2 ⟨more, others, s, found, only⟩)

mutual

/-- **No way is gone twice.** -/
theorem nodup_ways (onlyDirectories : Bool) (t : FileTree) (sound : t.Sound) :
    (ways onlyDirectories t).Nodup := by
  cases t with
  | file bytes => exact List.nodup_nil
  | directory entries =>
    exact nodup_waysAmong onlyDirectories entries (sound [] entries rfl).1 fun e he =>
      sound.child he

theorem nodup_waysAmong (onlyDirectories : Bool) (entries : List (String × FileTree))
    (distinct : (entries.map Prod.fst).Nodup) (sound : ∀ e ∈ entries, e.2.Sound) :
    (waysAmong onlyDirectories entries).Nodup := by
  match entries with
  | [] => exact List.nodup_nil
  | (name, t) :: entries =>
    obtain ⟨here, distinct⟩ := List.nodup_cons.1 distinct
    obtain ⟨first, others⟩ := List.forall_mem_cons.1 sound
    have further := (nodup_ways onlyDirectories t first).map (List.cons_injective (a := name))
    have rest := nodup_waysAmong onlyDirectories entries distinct others
    have alone : (if onlyDirectories && !t.isDirectory then [] else [[name]]).Nodup := by
      split <;> simp
    have ends {names : List String}
        (h : names ∈ if onlyDirectories && !t.isDirectory then [] else [[name]]) :
        names = [name] := by
      split at h <;> simp_all
    rw [waysAmong, List.nodup_append']
    refine ⟨?_, rest, ?_⟩
    · split
      · exact List.nodup_nil
      · -- a way that goes on is not one that ends here
        refine List.nodup_append'.2 ⟨alone, further, fun names ending going => ?_⟩
        obtain ⟨inner, more, rfl⟩ := List.mem_map.1 going
        exact ((mem_ways onlyDirectories first).1 more).1 (List.cons.inj (ends ending)).2
    · -- the other ways begin with other names
      intro names through elsewhere
      obtain ⟨name', inner', t', rfl, inside, -⟩ := mem_waysAmong.1 elsewhere
      have same : name' = name := by
        split at through
        · exact absurd through List.not_mem_nil
        · rcases List.mem_append.1 through with ending | going
          · exact (List.cons.inj (ends ending)).1
          · obtain ⟨inner, -, same⟩ := List.mem_map.1 going
            exact (List.cons.inj same).1.symm
      subst same
      exact here (List.mem_map.2 ⟨_, inside, rfl⟩)

end

mutual

/-- **What lies below a directory** is spelled by the ways to it. -/
theorem below_eq (onlyDirectories : Bool) (t : FileTree) (sound : t.Sound) :
    below onlyDirectories t = (ways onlyDirectories t).map ("/".intercalate) := by
  cases t with
  | file bytes => rw [below, ways, List.map_nil]
  | directory entries =>
    rw [below, ways]
    exact belowEntries_eq onlyDirectories entries fun e he =>
      ⟨(sound [] entries rfl).2 e he, sound.child he⟩

theorem belowEntries_eq (onlyDirectories : Bool) (entries : List (String × FileTree))
    (sound : ∀ e ∈ entries, IsName e.1 ∧ e.2.Sound) :
    belowEntries onlyDirectories entries =
      (waysAmong onlyDirectories entries).map ("/".intercalate) := by
  match entries with
  | [] => rw [belowEntries, waysAmong, List.map_nil]
  | (name, t) :: entries =>
    obtain ⟨⟨named, inner⟩, others⟩ := List.forall_mem_cons.1 sound
    have further : (below onlyDirectories t).map (Path.join name) =
        ((ways onlyDirectories t).map (name :: ·)).map ("/".intercalate) := by
      rw [below_eq onlyDirectories t inner, List.map_map, List.map_map]
      refine List.map_congr_left fun names way => ?_
      obtain ⟨more, -, s, found, -⟩ := (mem_ways onlyDirectories inner).1 way
      exact join_intercalate named more (inner.isName found)
    rw [belowEntries, waysAmong, belowEntries_eq onlyDirectories entries others, List.map_append,
      further]
    cases isHidden name with
    | true => rfl
    | false => cases onlyDirectories && !t.isDirectory <;> simp

end

/-! ### Where a path below a directory leads -/

/-- Where the components of a path lead from a place. -/
def Leads (disk : Disk) (start : List String) (path : String) (place : List String) : Prop :=
  (Path.components path).foldlM disk.step start = .ok place

/-- A path is followed up to a slash, and from there on. -/
theorem leads_slash {s t : String} : disk.Leads start (s ++ "/" ++ t) place ↔
    ∃ middle, disk.Leads start s middle ∧ disk.Leads middle t place := by
  rw [Leads, components_append_slash, List.foldlM_append, Checked.bind_eq_ok]
  rfl

/-- An empty component stays where it is, in a directory. -/
theorem leads_empty : disk.Leads start "" place ↔
    place = start ∧ ∃ entries, disk.root.at? start = some (.directory entries) := by
  have apart : Path.components "" = [""] := rfl
  have stays (entries : List (String × FileTree))
      (here : disk.root.at? start = some (.directory entries)) :
      disk.step start "" = .ok start := by
    rw [step, here]
    rfl
  rw [Leads, apart, steps_cons_eq_ok]
  constructor
  · rintro ⟨middle, first, rest⟩
    cases rest
    obtain ⟨entries, here, -⟩ := step_eq_ok first
    rw [stays entries here] at first
    exact ⟨(Except.ok.inj first).symm, entries, here⟩
  · rintro ⟨rfl, entries, here⟩
    exact ⟨_, stays entries here, rfl⟩

/-- Slashes at the end of a path lead nowhere else. -/
theorem leads_of_slashes {s : String} {n : Nat}
    (h : disk.Leads start (s ++ "/" ++ String.ofList (List.replicate n '/')) place) :
    disk.Leads start s place := by
  induction n generalizing s with
  | zero =>
    obtain ⟨middle, first, rest⟩ := leads_slash.1 h
    obtain ⟨rfl, -⟩ := leads_empty.1 rest
    exact first
  | succ n ih =>
    have split : s ++ "/" ++ String.ofList (List.replicate (n + 1) '/') =
        s ++ "/" ++ "" ++ "/" ++ String.ofList (List.replicate n '/') := by
      rw [← String.toList_inj]
      simp [List.replicate_succ]
    obtain ⟨middle, first, rest⟩ := leads_slash.1 (ih (split ▸ h))
    obtain ⟨rfl, -⟩ := leads_empty.1 rest
    exact first

/-- **A directory is where it is** without the slashes at the end of its path. -/
theorem leads_opened (here : disk.root.at? place = some (.directory entries)) :
    disk.Leads start (opened path) place ↔ disk.Leads start path place := by
  rw [opened]
  split
  · exact Iff.rfl
  · constructor
    · exact fun h => leads_of_slashes (n := 0) (by simpa using h)
    · intro h
      have closed : path ++ "/" = path ++ "/" ++ "" := String.append_empty.symm
      rw [closed]
      exact leads_slash.2 ⟨place, h, leads_empty.2 ⟨rfl, entries, here⟩⟩

/-- The path of a directory leads there without the slashes, and so does what stands before one. -/
theorem leads_bare (nonempty : path ≠ "")
    (here : disk.root.at? place = some (.directory entries)) (h : disk.Leads start path place) :
    disk.Leads start (bare path) place ∧
      ∃ s, opened (bare path) = s ++ "/" ∧ disk.Leads start s place := by
  obtain ⟨s, n, ends, whole, -⟩ := exists_bare nonempty
  rw [← leads_opened here, whole] at h
  have before := leads_of_slashes h
  have opens : disk.Leads start (opened (bare path)) place := by
    have closed : s ++ "/" = s ++ "/" ++ "" := String.append_empty.symm
    rw [ends, closed]
    exact leads_slash.2 ⟨place, before, leads_empty.2 ⟨rfl, entries, here⟩⟩
  exact ⟨(leads_opened here).1 opens, s, ends, before⟩

/-- A way is followed by its names. -/
theorem leads_intercalate (found : disk.root.at? (place ++ names) = some t)
    (here : disk.root.at? place = some (.directory entries)) (named : ∀ n ∈ names, IsName n) :
    disk.Leads place ("/".intercalate names) (place ++ names) := by
  rcases eq_or_ne names [] with rfl | some
  · exact leads_empty.2 ⟨List.append_nil _, entries, here⟩
  rw [Leads, components_intercalate some named]
  clear some here
  induction names generalizing place with
  | nil => rw [List.append_nil]; rfl
  | cons name names ih =>
    obtain ⟨first, others⟩ := List.forall_mem_cons.1 named
    have onwards : place ++ name :: names = place ++ [name] ++ names := by simp
    have inside : ∃ entries, disk.root.at? place = some (.directory entries) := by
      rw [at?_append] at found
      obtain ⟨above, here, found⟩ := Option.bind_eq_some_iff.1 found
      obtain ⟨entries, -, rfl, -⟩ := at?_cons_eq_some.1 found
      exact ⟨entries, here⟩
    obtain ⟨entries, inside⟩ := inside
    have goes : disk.step place name = .ok (place ++ [name]) := by
      simp [step, inside, first.nonempty, first.noDots, Nat.not_lt.2 first.short]
    rw [onwards] at found ⊢
    exact steps_cons_eq_ok.2 ⟨_, goes, ih found others⟩

theorem ne_empty_of_locate (leads : disk.locate path = .ok place) : path ≠ "" :=
  String.isEmpty_eq_false_iff.1 (locate_eq_ok.1 leads).1.1

theorem locate_bare (leads : disk.locate source = .ok place)
    (here : disk.root.at? place = some (.directory entries)) :
    disk.locate (bare source) = .ok place := by
  obtain ⟨⟨nonempty, nameable, short⟩, steps⟩ := locate_eq_ok.1 leads
  rw [String.isEmpty_eq_false_iff] at nonempty
  obtain ⟨-, -, -, -, left⟩ := exists_bare nonempty
  have begins := prefix_bare nonempty
  refine locate_eq_ok.2 ⟨⟨String.isEmpty_eq_false_iff.2 left, ?_, ?_⟩, ?_⟩
  · rw [← Bool.not_eq_true, List.contains_iff_mem] at nameable ⊢
    exact fun null => nameable (begins.subset null)
  · obtain ⟨more, split⟩ := begins
    have whole : source = bare source ++ String.ofList more := by
      rw [← String.toList_inj, ← split]
      simp
    rw [whole, String.utf8ByteSize_append] at short
    omega
  · rw [← isAbsolute_of_begins left begins]
    exact (leads_bare nonempty here steps).1

/-- **A path below a directory** leads below it, as long as it is not too long. -/
theorem locate_under (leads : disk.locate source = .ok place)
    (here : disk.root.at? place = some (.directory entries))
    (found : disk.root.at? (place ++ names) = some t) (named : ∀ n ∈ names, IsName n)
    (short : (under source names).utf8ByteSize < 4096) :
    disk.locate (under source names) = .ok (place ++ names) := by
  obtain ⟨⟨nonempty, nameable, -⟩, steps⟩ := locate_eq_ok.1 leads
  rw [String.isEmpty_eq_false_iff] at nonempty
  refine locate_eq_ok.2 ⟨⟨?_, ?_, short⟩, ?_⟩
  · exact String.isEmpty_eq_false_iff.2 (under_ne_empty nonempty named)
  · rw [← Bool.not_eq_true, List.contains_iff_mem] at nameable ⊢
    intro null
    rcases mem_under nonempty named null with slash | before | ⟨n, inside, null⟩
    · exact absurd slash (by decide)
    · exact nameable before
    · exact (named n inside).nameable null
  · obtain ⟨-, s, ends, leads⟩ := leads_bare nonempty here steps
    rw [isAbsolute_under nonempty named, under_eq named, ends]
    exact leads_slash.2 ⟨place, leads, leads_intercalate found here named⟩

/-- What is seen of a directory on the way, unless its path is too long. -/
theorem lookInto_under (leads : disk.locate source = .ok place)
    (here : disk.root.at? place = some (.directory entries))
    {inner : List (String × FileTree)}
    (found : disk.root.at? (place ++ names) = some (.directory inner))
    (named : ∀ n ∈ names, IsName n) :
    disk.lookInto (under source names) =
      if (under source names).utf8ByteSize < 4096 then inner else [] := by
  have nonempty : source ≠ "" := ne_empty_of_locate leads
  have looked : disk.lookInto (under source names) = disk.entries (under source names) := by
    rw [lookInto, if_neg]
    simpa using under_ne_empty nonempty named
  rw [looked, Disk.entries, find]
  by_cases short : (under source names).utf8ByteSize < 4096
  · rw [if_pos short]
    simp only [locate_under leads here found named short, found]
  · rw [if_neg short]
    cases located : disk.locate (under source names) with
    | error cause => rfl
    | ok place' => exact absurd (locate_eq_ok.1 located).1.2.2 short

end Disk

end ComponentSpec
