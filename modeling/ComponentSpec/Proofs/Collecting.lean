import Mathlib.Data.String.Basic
import ComponentSpec.Proofs.Patterns
import ComponentSpec.Proofs.Ways

/-!
# Collecting the files of a directory

The files of a directory are looked for with a search path: the directory's own path, then any
number of directories, then a name that ends in `.json`. What is found is compared with the pattern
and put in order. Where the directory's path has no special characters the search path means what it
says, and it finds the ways below the directory, each once, and the entries at the end of them
(`search_eq`). So everything that is to be collected is, and once (`collect_selects`).

Two things are different from what one expects. The directory's path is part of the search path as
it stands, so that special characters in it are taken for patterns: what is in the directory may not
be found, and what is elsewhere may be found, also more than once. And an entry is taken for its
name alone, be it a file or a directory (`not_collect_exact`). Whatever is found has a name that
fits.

* `Disk.Wanted`, `Disk.Selects` — the names that are wanted, and the entries that are to be
  collected;
* `Disk.search_directories`, `Disk.search_eq` — the directories that are searched, and what is
  found;
* `Disk.collect_selects` — what is collected.
-/

namespace ComponentSpec

open ComponentSpec.Path

namespace Disk

open FileTree

variable {disk : Disk} {t : FileTree} {entries : List (String × FileTree)}
  {source pattern path name : String} {place names : List String} {found : List String}

/-! ### Names -/

/-- **The names that are wanted:** they do not begin with a dot, end in `.json` and fit the
pattern. -/
structure Wanted (pattern name : String) : Prop where
  visible : isHidden name = false
  json : ".json".toList <:+ name.toList
  fits : Pattern.Spans (Pattern.tokens pattern.toList) name.toList

/-- The names that are looked for, whatever the pattern. -/
def isSought (name : String) : Bool := !isHidden name && Pattern.fits "*.json" name

theorem wanted_iff :
    Wanted pattern name ↔ isSought name = true ∧ Pattern.fits pattern name = true := by
  have star : "*.json" = "*" ++ ".json" := by decide
  rw [isSought, Bool.and_eq_true, Bool.not_eq_true', star, Pattern.fits_star (by decide),
    Pattern.fits_iff]
  exact ⟨fun ⟨visible, json, fits⟩ => ⟨⟨visible, json⟩, fits⟩,
    fun ⟨⟨visible, json⟩, fits⟩ => ⟨visible, json, fits⟩⟩

/-- What is sought in one directory. -/
theorem searchName_json (disk : Disk) (directory : String) :
    disk.searchName false directory "*.json" =
      ((disk.lookInto directory).map Prod.fst).filter isSought := by
  have noStars : "*.json" ≠ "**" := by decide
  have isOpen : Pattern.isOpen "*.json" = true := by decide
  have shown : isHidden "*.json" = false := by decide
  rw [searchName, if_neg noStars, if_pos isOpen]
  induction disk.lookInto directory with
  | nil => rfl
  | cons e entries ih =>
    rw [List.filterMap_cons, ih, List.map_cons, List.filter_cons]
    cases hidden : isHidden e.1 <;> cases fits : Pattern.fits "*.json" e.1 <;>
      simp [isSought, hidden, fits, shown]

/-- What is listed has a name. -/
theorem isName_of_mem_lookInto (sound : disk.root.Sound)
    (listed : name ∈ (disk.lookInto path).map Prod.fst) : IsName name := by
  obtain ⟨e, inside, rfl⟩ := List.mem_map.1 listed
  rw [lookInto, Disk.entries] at inside
  generalize (if path.isEmpty then "." else path) = path at inside
  split at inside
  · next entries held =>
    rw [find] at held
    split at held
    · cases held
    · next place _ =>
      split at held
      · next t there =>
        cases held
        exact (sound place entries there).2 e inside
      · cases held
  · exact absurd inside List.not_mem_nil

/-! ### Searching -/

theorem isOpen_join (directory : String) {name : String} (relative : isAbsolute name = false)
    (isOpen : Pattern.isOpen name = true) : Pattern.isOpen (Path.join directory name) = true := by
  rw [Pattern.isOpen] at isOpen
  rw [join_eq relative, Pattern.isOpen, String.toList_append, List.any_append, isOpen, Bool.or_true]

theorem isOpen_bare (nonempty : source ≠ "") (closed : Pattern.isOpen source = false) :
    Pattern.isOpen (bare source) = false := by
  rw [Pattern.isOpen, List.any_eq_false] at closed ⊢
  exact fun c hc => closed c ((prefix_bare nonempty).subset hc)

/-- **What is searched for** are the names that are sought, in all directories that are searched. -/
theorem search_json (disk : Disk) (source : String) :
    disk.search false (Path.join (Path.join source "**") "*.json") =
      (disk.search true (Path.join source "**")).flatMap fun d =>
        (((disk.lookInto d).map Prod.fst).filter isSought).map (Path.join d) := by
  have stars : '/' ∉ "**".toList := by decide
  have json : '/' ∉ "*.json".toList := by decide
  have some : Path.join source "**" ≠ "" := by
    rw [join_eq rfl, Ne, ← String.toList_eq_nil_iff, String.toList_append]
    simp
  have head : Path.head (Path.join (Path.join source "**") "*.json") = Path.join source "**" := by
    rw [head_join some json, bare_join (by decide) stars]
  have shorter : (Path.join source "**").length <
      (Path.join (Path.join source "**") "*.json").length := by
    have inner := (prefix_opened (Path.join source "**")).length_le
    have length : "*.json".toList.length = 6 := by decide
    rw [join_eq (isAbsolute_of_slashless json), ← String.length_toList, ← String.length_toList,
      String.toList_append, List.length_append, length]
    omega
  rw [search]
  simp only [isOpen_join _ rfl (by decide : Pattern.isOpen "*.json" = true),
    isOpen_join source rfl (by decide : Pattern.isOpen "**" = true), base_join json, head, shorter,
    String.isEmpty_eq_false_iff.2 some, searchName_json, Bool.not_true, Bool.false_eq_true,
    if_false, if_true, dite_true]

/-! ### What is found below a directory -/

/-- **The ways to what is found below a directory,** before they are compared with a pattern. -/
def waysFound (disk : Disk) (source : String) (entries : List (String × FileTree)) :
    List (List String) :=
  ([] :: waysAmong true entries).flatMap fun names =>
    (((disk.lookInto (under source names)).map Prod.fst).filter isSought).map (names ++ [·])

section

variable (sound : disk.root.Sound) (leads : disk.locate source = .ok place)
  (here : disk.root.at? place = some (.directory entries))
include sound here

/-- The directories that are searched lie at the ends of ways without hidden names. -/
theorem mem_directories :
    names ∈ [] :: waysAmong true entries ↔ (∀ n ∈ names, isHidden n = false) ∧
      ∃ inner, disk.root.at? (place ++ names) = some (.directory inner) := by
  have onwards : disk.root.at? (place ++ names) = (directory entries).at? names := by
    rw [at?_append, here]
    rfl
  have way : names ∈ waysAmong true entries ↔ _ := mem_ways true (sound.below here)
  rw [List.mem_cons, way, onwards]
  constructor
  · rintro (rfl | ⟨-, visible, s, there, only⟩)
    · exact ⟨by simp, entries, rfl⟩
    · cases s with
      | file bytes => cases only rfl
      | directory inner => exact ⟨visible, inner, there⟩
  · rintro ⟨visible, inner, there⟩
    rw [or_iff_not_imp_left]
    exact fun some => ⟨some, visible, _, there, fun _ => rfl⟩

include leads

/-- **The directories that are searched:** the one itself and those below it. -/
theorem search_directories (closed : Pattern.isOpen source = false) :
    disk.search true (Path.join source "**") =
      ([] :: waysAmong true entries).map (under source) := by
  have nonempty : source ≠ "" := ne_empty_of_locate leads
  obtain ⟨-, -, -, -, left⟩ := exists_bare nonempty
  have stars : '/' ∉ "**".toList := by decide
  have held : disk.find (bare source) = .ok (.directory entries) := by
    rw [find, locate_bare leads here]
    simp only [here]
  have isDirectory : disk.isDirectory (bare source) = true := by rw [Disk.isDirectory, held]
  have looked : disk.lookInto (bare source) = entries := by
    rw [lookInto, if_neg (by simpa using left), Disk.entries, held]
  have inside := belowEntries_eq true entries fun e he =>
    ⟨(sound place entries here).2 e he, (sound.below here).child he⟩
  have spelled : (searchName disk true (bare source) "**").map (Path.join (bare source)) =
      ([] :: waysAmong true entries).map (under source) := by
    rw [searchName, if_pos rfl, isDirectory, Bool.or_true, if_pos rfl, looked, inside,
      List.map_append, List.map_map]
    rfl
  rw [search]
  simp only [isOpen_join source rfl (by decide : Pattern.isOpen "**" = true), base_join stars,
    head_join nonempty stars, isOpen_bare nonempty closed, String.isEmpty_eq_false_iff.2 left,
    Bool.not_true, Bool.false_eq_true, if_false, List.flatMap_singleton, spelled]

/-- What is seen of a directory that is searched. -/
theorem mem_lookInto (searched : names ∈ [] :: waysAmong true entries) :
    name ∈ (disk.lookInto (under source names)).map Prod.fst ↔
      (under source names).utf8ByteSize < 4096 ∧
        ∃ t, disk.root.at? (place ++ (names ++ [name])) = some t := by
  obtain ⟨-, inner, there⟩ := (mem_directories sound here).1 searched
  have named : ∀ n ∈ names, IsName n := sound.isName_of_append there
  have onwards (t : FileTree) :
      disk.root.at? (place ++ (names ++ [name])) = some t ↔ (name, t) ∈ inner := by
    rw [← List.append_assoc, at?_append, there, Option.bind_some, at?_cons_eq_some,
      ← lookup_eq_some_iff (sound _ _ there).1]
    simp
  rw [lookInto_under leads here there named]
  simp only [onwards]
  split <;> simp_all

theorem mem_waysFound :
    names ∈ waysFound disk source entries ↔ ∃ above name t, names = above ++ [name] ∧
      disk.root.at? (place ++ names) = some t ∧ (∀ n ∈ above, isHidden n = false) ∧
        isSought name = true ∧ (under source above).utf8ByteSize < 4096 := by
  rw [waysFound, List.mem_flatMap]
  constructor
  · rintro ⟨above, searched, way⟩
    obtain ⟨name, selected, rfl⟩ := List.mem_map.1 way
    obtain ⟨inside, sought⟩ := List.mem_filter.1 selected
    obtain ⟨reached, t, there⟩ := (mem_lookInto sound leads here searched).1 inside
    exact ⟨above, name, t, rfl, there, ((mem_directories sound here).1 searched).1, sought, reached⟩
  · rintro ⟨above, name, t, rfl, there, visible, sought, reached⟩
    have searched : above ∈ [] :: waysAmong true entries := by
      refine (mem_directories sound here).2 ⟨visible, ?_⟩
      rw [← List.append_assoc, at?_append] at there
      obtain ⟨s, held, inside⟩ := Option.bind_eq_some_iff.1 there
      obtain ⟨inner, -, rfl, -⟩ := at?_cons_eq_some.1 inside
      exact ⟨inner, held⟩
    have inside := (mem_lookInto sound leads here searched).2 ⟨reached, t, there⟩
    exact ⟨above, searched, List.mem_map_of_mem (List.mem_filter.2 ⟨inside, sought⟩)⟩

theorem isName_of_mem_waysFound (way : names ∈ waysFound disk source entries) :
    ∀ n ∈ names, IsName n := by
  obtain ⟨above, name, t, -, there, -⟩ := (mem_waysFound sound leads here).1 way
  exact sound.isName_of_append there

/-- **Nothing is found twice.** -/
theorem nodup_waysFound : (waysFound disk source entries).Nodup := by
  have directories : ([] :: waysAmong true entries).Nodup := by
    have below := sound.below here
    refine List.nodup_cons.2 ⟨fun empty => ?_, nodup_ways true _ below⟩
    exact ((mem_ways true below).1 empty).1 rfl
  refine List.nodup_flatMap.2 ⟨?_, ?_⟩
  · intro names searched
    obtain ⟨-, inner, there⟩ := (mem_directories sound here).1 searched
    have named : ∀ n ∈ names, IsName n := sound.isName_of_append there
    have once : ((disk.lookInto (under source names)).map Prod.fst).Nodup := by
      rw [lookInto_under leads here there named]
      split
      · exact (sound _ _ there).1
      · exact List.nodup_nil
    refine (once.filter _).map fun name name' same => ?_
    exact (List.cons.inj (List.append_cancel_left same)).1
  · -- the directory of what is found can be read off
    refine directories.imp fun {names names'} apart way one two => apart ?_
    obtain ⟨name, -, rfl⟩ := List.mem_map.1 one
    obtain ⟨name', -, same⟩ := List.mem_map.1 two
    exact (List.append_inj' same rfl).1.symm

/-- **What is found** is spelled by the ways to it. -/
theorem search_eq (closed : Pattern.isOpen source = false) :
    disk.search false (Path.join (Path.join source "**") "*.json") =
      (waysFound disk source entries).map (under source) := by
  have nonempty : source ≠ "" := ne_empty_of_locate leads
  rw [search_json, search_directories sound leads here closed, List.flatMap_map, waysFound,
    List.map_flatMap]
  refine List.flatMap_congr fun names searched => ?_
  rw [List.map_map]
  refine List.map_congr_left fun name selected => ?_
  have listed := List.mem_of_mem_filter selected
  obtain ⟨-, inner, there⟩ := (mem_directories sound here).1 searched
  have named : ∀ n ∈ names, IsName n := sound.isName_of_append there
  exact join_under nonempty named (isName_of_mem_lookInto sound listed)

end

/-! ### What is collected -/

/-- **What is to be collected below a directory:** an entry with a wanted name and without a hidden
name on the way to it, in a directory whose path is not too long to be followed. -/
structure Selects (disk : Disk) (source pattern : String) (place names : List String)
    (name : String) (t : FileTree) : Prop where
  there : disk.root.at? (place ++ (names ++ [name])) = some t
  visible : ∀ n ∈ names, isHidden n = false
  wanted : Wanted pattern name
  reached : (under source names).utf8ByteSize < 4096

/-- What is found and fits, put in order. -/
def sorted (pattern : String) (found : List String) : List String :=
  (found.filter fun p => Pattern.fits pattern (Path.base p)).mergeSort fun a b => a ≤ b

theorem collect_eq (leads : disk.locate source = .ok place)
    (here : disk.root.at? place = some (.directory entries)) (pattern : String) :
    disk.collect source pattern =
      some (sorted pattern (disk.search false (Path.join (Path.join source "**") "*.json"))) := by
  have held : disk.find source = .ok (.directory entries) := by
    rw [find, leads]
    simp only [here]
  have noFile : disk.isFile source = false := by rw [isFile, held]
  have isDirectory : disk.isDirectory source = true := by rw [Disk.isDirectory, held]
  rw [collect, if_neg (by simp [noFile]), if_pos isDirectory, sorted]

theorem mem_sorted : path ∈ sorted pattern found ↔
    path ∈ found ∧ Pattern.fits pattern (Path.base path) = true := by
  rw [sorted, List.mem_mergeSort, List.mem_filter]

theorem pairwise_le_sorted (pattern : String) (found : List String) :
    (sorted pattern found).Pairwise (· ≤ ·) := by
  have ordered := @List.pairwise_mergeSort String (fun a b => decide (a ≤ b))
    (by simpa using fun a b c => le_trans) (by simpa using le_total)
    (found.filter fun p => Pattern.fits pattern (Path.base p))
  exact ordered.imp of_decide_eq_true

theorem pairwise_lt_sorted (pattern : String) (once : found.Nodup) :
    (sorted pattern found).Pairwise (· < ·) := by
  have distinct : (sorted pattern found).Nodup :=
    (List.mergeSort_perm _ _).nodup_iff.2 (once.filter _)
  exact ((pairwise_le_sorted pattern found).and distinct).imp fun ⟨le, apart⟩ =>
    lt_of_le_of_ne le apart

/-- **Whatever is collected has a wanted name,** also where the path of the directory is taken for a
pattern. -/
theorem wanted_of_mem_search (sound : disk.root.Sound)
    (mem : path ∈ sorted pattern
      (disk.search false (Path.join (Path.join source "**") "*.json"))) :
    Wanted pattern (Path.base path) := by
  obtain ⟨mem, fits⟩ := mem_sorted.1 mem
  rw [search_json, List.mem_flatMap] at mem
  obtain ⟨d, -, mem⟩ := mem
  obtain ⟨name, selected, rfl⟩ := List.mem_map.1 mem
  obtain ⟨listed, sought⟩ := List.mem_filter.1 selected
  rw [base_join (isName_of_mem_lookInto sound listed).slashless] at fits ⊢
  exact wanted_iff.2 ⟨sought, fits⟩

section

variable (sound : disk.root.Sound) (leads : disk.locate source = .ok place)
  (here : disk.root.at? place = some (.directory entries))
include sound leads here

/-- The path of what is to be collected leads to it. -/
theorem find_of_selects (selects : disk.Selects source pattern place names name t)
    (short : (under source (names ++ [name])).utf8ByteSize < 4096) :
    disk.find (under source (names ++ [name])) = .ok t := by
  have named : ∀ n ∈ names ++ [name], IsName n := sound.isName_of_append selects.there
  rw [find, locate_under leads here selects.there named short]
  simp only [selects.there]

/-- The entries that are to be collected are those that are found and fit. -/
theorem mem_sorted_waysFound :
    path ∈ sorted pattern ((waysFound disk source entries).map (under source)) ↔
      ∃ names name t, disk.Selects source pattern place names name t ∧
        path = under source (names ++ [name]) := by
  have nonempty : source ≠ "" := ne_empty_of_locate leads
  have base {names : List String} {name : String}
      (way : names ++ [name] ∈ waysFound disk source entries) :
      Path.base (under source (names ++ [name])) = name := by
    obtain ⟨above, last⟩ :=
      List.forall_mem_append.1 (isName_of_mem_waysFound sound leads here way)
    exact base_under nonempty above (last name List.mem_cons_self)
  rw [mem_sorted, List.mem_map]
  constructor
  · rintro ⟨⟨way, inside, rfl⟩, fits⟩
    obtain ⟨names, name, t, rfl, there, visible, sought, reached⟩ :=
      (mem_waysFound sound leads here).1 inside
    rw [base inside] at fits
    exact ⟨names, name, t, ⟨there, visible, wanted_iff.2 ⟨sought, fits⟩, reached⟩, rfl⟩
  · rintro ⟨names, name, t, ⟨there, visible, wanted, reached⟩, rfl⟩
    obtain ⟨sought, fits⟩ := wanted_iff.1 wanted
    have inside : names ++ [name] ∈ waysFound disk source entries :=
      (mem_waysFound sound leads here).2 ⟨names, name, t, rfl, there, visible, sought, reached⟩
    refine ⟨⟨_, inside, rfl⟩, ?_⟩
    rwa [base inside]

end

/-- **What is collected of a directory** is in order and has wanted names. Where the directory's
path has no special characters it is every entry that is to be collected, once, spelled by a path
that leads there. An entry can be a directory; where none of these is, it is the files. -/
theorem collect_selects (disk : Disk) (source pattern : String) (place : List String)
    (entries : List (String × FileTree)) (sound : disk.root.Sound)
    (leads : disk.locate source = .ok place)
    (here : disk.root.at? place = some (.directory entries)) :
    ∃ found, disk.collect source pattern = some found ∧ found.Pairwise (· ≤ ·) ∧
      (∀ path ∈ found, Wanted pattern (Path.base path)) ∧
      (∀ names name t, disk.Selects source pattern place names name t →
        (under source (names ++ [name])).utf8ByteSize < 4096 →
          disk.find (under source (names ++ [name])) = .ok t) ∧
      (Pattern.isOpen source = false →
        found.Pairwise (· < ·) ∧
        (∀ path, path ∈ found ↔ ∃ names name t, disk.Selects source pattern place names name t ∧
          path = under source (names ++ [name])) ∧
        ((∀ names name inner,
            ¬ disk.Selects source pattern place names name (.directory inner)) →
          ∀ path, path ∈ found ↔ ∃ names name bytes,
            disk.Selects source pattern place names name (.file bytes) ∧
              path = under source (names ++ [name]))) := by
  refine ⟨_, collect_eq leads here pattern, pairwise_le_sorted _ _,
    fun path mem => wanted_of_mem_search sound mem,
    fun names name t => find_of_selects sound leads here, fun closed => ?_⟩
  rw [search_eq sound leads here closed]
  have once : ((waysFound disk source entries).map (under source)).Nodup := by
    refine (nodup_waysFound sound leads here).map_on fun way inside way' inside' same => ?_
    exact under_injective (isName_of_mem_waysFound sound leads here inside)
      (isName_of_mem_waysFound sound leads here inside') same
  refine ⟨pairwise_lt_sorted pattern once, fun _ => mem_sorted_waysFound sound leads here, ?_⟩
  intro noDirectory path
  rw [mem_sorted_waysFound sound leads here]
  constructor
  · rintro ⟨names, name, t, selects, same⟩
    cases t with
    | file bytes => exact ⟨names, name, bytes, selects, same⟩
    | directory inner => exact absurd selects (noDirectory names name inner)
  · rintro ⟨names, name, bytes, selects, same⟩
    exact ⟨names, name, _, selects, same⟩

end Disk

namespace Sample

open FileTree

/-- A disk with a directory whose name has special characters, and one with a hidden file, a file
further below and a directory that is named like a file. -/
def cabinet : Disk where
  root := .directory [("a[b]", .directory [("x.json", .file [])]),
    ("d", .directory [(".h.json", .file []), ("sub", .directory [("z.json", .file [])]),
      ("x.json", .directory [])])]
  working := []
  home := "/"

theorem sound_cabinet : cabinet.root.Sound := by
  have leaf := sound_file []
  have brackets : (directory [("x.json", .file [])]).Sound :=
    sound_directory (by decide) (by simpa using ⟨by decide, leaf⟩)
  have sub : (directory [("z.json", .file [])]).Sound :=
    sound_directory (by decide) (by simpa using ⟨by decide, leaf⟩)
  have empty : (directory []).Sound := sound_directory (by decide) (by simp)
  have d : (directory [(".h.json", .file []), ("sub", .directory [("z.json", .file [])]),
      ("x.json", .directory [])]).Sound :=
    sound_directory (by decide) (by
      simpa using ⟨⟨by decide, leaf⟩, ⟨by decide, sub⟩, by decide, empty⟩)
  exact sound_directory (by decide) (by simpa using ⟨⟨by decide, brackets⟩, by decide, d⟩)

theorem wanted_x : Disk.Wanted "*.json" "x.json" := by
  refine Disk.wanted_iff.2 ⟨?_, ?_⟩ <;> decide +kernel

end Sample

namespace Disk

open Sample

/-- A file below a directory with special characters in its name is not collected, and a directory
that is named like a file is. -/
theorem not_collect_exact :
    (cabinet.root.Sound ∧ cabinet.locate "a[b]" = .ok ["a[b]"] ∧
      cabinet.Selects "a[b]" "*.json" ["a[b]"] [] "x.json" (.file []) ∧
      cabinet.collect "a[b]" "*.json" = some []) ∧
    (cabinet.locate "d" = .ok ["d"] ∧ cabinet.root.at? ["d", "x.json"] = some (.directory []) ∧
      ∃ found, cabinet.collect "d" "*.json" = some found ∧ "d/x.json" ∈ found) := by
  refine ⟨⟨sound_cabinet, ?_, ⟨rfl, by simp, wanted_x, by decide⟩, ?_⟩, ?_, rfl, ?_⟩
  · with_unfolding_all rfl
  · with_unfolding_all rfl
  · with_unfolding_all rfl
  · have leads : cabinet.locate "d" = .ok ["d"] := by with_unfolding_all rfl
    refine ⟨_, collect_eq leads rfl "*.json", mem_sorted.2 ⟨?_, ?_⟩⟩
    · decide +kernel
    · decide +kernel

/-- Below a directory with an ordinary name a file is collected and found under its path, and it is
not collected if its name is hidden. -/
theorem collect_selects_cabinet :
    ∃ found, cabinet.collect "d" "*.json" = some found ∧ found.Pairwise (· < ·) ∧
      "d/sub/z.json" ∈ found ∧ cabinet.find "d/sub/z.json" = .ok (.file []) ∧
      "d/.h.json" ∉ found := by
  have leads : cabinet.locate "d" = .ok ["d"] := by with_unfolding_all rfl
  obtain ⟨found, collected, -, wanted, leadsTo, closed⟩ :=
    collect_selects cabinet "d" "*.json" ["d"] _ sound_cabinet leads rfl
  obtain ⟨ordered, exactly, -⟩ := closed (by decide)
  have fits : Wanted "*.json" "z.json" := wanted_iff.2 ⟨by decide +kernel, by decide +kernel⟩
  have selects : cabinet.Selects "d" "*.json" ["d"] ["sub"] "z.json" (.file []) :=
    ⟨rfl, by decide, fits, by decide⟩
  have spelled : under "d" (["sub"] ++ ["z.json"]) = "d/sub/z.json" := by decide
  refine ⟨found, collected, ordered, ?_, ?_, ?_⟩
  · exact (exactly _).2 ⟨["sub"], "z.json", .file [], selects, spelled.symm⟩
  · exact spelled ▸ leadsTo _ _ _ selects (by decide)
  · intro hidden
    have visible := (wanted _ hidden).visible
    revert visible
    decide

end Disk

end ComponentSpec
