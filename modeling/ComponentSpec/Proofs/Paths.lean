import Mathlib.Data.List.DropRight
import ComponentSpec.Disk.Path

/-!
# The spelling of paths

A path is taken apart at its slashes, and a slash between two texts is where their pieces meet
(`components_append_slash`). So a path below a directory has the pieces of the directory and then
the names on the way, each name being free of slashes.

What is found below a directory is spelled with the directory's own path in front, without the
slashes at its end (`bare`), and then the names with slashes between them (`under`). The last name
and what stands before it can be read off again, and different names are spelled differently.

* `IsName` — the names of files and directories;
* `opened`, `bare` — a path with a slash at its end, and without slashes there;
* `under` — the spelling of what lies below a directory;
* `join_under`, `base_under`, `under_injective` — how such a path is taken apart and put together.
-/

namespace ComponentSpec.Path

variable {cs ds : List Char} {path directory name : String} {names names' : List String}

/-! ### Pieces -/

theorem pieces_ne_nil (cs : List Char) : pieces cs ≠ [] := by
  cases cs with
  | nil => exact List.cons_ne_nil _ _
  | cons c cs =>
    rw [pieces]
    split
    · exact List.cons_ne_nil _ _
    · split <;> exact List.cons_ne_nil _ _

theorem pieces_append_slash (cs ds : List Char) :
    pieces (cs ++ '/' :: ds) = pieces cs ++ pieces ds := by
  induction cs with
  | nil => rfl
  | cons c cs ih =>
    rw [List.cons_append, pieces, pieces, ih]
    split
    · rfl
    · obtain ⟨first, others, split⟩ := List.exists_cons_of_ne_nil (pieces_ne_nil cs)
      rw [split]
      rfl

theorem pieces_of_slashless (slashless : '/' ∉ cs) : pieces cs = [cs] := by
  induction cs with
  | nil => rfl
  | cons c cs ih =>
    rw [List.mem_cons, not_or] at slashless
    rw [pieces, if_neg (Ne.symm slashless.1), ih slashless.2]

/-- A slash is where the components of two texts meet. -/
theorem components_append_slash (s t : String) :
    components (s ++ "/" ++ t) = components s ++ components t := by
  have chars : (s ++ "/" ++ t).toList = s.toList ++ '/' :: t.toList := by simp
  rw [components, chars, pieces_append_slash, List.map_append]
  rfl

/-! ### Names -/

/-- **A name that a file or a directory can have.** -/
structure IsName (name : String) : Prop where
  nonempty : name ≠ ""
  slashless : '/' ∉ name.toList
  /-- It is not one of the names that stand for a directory itself and the one above it. -/
  noDots : name ≠ "." ∧ name ≠ ".."
  nameable : '\x00' ∉ name.toList
  short : name.utf8ByteSize ≤ 255

instance (name : String) : Decidable (IsName name) :=
  decidable_of_iff (name ≠ "" ∧ '/' ∉ name.toList ∧ (name ≠ "." ∧ name ≠ "..") ∧
      '\x00' ∉ name.toList ∧ name.utf8ByteSize ≤ 255)
    ⟨fun ⟨a, b, c, d, e⟩ => ⟨a, b, c, d, e⟩, fun ⟨a, b, c, d, e⟩ => ⟨a, b, c, d, e⟩⟩

theorem components_of_slashless (slashless : '/' ∉ name.toList) : components name = [name] := by
  rw [components, pieces_of_slashless slashless]
  simp

theorem isAbsolute_of_slashless (slashless : '/' ∉ name.toList) : isAbsolute name = false := by
  cases chars : name.toList with
  | nil => simp [isAbsolute, chars]
  | cons c cs =>
    rw [chars, List.mem_cons, not_or] at slashless
    simpa [isAbsolute, chars] using Ne.symm slashless.1

theorem intercalate_cons (more : names ≠ []) :
    "/".intercalate (name :: names) = name ++ "/" ++ "/".intercalate names :=
  String.intercalate_cons_of_ne_nil more

/-- Names with slashes between them are taken apart into the names. -/
theorem components_intercalate (some : names ≠ []) (named : ∀ n ∈ names, IsName n) :
    components ("/".intercalate names) = names := by
  induction names with
  | nil => exact absurd rfl some
  | cons name names ih =>
    have first := components_of_slashless (named name List.mem_cons_self).slashless
    rcases eq_or_ne names [] with rfl | more
    · rw [String.intercalate_singleton, first]
    · rw [intercalate_cons more, components_append_slash, first,
        ih more fun n hn => named n (List.mem_cons_of_mem _ hn)]
      rfl

theorem intercalate_ne_empty (some : names ≠ []) (named : ∀ n ∈ names, IsName n) :
    "/".intercalate names ≠ "" := by
  intro empty
  have apart := components_intercalate some named
  rw [empty] at apart
  obtain rfl : [""] = names := apart
  exact (named "" List.mem_cons_self).nonempty rfl

theorem isAbsolute_of_begins {s t : String} (nonempty : s ≠ "") (begins : s.toList <+: t.toList) :
    isAbsolute t = isAbsolute s := by
  obtain ⟨more, split⟩ := begins
  obtain ⟨c, cs, chars⟩ := List.exists_cons_of_ne_nil (mt String.toList_eq_nil_iff.1 nonempty)
  rw [isAbsolute, isAbsolute, ← split, chars]
  rfl

theorem isAbsolute_intercalate (named : ∀ n ∈ names, IsName n) :
    isAbsolute ("/".intercalate names) = false := by
  cases names with
  | nil => rfl
  | cons name names =>
    have first := named name List.mem_cons_self
    have begins : name.toList <+: ("/".intercalate (name :: names)).toList := by
      rcases eq_or_ne names [] with rfl | more
      · simp only [String.intercalate_singleton, List.prefix_refl]
      · rw [intercalate_cons more, String.toList_append, String.toList_append, List.append_assoc]
        exact List.prefix_append _ _
    rw [isAbsolute_of_begins first.nonempty begins, isAbsolute_of_slashless first.slashless]

theorem intercalate_injective (named : ∀ n ∈ names, IsName n) (named' : ∀ n ∈ names', IsName n)
    (same : "/".intercalate names = "/".intercalate names') : names = names' := by
  rcases eq_or_ne names [] with rfl | some
  · by_contra other
    exact intercalate_ne_empty (Ne.symm other) named' same.symm
  · rcases eq_or_ne names' [] with rfl | some'
    · exact absurd same (intercalate_ne_empty some named)
    · rw [← components_intercalate some named, same, components_intercalate some' named']

/-! ### Directories and what is below them -/

/-- A path with a slash at its end. -/
def opened (path : String) : String :=
  if path.isEmpty || path.toList.getLast? == some '/' then path else path ++ "/"

/-- **A path without the slashes at its end**, unless it has nothing else. -/
def bare (path : String) : String := head (join path "")

/-- **The spelling of what lies below a directory.** -/
def under (directory : String) (names : List String) : String :=
  join (bare directory) ("/".intercalate names)

theorem join_eq (relative : isAbsolute name = false) :
    join directory name = opened directory ++ name := by
  rw [join, opened, relative, if_neg Bool.false_ne_true]
  split <;> rfl

theorem exists_opened (nonempty : path ≠ "") : ∃ s, opened path = s ++ "/" := by
  rw [opened]
  split
  · next closed =>
    have ends : path.toList.getLast? = some '/' := by simpa [nonempty] using closed
    obtain ⟨cs, chars⟩ := List.getLast?_eq_some_iff.1 ends
    exact ⟨String.ofList cs, by rw [← String.toList_inj, chars]; simp⟩
  · exact ⟨path, rfl⟩

theorem ne_slash_of_mem_reverse (slashless : '/' ∉ cs) :
    ∀ c ∈ cs.reverse, decide (c ≠ '/') = true := by
  intro c hc
  rw [decide_eq_true_eq]
  rintro rfl
  exact slashless (List.mem_reverse.1 hc)

/-- The last name of a path that ends in a slash and a name. -/
theorem baseChars_append (cs : List Char) (slashless : '/' ∉ ds) :
    baseChars (cs ++ '/' :: ds) = ds := by
  have before := ne_slash_of_mem_reverse slashless
  have turned : (cs ++ '/' :: ds).reverse = ds.reverse ++ '/' :: cs.reverse := by simp
  rw [baseChars, turned, List.takeWhile_append_of_pos before, List.takeWhile_cons_of_neg (by simp),
    List.append_nil, List.reverse_reverse]

/-- **The last name of a path** is the one that was joined to it. -/
theorem base_join (slashless : '/' ∉ name.toList) : base (join directory name) = name := by
  rw [join_eq (isAbsolute_of_slashless slashless)]
  rcases eq_or_ne directory "" with rfl | nonempty
  · have whole : baseChars name.toList = name.toList := by
      rw [baseChars, List.takeWhile_eq_self_iff.2 (ne_slash_of_mem_reverse slashless),
        List.reverse_reverse]
    have alone : opened "" ++ name = name := String.empty_append
    rw [alone, base, whole, String.ofList_toList]
  · obtain ⟨s, ends⟩ := exists_opened nonempty
    have chars : (s ++ "/" ++ name).toList = s.toList ++ '/' :: name.toList := by simp
    rw [base, ends, chars, baseChars_append s.toList slashless, String.ofList_toList]

theorem head_opened (nonempty : directory ≠ "") (slashless : '/' ∉ name.toList) :
    head (opened directory ++ name) = head (opened directory) := by
  obtain ⟨s, ends⟩ := exists_opened nonempty
  have front (ds : List Char) :
      (s.toList ++ '/' :: ds).take ((s.toList ++ '/' :: ds).length - ds.length) =
        s.toList ++ ['/'] := by
    have split : s.toList ++ '/' :: ds = s.toList ++ ['/'] ++ ds := by simp
    rw [split, List.length_append, Nat.add_sub_cancel, List.take_left]
  have chars : (s ++ "/" ++ name).toList = s.toList ++ '/' :: name.toList := by simp
  have chars' : (s ++ "/").toList = s.toList ++ '/' :: [] := by simp
  simp only [head, ends, chars, chars', baseChars_append s.toList slashless,
    baseChars_append s.toList List.not_mem_nil, front]

/-- **What stands before a name** is the directory, without the slashes at its end. -/
theorem head_join (nonempty : directory ≠ "") (slashless : '/' ∉ name.toList) :
    head (join directory name) = bare directory := by
  rw [bare, join_eq (isAbsolute_of_slashless slashless), join_eq rfl,
    head_opened nonempty slashless, head_opened nonempty (by simp)]

/-- A text and the slashes at its end. -/
theorem exists_rdropWhile (cs : List Char) :
    ∃ n, cs = cs.rdropWhile (· = '/') ++ List.replicate n '/' := by
  have slashes : ∀ c ∈ cs.reverse.takeWhile (· = '/'), c = '/' := fun c hc => by
    simpa using List.mem_takeWhile_imp hc
  have split := List.takeWhile_append_dropWhile (p := (· = '/')) (l := cs.reverse)
  rw [List.eq_replicate_of_mem slashes] at split
  refine ⟨(cs.reverse.takeWhile (· = '/')).length, ?_⟩
  rw [← List.reverse_inj, List.reverse_append, List.rdropWhile, List.reverse_reverse,
    List.reverse_replicate, split]

theorem toList_bare (nonempty : path ≠ "") :
    (bare path).toList = if (opened path).toList.all (· = '/') then (opened path).toList
      else (opened path).toList.rdropWhile (· = '/') := by
  obtain ⟨s, ends⟩ := exists_opened nonempty
  have chars : (s ++ "/").toList = s.toList ++ '/' :: [] := by simp
  rw [bare, join_eq rfl, head_opened nonempty (by simp), ends, head, chars,
    baseChars_append _ List.not_mem_nil, List.length_nil, Nat.sub_zero, List.take_length,
    String.toList_ofList]
  rfl

/-- Where there is nothing but slashes, they stay. -/
theorem bare_of_slashes (nonempty : path ≠ "") (slashes : (opened path).toList.all (· = '/')) :
    bare path = opened path := by
  rw [← String.toList_inj, toList_bare nonempty, if_pos slashes]

/-- Otherwise something stays that does not end in a slash. -/
theorem bare_of_not_slashes (nonempty : path ≠ "")
    (more : ¬ (opened path).toList.all (· = '/')) :
    bare path ≠ "" ∧ (bare path).toList.getLast? ≠ some '/' := by
  have stripped : (bare path).toList = (opened path).toList.rdropWhile (· = '/') := by
    rw [toList_bare nonempty, if_neg more]
  have left : (bare path).toList ≠ [] := by
    rw [stripped]
    intro nothing
    exact more (List.all_eq_true.2 (List.rdropWhile_eq_nil_iff.1 nothing))
  refine ⟨fun h => left (String.toList_eq_nil_iff.2 h), ?_⟩
  rw [List.getLast?_eq_some_getLast left, Ne, Option.some.injEq]
  intro slash
  refine List.rdropWhile_last_not (· = '/') (opened path).toList (stripped ▸ left) ?_
  simpa [← stripped] using slash

/-- **A directory and the slashes at its end.** -/
theorem exists_bare (nonempty : path ≠ "") :
    ∃ s n, opened (bare path) = s ++ "/" ∧
      opened path = s ++ "/" ++ String.ofList (List.replicate n '/') ∧ bare path ≠ "" := by
  obtain ⟨s, slash⟩ := exists_opened nonempty
  by_cases slashes : (opened path).toList.all (· = '/')
  · have whole := bare_of_slashes nonempty slashes
    have again : opened (s ++ "/") = s ++ "/" := by simp [opened]
    rw [whole, slash, again]
    exact ⟨s, 0, rfl, by simp, by simp⟩
  · obtain ⟨left, last⟩ := bare_of_not_slashes nonempty slashes
    have ends : opened (bare path) = bare path ++ "/" := by simp [opened, left, last]
    obtain ⟨n, split⟩ := exists_rdropWhile (opened path).toList
    have stripped : (bare path).toList = (opened path).toList.rdropWhile (· = '/') := by
      rw [toList_bare nonempty, if_neg slashes]
    rw [← stripped] at split
    cases n with
    | zero =>
      rw [List.replicate_zero, List.append_nil] at split
      rw [← split, slash] at last
      simp at last
    | succ n =>
      refine ⟨bare path, n, ends, ?_, left⟩
      rw [← String.toList_inj, split]
      simp [List.replicate_succ]

theorem prefix_opened (path : String) : path.toList <+: (opened path).toList := by
  rw [opened]
  split
  · exact List.prefix_refl _
  · rw [String.toList_append]
    exact List.prefix_append _ _

/-- Slashes are taken away and nothing else is changed. -/
theorem prefix_bare (nonempty : path ≠ "") : (bare path).toList <+: path.toList := by
  by_cases ends : path.toList.getLast? = some '/'
  · have whole : opened path = path := by simp [opened, ends]
    rw [toList_bare nonempty, whole]
    split
    · exact List.prefix_refl _
    · exact List.rdropWhile_prefix _ _
  · have whole : (opened path).toList = path.toList ++ ['/'] := by simp [opened, nonempty, ends]
    have other : ¬ (path.toList ++ ['/']).all (· = '/') := by
      have left : path.toList ≠ [] := mt String.toList_eq_nil_iff.1 nonempty
      rw [List.getLast?_eq_some_getLast left, Option.some.injEq] at ends
      intro slashes
      have last := List.all_eq_true.1 slashes _ (List.mem_append_left _ (List.getLast_mem left))
      exact ends (by simpa using last)
    rw [toList_bare nonempty, whole, if_neg other, List.rdropWhile_concat_pos _ _ _ (by simp)]
    exact List.rdropWhile_prefix _ _

/-- A path that ends in a name has no slashes at its end. -/
theorem bare_join (nonempty : name ≠ "") (slashless : '/' ∉ name.toList) :
    bare (join directory name) = join directory name := by
  have left : name.toList ≠ [] := mt String.toList_eq_nil_iff.1 nonempty
  obtain ⟨cs, c, chars⟩ := (List.eq_nil_or_concat' name.toList).resolve_left left
  have noSlash : c ≠ '/' := by
    rintro rfl
    exact slashless (chars ▸ List.mem_append_right cs List.mem_cons_self)
  have whole : (join directory name).toList = (opened directory).toList ++ cs ++ [c] := by
    rw [join_eq (isAbsolute_of_slashless slashless), String.toList_append, chars, List.append_assoc]
  have some : join directory name ≠ "" := by
    rw [Ne, ← String.toList_eq_nil_iff, whole]
    simp
  have opens : (opened (join directory name)).toList = (join directory name).toList ++ ['/'] := by
    simp [opened, whole, noSlash, some]
  rw [← String.toList_inj, toList_bare some, opens, whole, if_neg (by simp [noSlash]),
    List.rdropWhile_concat_pos _ _ _ (by simp),
    List.rdropWhile_concat_neg _ _ _ (by simp [noSlash])]

/-- A name below a name. -/
theorem join_intercalate (named : IsName name) (more : names ≠ [])
    (others : ∀ n ∈ names, IsName n) :
    join name ("/".intercalate names) = "/".intercalate (name :: names) := by
  have noSlash : name.toList.getLast? ≠ some '/' := fun h =>
    named.slashless (List.mem_of_getLast? h)
  have opens : opened name = name ++ "/" := by simp [opened, named.nonempty, noSlash]
  rw [join_eq (isAbsolute_intercalate others), opens, intercalate_cons more]

theorem under_eq (named : ∀ n ∈ names, IsName n) :
    under directory names = opened (bare directory) ++ "/".intercalate names :=
  join_eq (isAbsolute_intercalate named)

/-- What is below a directory begins at the root if the directory does. -/
theorem isAbsolute_under (nonempty : directory ≠ "") (named : ∀ n ∈ names, IsName n) :
    isAbsolute (under directory names) = isAbsolute directory := by
  obtain ⟨-, -, -, -, left⟩ := exists_bare nonempty
  have inside : (bare directory).toList <+: (under directory names).toList := by
    rw [under_eq named, String.toList_append]
    exact (prefix_opened _).trans (List.prefix_append _ _)
  rw [isAbsolute_of_begins left inside, isAbsolute_of_begins left (prefix_bare nonempty)]

theorem under_ne_empty (nonempty : directory ≠ "") (named : ∀ n ∈ names, IsName n) :
    under directory names ≠ "" := by
  obtain ⟨s, n, ends, -⟩ := exists_bare nonempty
  rw [under_eq named, ends, Ne, ← String.toList_eq_nil_iff]
  simp

theorem mem_opened {c : Char} (h : c ∈ (opened path).toList) : c ∈ path.toList ∨ c = '/' := by
  rw [opened] at h
  split at h
  · exact .inl h
  · simpa using h

theorem mem_intercalate {c : Char} (h : c ∈ ("/".intercalate names).toList) :
    c = '/' ∨ ∃ n ∈ names, c ∈ n.toList := by
  induction names with
  | nil => simp at h
  | cons name names ih =>
    rcases eq_or_ne names [] with rfl | more
    · rw [String.intercalate_singleton] at h
      exact .inr ⟨name, List.mem_cons_self, h⟩
    · rw [intercalate_cons more, String.toList_append, String.toList_append, List.mem_append,
        List.mem_append] at h
      rcases h with (first | slash) | others
      · exact .inr ⟨name, List.mem_cons_self, first⟩
      · exact .inl (by simpa using slash)
      · exact (ih others).imp_right fun ⟨n, inside, hc⟩ => ⟨n, List.mem_cons_of_mem _ inside, hc⟩

/-- The characters of what is spelled below a directory. -/
theorem mem_under {c : Char} (nonempty : directory ≠ "") (named : ∀ n ∈ names, IsName n)
    (h : c ∈ (under directory names).toList) :
    c = '/' ∨ c ∈ directory.toList ∨ ∃ n ∈ names, c ∈ n.toList := by
  rw [under_eq named, String.toList_append, List.mem_append] at h
  rcases h with before | inside
  · rcases mem_opened before with before | slash
    · exact .inr (.inl ((prefix_bare nonempty).subset before))
    · exact .inl slash
  · exact (mem_intercalate inside).imp_right .inr

/-- **Different names are spelled differently.** -/
theorem under_injective (named : ∀ n ∈ names, IsName n) (named' : ∀ n ∈ names', IsName n)
    (same : under directory names = under directory names') : names = names' := by
  rw [under_eq named, under_eq named', ← String.toList_inj, String.toList_append,
    String.toList_append, List.append_cancel_left_eq, String.toList_inj] at same
  exact intercalate_injective named named' same

theorem intercalate_concat (some : names ≠ []) :
    "/".intercalate (names ++ [name]) = "/".intercalate names ++ "/" ++ name := by
  induction names with
  | nil => exact absurd rfl some
  | cons first names ih =>
    rcases eq_or_ne names [] with rfl | more
    · rw [List.singleton_append, intercalate_cons (List.cons_ne_nil _ _),
        String.intercalate_singleton, String.intercalate_singleton]
    · have both : names ++ [name] ≠ [] := List.append_ne_nil_of_left_ne_nil more _
      rw [List.cons_append, intercalate_cons both, ih more, intercalate_cons more]
      simp only [String.append_assoc]

/-- A path to something below a directory ends in a name, and not in a slash. -/
theorem opened_under (nonempty : directory ≠ "") (some : names ≠ [])
    (named : ∀ n ∈ names, IsName n) :
    opened (under directory names) = under directory names ++ "/" := by
  have noSlash : ("/".intercalate names).toList.getLast? ≠ Option.some '/' := by
    intro slash
    obtain ⟨cs, chars⟩ := List.getLast?_eq_some_iff.1 slash
    have ends : "/".intercalate names = String.ofList cs ++ "/" ++ "" := by
      rw [← String.toList_inj, chars]
      simp
    -- the last component would be empty
    have apart := components_intercalate some named
    rw [ends, components_append_slash] at apart
    have last : "" ∈ names := apart ▸ List.mem_append_right _ List.mem_cons_self
    exact (named "" last).nonempty rfl
  have inner := intercalate_ne_empty some named
  have left : ("/".intercalate names).toList ≠ [] := mt String.toList_eq_nil_iff.1 inner
  have ends : (under directory names).toList.getLast? ≠ Option.some '/' := by
    rwa [under_eq named, String.toList_append, List.getLast?_append_of_ne_nil _ left]
  simp [opened, under_ne_empty nonempty named, ends]

/-- **One name more.** -/
theorem join_under (nonempty : directory ≠ "") (named : ∀ n ∈ names, IsName n)
    (last : IsName name) :
    join (under directory names) name = under directory (names ++ [name]) := by
  have all : ∀ n ∈ names ++ [name], IsName n := by
    simpa [or_imp, forall_and] using ⟨named, last⟩
  rw [join_eq (isAbsolute_of_slashless last.slashless)]
  rcases eq_or_ne names [] with rfl | some
  · obtain ⟨s, n, ends, -⟩ := exists_bare nonempty
    have closed : opened (s ++ "/") = s ++ "/" := by simp [opened]
    rw [under_eq all, under_eq named, ends, List.nil_append, String.intercalate_singleton,
      String.intercalate_nil, String.append_empty, closed]
  · rw [opened_under nonempty some named, under_eq all, under_eq named, intercalate_concat some]
    simp only [String.append_assoc]

/-- **The last name can be read off.** -/
theorem base_under (nonempty : directory ≠ "") (named : ∀ n ∈ names, IsName n)
    (last : IsName name) : base (under directory (names ++ [name])) = name := by
  rw [← join_under nonempty named last, base_join last.slashless]

end ComponentSpec.Path
