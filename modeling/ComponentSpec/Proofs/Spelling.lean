import Mathlib.Data.List.Forall2
import Mathlib.Data.List.TakeWhile
import ComponentSpec.CommandLine.Arguments
import ComponentSpec.Proofs.Checked

/-!
# Spelling an invocation

What is asked for on a command line can be asked for in one way at least: every option by its long
name, with its value in the same word, and the plain words last, after a double hyphen. No text
stands in the way of that. A value may begin with a hyphen, since it does not stand at the front of
its word, and after the double hyphen every word is plain. Only a double hyphen is no value.

* `Invocation.spelling` — an invocation as words;
* `Spells` — a word that asks for one option, by itself;
* `scan_spelled` — reading words that ask for options, and what comes after them;
* `Invocation.parse_spelling` — an invocation is read back from its spelling.
-/

namespace ComponentSpec.CommandLine

open Checked

variable {g : Grammar} {arity : Arity} {name value word text : String} {key : OptionKey}
  {words : List Word} {texts : List String} {s : Scan}

/-! ### The words -/

/-- An option and its value in one word. -/
def attached (name value : String) : String := name ++ "=" ++ value

/-- The words for an option that takes a value. -/
def spellOption (name : String) (value : Option String) : List String :=
  value.toList.map (attached name)

/-- The words for an option that takes none. -/
def spellFlag (name : String) (asked : Bool) : List String := if asked then [name] else []

/-- **The words for a command.** -/
def Command.spelling : Command → List String
  | .build file output raw =>
    "build" :: (spellOption "--output" output ++ spellFlag "--raw" raw ++ ["--", file])
  | .combine sources output platform =>
    "combine" :: (spellOption "--output" output ++ spellOption "--platform" platform ++
      "--" :: sources)
  | .check files => "check" :: "--" :: files

/-- **The words for an invocation.** -/
def Invocation.spelling (invocation : Invocation) : List String :=
  spellFlag "--verbose" invocation.verbose ++ spellOption "--config" invocation.config ++
    (invocation.command.map Command.spelling).getD []

/-! ### What the words are -/

theorem toList_attached (name value : String) :
    (attached name value).toList = name.toList ++ '=' :: value.toList := by
  simp [attached]

theorem splitValue_append {cs : List Char} (noSign : '=' ∉ cs) (value : List Char) :
    splitValue (cs ++ '=' :: value) = (cs, some value) := by
  have others : ∀ c ∈ cs, decide (c ≠ '=') = true := by
    intro c hc
    simp only [decide_eq_true_eq]
    rintro rfl
    exact noSign hc
  rw [splitValue, List.dropWhile_append_of_pos others, List.takeWhile_append_of_pos others]
  simp

/-- **A grammar with plain names,** which have no `=` in them. -/
def Grammar.Plain (g : Grammar) : Prop := ∀ e ∈ g, '=' ∉ e.1.toList

theorem plain_mainGrammar : mainGrammar.Plain := by
  unfold Grammar.Plain
  decide

theorem plain_buildGrammar : buildGrammar.Plain := by
  unfold Grammar.Plain
  decide

theorem plain_combineGrammar : combineGrammar.Plain := by
  unfold Grammar.Plain
  decide

/-- An option with its value is no name. -/
theorem find?_attached (plain : g.Plain) (name value : String) :
    g.find? (attached name value) = none := by
  apply List.lookup_eq_none_iff.2
  intro e he
  rw [bne_iff_ne]
  intro same
  apply plain e he
  rw [← same, toList_attached]
  simp

/-- **A long name** has two hyphens at its front, and no `=`. -/
def IsLongName (name : String) : Prop := ∃ cs, name.toList = '-' :: '-' :: cs ∧ '=' ∉ cs

theorem isLongName_config : IsLongName "--config" := ⟨"config".toList, rfl, by decide⟩

theorem isLongName_output : IsLongName "--output" := ⟨"output".toList, rfl, by decide⟩

theorem isLongName_platform : IsLongName "--platform" := ⟨"platform".toList, rfl, by decide⟩

theorem splitValue_attached (long : IsLongName name) (value : String) :
    splitValue (attached name value).toList = (name.toList, some value.toList) := by
  obtain ⟨cs, spelled, noSign⟩ := long
  rw [toList_attached]
  exact splitValue_append (by simp [spelled, noSign]) value.toList

/-- An option with its value looks like an option. -/
theorem isLong_attached (long : IsLongName name) (value : String) :
    (attached name value).toList.head? = some '-' ∧ (attached name value).toList.length ≠ 1 ∧
      isLong (attached name value).toList := by
  obtain ⟨cs, spelled, -⟩ := long
  simp [toList_attached, spelled, isLong]

/-- **An option with its value in the same word.** -/
theorem classifyWord_attached (plain : g.Plain) (long : IsLongName name)
    (known : g.find? name = some key) (value : String) :
    classifyWord g (attached name value) = some (.option ⟨key, true, some value.toList⟩) := by
  obtain ⟨hyphen, longer, isLong⟩ := isLong_attached long value
  rw [classifyWord, splitValue_attached long]
  simp [hyphen, longer, isLong, find?_attached plain, known]

/-- An option that a grammar does not know is something or other. -/
theorem exists_classifyWord_attached (plain : g.Plain) (long : IsLongName name)
    (other : ∀ e ∈ g, name.toList.isPrefixOf e.1.toList = false) (value : String) :
    ∃ kind, classifyWord g (attached name value) = some kind := by
  obtain ⟨hyphen, longer, isLong⟩ := isLong_attached long value
  have noReading : readings g (attached name value).toList = [] := by
    rw [readings, if_pos isLong, splitValue_attached long]
    apply List.filterMap_eq_nil_iff.2
    intro e he
    simp [other e he]
  have unknown : g.find? name = none := by
    apply List.lookup_eq_none_iff.2
    intro e he
    rw [bne_iff_ne]
    -- a name is the beginning of itself
    rintro rfl
    have itself := List.isPrefixOf_iff_prefix.2 (List.prefix_refl e.1.toList)
    rw [other e he] at itself
    cases itself
  rw [classifyWord, splitValue_attached long]
  simp [hyphen, longer, find?_attached plain, unknown, noReading]

/-! ### Reading the words -/

theorem classify_cons (apart : text ≠ "--") {kind : Kind} (h : classifyWord g text = some kind) :
    classify g (text :: texts) = (classify g texts).map fun words => ⟨text, kind⟩ :: words := by
  rw [classify, if_neg apart, h]
  cases classify g texts <;> rfl

theorem texts_of_classify (h : classify g texts = some words) : words.map Word.text = texts := by
  induction texts generalizing words with
  | nil =>
    cases h
    rfl
  | cons text texts ih =>
    rw [classify] at h
    split at h
    · obtain rfl := Option.some.inj h
      simp [Function.comp_def]
    · obtain ⟨kind, -, h⟩ := Option.bind_eq_some_iff.1 h
      obtain ⟨rest, hrest, h⟩ := Option.bind_eq_some_iff.1 h
      obtain rfl := Option.some.inj h
      rw [List.map_cons, ih hrest]

/-- **A word that asks for one option,** and for that by itself. -/
structure Spells (g : Grammar) (word : String) (option : OptionKey × String) : Prop where
  apart : word ≠ "--"
  asks : ∃ w, classifyWord g word = some (.option w) ∧ ∀ s rest,
    takeOption g w s rest = .ok ({ s with options := s.options ++ [option] }, false)

theorem spells_attached (plain : g.Plain) (long : IsLongName name)
    (known : g.find? name = some key) (takes : key.takesValue) (value : String) :
    Spells g (attached name value) (key, value) := by
  constructor
  · intro same
    have sign : '=' ∈ "--".toList := by
      rw [← same, toList_attached]
      simp
    exact absurd sign (by decide)
  · refine ⟨_, classifyWord_attached plain long known value, fun s rest => ?_⟩
    have other : (key == .help) = false := by cases key <;> first | rfl | cases takes
    simp [takeOption, Written.chain?, takes, Chain.value?, other, pure, Except.pure]

theorem spells_flag (apart : name ≠ "--")
    (asks : classifyWord g name = some (.option ⟨key, true, none⟩)) (noHelp : key ≠ .help)
    (takes : key.takesValue = false) : Spells g name (key, "") := by
  refine ⟨apart, _, asks, fun s rest => ?_⟩
  simp [takeOption, Written.chain?, takes, Chain.value?, noHelp, pure, Except.pure]

/-- **Words that ask for options are read one by one,** whatever comes after them. -/
theorem scanWords_spelled {front : List String} {options : List (OptionKey × String)}
    (spelled : List.Forall₂ (Spells g) front options) (h : classify g texts = some words) :
    ∃ before, before.length = front.length ∧ classify g (front ++ texts) = some (before ++ words) ∧
      ∀ arity s fuel, scanWords g arity (fuel + before.length) s (before ++ words) =
        scanWords g arity fuel { s with options := s.options ++ options } words := by
  -- the options that the first word asks for are there before the others are read
  induction spelled with
  | nil =>
    refine ⟨[], rfl, h, ?_⟩
    intro arity s fuel
    simp
  | @cons word option front options spells _ ih =>
    obtain ⟨before, same, classified, scanned⟩ := ih
    obtain ⟨w, known, taken⟩ := spells.asks
    refine ⟨⟨word, .option w⟩ :: before, by simp [same], ?_, ?_⟩
    · rw [List.cons_append, classify_cons spells.apart known, classified]
      rfl
    · intro arity s fuel
      have here : (⟨word, .option w⟩ : Word).isOption := rfl
      rw [List.length_cons, ← Nat.add_assoc, List.cons_append, scanWords,
        List.dropWhile_cons_of_neg (by simp [here])]
      simp only [List.length_cons, Nat.sub_self, if_true, Nat.lt_irrefl, if_false, Bool.or_false,
        decide_false, taken]
      exact (scanned arity _ fuel).trans (by simp)

/-- **The words of an argument that takes them all.** -/
theorem scanWords_of_span {w : Word} (noOption : w.isOption = false) (expected : s.argument = none)
    (takes : arity.span (w :: words) = some (words.length + 1)) (fuel : Nat) :
    scanWords g arity (fuel + 2) s (w :: words) =
      .ok { s with argument := some (arity.texts (w :: words)) } := by
  have taken : takeArgument arity s (w :: words) =
      ({ s with argument := some (arity.texts (w :: words)) }, words.length + 1) := by
    rw [takeArgument, expected, takes]
    simp only [← List.length_cons (a := w), List.take_length]
  rw [scanWords, List.dropWhile_cons_of_pos (by simp [noOption])]
  cases rest : words.dropWhile fun w => !w.isOption with
  | nil => simp [taken]
  | cons option rest' =>
    -- there is an option among the words, which are taken all the same
    have shorter : rest'.length + 1 ≤ words.length := by
      have le : (words.dropWhile fun w => !w.isOption).length ≤ words.length :=
        (List.dropWhile_suffix _).length_le
      rwa [rest, List.length_cons] at le
    have before : ¬ words.length + 1 - (rest'.length + 1) = 0 := by omega
    simp only [List.length_cons, before, if_false, taken, Nat.succ_pos, if_true]
    rw [← List.length_cons (a := w), List.drop_length, scanWords]
    simp [takeArgument]

/-- **Words that ask for options, and what comes after them.** -/
theorem scan_spelled {front : List String} {options : List (OptionKey × String)}
    (spelled : List.Forall₂ (Spells g) front options) (h : classify g texts = some words) :
    scan g arity (front ++ texts) =
      scanWords g arity (words.length + 1) ⟨options, none, false⟩ words := by
  obtain ⟨before, -, classified, scanned⟩ := scanWords_spelled spelled h
  rw [scan, classified]
  simp only [List.length_append]
  rw [show before.length + words.length + 1 = words.length + 1 + before.length by omega, scanned]
  rfl

/-- What stands after a double hyphen. -/
def plainWords (texts : List String) : List Word := texts.map fun text => ⟨text, .plain⟩

/-- **Words that ask for options, and plain ones after a double hyphen.** -/
theorem scan_spelled_plain {front : List String} {options : List (OptionKey × String)}
    (spelled : List.Forall₂ (Spells g) front options) (noCommand : arity ≠ .command)
    (takes : arity.span (⟨"--", .separator⟩ :: plainWords texts) = some (texts.length + 1)) :
    scan g arity (front ++ "--" :: texts) = .ok ⟨options, some texts, false⟩ := by
  have classified : classify g ("--" :: texts) = some (⟨"--", .separator⟩ :: plainWords texts) := by
    rw [classify, if_pos rfl]
    rfl
  have length : (plainWords texts).length = texts.length := List.length_map _
  have given : arity.texts (⟨"--", .separator⟩ :: plainWords texts) = texts := by
    rw [Arity.texts.eq_2 _ _ noCommand, texts_of_classify classified, List.erase_cons_head]
  rw [scan_spelled spelled classified, List.length_cons,
    scanWords_of_span rfl rfl (by rw [takes, length]), given]

theorem span_optional (file : String) :
    Arity.span .optional (⟨"--", .separator⟩ :: plainWords [file]) = some 2 := rfl

theorem span_several (given : texts ≠ []) :
    Arity.span .several (⟨"--", .separator⟩ :: plainWords texts) = some (texts.length + 1) := by
  have all : (plainWords texts).takeWhile (fun w => !w.isOption) = plainWords texts := by
    refine List.takeWhile_eq_self_iff.2 fun w hw => ?_
    obtain ⟨text, -, rfl⟩ := List.mem_map.1 hw
    rfl
  have length : (plainWords texts).length = texts.length := List.length_map _
  obtain ⟨text, rest, rfl⟩ := List.exists_cons_of_ne_nil given
  have separated : ((⟨"--", .separator⟩ : Word) :: plainWords (text :: rest)).takeWhile
      Word.isSeparator = [⟨"--", .separator⟩] := rfl
  have first : plainWords (text :: rest) = ⟨text, .plain⟩ :: plainWords rest := rfl
  simp only [Arity.span, separated, List.length_singleton, List.drop_one, List.tail_cons, all,
    length]
  rw [first, Nat.add_comm 1]
  rfl

/-- **Words that ask for options, and a command with everything after it.** -/
theorem scan_spelled_command {front : List String} {options : List (OptionKey × String)}
    (spelled : List.Forall₂ (Spells g) front options) (apart : name ≠ "--")
    (plain : classifyWord g name = some .plain) (h : classify g texts = some words) :
    scan g .command (front ++ name :: texts) = .ok ⟨options, some (name :: texts), false⟩ := by
  have classified : classify g (name :: texts) = some (⟨name, .plain⟩ :: words) := by
    rw [classify_cons apart plain, h]
    rfl
  rw [scan_spelled spelled classified, List.length_cons, scanWords_of_span rfl rfl rfl]
  exact congrArg (fun texts => Except.ok (⟨options, some texts, false⟩ : Scan))
    (texts_of_classify classified)

/-- Before a double hyphen every word has to be something or other; after it every word is. -/
theorem exists_classify {front : List String}
    (known : ∀ text ∈ front, ∃ kind, classifyWord g text = some kind) (texts : List String) :
    ∃ words, classify g (front ++ "--" :: texts) = some words := by
  induction front with
  | nil => exact ⟨_, if_pos rfl⟩
  | cons text front ih =>
    obtain ⟨words, classified⟩ := ih fun t ht => known t (List.mem_cons_of_mem _ ht)
    obtain ⟨kind, here⟩ := known text List.mem_cons_self
    rcases eq_or_ne text "--" with rfl | apart
    · exact ⟨_, if_pos rfl⟩
    · exact ⟨_, by rw [List.cons_append, classify_cons apart here, classified]; rfl⟩

/-! ### Options -/

/-- The options that a value stands for. -/
def valueOption (key : OptionKey) (value : Option String) : List (OptionKey × String) :=
  value.toList.map fun v => (key, v)

def flagOption (key : OptionKey) (asked : Bool) : List (OptionKey × String) :=
  if asked then [(key, "")] else []

theorem spells_spellOption (plain : g.Plain) (long : IsLongName name)
    (known : g.find? name = some key) (takes : key.takesValue) (value : Option String) :
    List.Forall₂ (Spells g) (spellOption name value) (valueOption key value) := by
  cases value with
  | none => exact .nil
  | some value => exact .cons (spells_attached plain long known takes value) .nil

theorem spells_spellFlag (spells : Spells g name (key, "")) (asked : Bool) :
    List.Forall₂ (Spells g) (spellFlag name asked) (flagOption key asked) := by
  cases asked with
  | false => exact .nil
  | true => exact .cons spells .nil

theorem spells_verbose : Spells mainGrammar "--verbose" (.verbose, "") :=
  spells_flag (by decide) (by decide +kernel) nofun rfl

theorem spells_raw : Spells buildGrammar "--raw" (.raw, "") :=
  spells_flag (by decide) (by decide +kernel) nofun rfl

/-- A double hyphen is no value. -/
theorem value?_eq {value : Option String} (given : value ≠ some "--")
    (last : (s.options.reverse.find? fun o => o.1 == key) = value.map fun v => (key, v)) :
    s.value? key = value := by
  rw [Scan.value?, last]
  cases value with
  | none => rfl
  | some value =>
    have other : value ≠ "--" := by simpa using given
    simp [other]

/-! ### Commands -/

/-- **The commands that have a spelling:** the values that can be given, and words where there have
to be some. -/
def Command.Spellable : Command → Prop
  | .build _ output _ => output ≠ some "--"
  | .combine sources output platform =>
    sources ≠ [] ∧ output ≠ some "--" ∧ platform ≠ some "--"
  | .check files => files ≠ []

theorem parse_build (file : String) {output : Option String} (raw : Bool)
    (given : output ≠ some "--") :
    Command.parse "build"
      (spellOption "--output" output ++ spellFlag "--raw" raw ++ ["--", file]) =
      .ok (.build file output raw, false) := by
  have spelled := List.rel_append
    (spells_spellOption plain_buildGrammar isLongName_output rfl rfl output)
    (spells_spellFlag spells_raw raw)
  have scanned : scan buildGrammar .optional
      (spellOption "--output" output ++ spellFlag "--raw" raw ++ ["--", file]) =
      .ok ⟨valueOption .output output ++ flagOption .raw raw, some [file], false⟩ :=
    scan_spelled_plain spelled nofun (span_optional file)
  have asked : Scan.value? ⟨valueOption .output output ++ flagOption .raw raw, some [file], false⟩
      .output = output := value?_eq given (by cases output <;> cases raw <;> rfl)
  have bare : Scan.has ⟨valueOption .output output ++ flagOption .raw raw, some [file], false⟩
      .raw = raw := by cases output <;> cases raw <;> rfl
  rw [Command.parse, if_pos rfl, scanned]
  show Except.ok _ = _
  rw [asked, bare]
  rfl

theorem parse_combine {sources : List String} {output platform : Option String}
    (some_sources : sources ≠ []) (given : output ≠ some "--") (given' : platform ≠ some "--") :
    Command.parse "combine"
      (spellOption "--output" output ++ spellOption "--platform" platform ++ "--" :: sources) =
      .ok (.combine sources output platform, false) := by
  have spelled := List.rel_append
    (spells_spellOption plain_combineGrammar isLongName_output rfl rfl output)
    (spells_spellOption plain_combineGrammar isLongName_platform rfl rfl platform)
  have scanned : scan combineGrammar .several
      (spellOption "--output" output ++ spellOption "--platform" platform ++ "--" :: sources) =
      .ok ⟨valueOption .output output ++ valueOption .platform platform, some sources, false⟩ :=
    scan_spelled_plain spelled nofun (span_several some_sources)
  have asked : Scan.value? ⟨valueOption .output output ++ valueOption .platform platform,
      some sources, false⟩ .output = output :=
    value?_eq given (by cases output <;> cases platform <;> rfl)
  have asked' : Scan.value? ⟨valueOption .output output ++ valueOption .platform platform,
      some sources, false⟩ .platform = platform :=
    value?_eq given' (by cases output <;> cases platform <;> rfl)
  rw [Command.parse, if_neg (by decide), if_pos rfl, scanned]
  show Except.ok _ = _
  rw [asked, asked']

theorem parse_check {files : List String} (some_files : files ≠ []) :
    Command.parse "check" ("--" :: files) = .ok (.check files, false) := by
  have scanned : scan checkGrammar .several ([] ++ "--" :: files) = .ok ⟨[], some files, false⟩ :=
    scan_spelled_plain .nil nofun (span_several some_files)
  rw [List.nil_append] at scanned
  rw [Command.parse, if_neg (by decide), if_neg (by decide), if_pos rfl, scanned]
  rfl

/-- The options of a command are something or other to the grammar before it. -/
theorem known_spellOption (long : IsLongName name)
    (other : ∀ e ∈ mainGrammar, name.toList.isPrefixOf e.1.toList = false) (value : Option String) :
    ∀ text ∈ spellOption name value, ∃ kind, classifyWord mainGrammar text = some kind := by
  intro text ht
  obtain ⟨value, -, rfl⟩ := List.mem_map.1 ht
  exact exists_classifyWord_attached plain_mainGrammar long other value

theorem known_spellFlag (raw : Bool) :
    ∀ text ∈ spellFlag "--raw" raw, ∃ kind, classifyWord mainGrammar text = some kind := by
  intro text ht
  cases raw with
  | false => cases ht
  | true =>
    obtain rfl := List.mem_singleton.1 ht
    exact ⟨.unknown, by decide +kernel⟩

/-- **A command is read back from its spelling,** which the grammar before it can tell apart. -/
theorem Command.parse_spelling {command : Command} (spellable : command.Spellable) :
    ∃ name texts words, command.spelling = name :: texts ∧ name ≠ "--" ∧
      classifyWord mainGrammar name = some .plain ∧ classify mainGrammar texts = some words ∧
      Command.parse name texts = .ok (command, false) := by
  have output_known := known_spellOption isLongName_output (by decide)
  have platform_known := known_spellOption isLongName_platform (by decide)
  cases command with
  | build file output raw =>
    obtain ⟨words, classified⟩ :=
      exists_classify (List.forall_mem_append.2 ⟨output_known output, known_spellFlag raw⟩) [file]
    exact ⟨_, _, words, rfl, by decide, by decide +kernel, classified,
      parse_build file raw spellable⟩
  | combine sources output platform =>
    obtain ⟨given, asked, asked'⟩ := spellable
    obtain ⟨words, classified⟩ := exists_classify
      (List.forall_mem_append.2 ⟨output_known output, platform_known platform⟩) sources
    exact ⟨_, _, words, rfl, by decide, by decide +kernel, classified,
      parse_combine given asked asked'⟩
  | check files =>
    exact ⟨_, _, _, rfl, by decide, by decide +kernel, if_pos rfl, parse_check spellable⟩

/-! ### Invocations -/

/-- **An invocation is read back from its spelling.** -/
theorem Invocation.parse_spelling {invocation : Invocation}
    (given : invocation.config ≠ some "--")
    (spellable : ∀ command, invocation.command = some command → command.Spellable) :
    Invocation.parse invocation.spelling = .ok invocation := by
  obtain ⟨verbose, config, command⟩ := invocation
  have spelled := List.rel_append (spells_spellFlag spells_verbose verbose)
    (spells_spellOption plain_mainGrammar isLongName_config rfl rfl config)
  have asked (argument : Option (List String)) :
      Scan.value? ⟨flagOption .verbose verbose ++ valueOption .config config, argument, false⟩
        .config = config := value?_eq given (by cases verbose <;> cases config <;> rfl)
  have loud (argument : Option (List String)) :
      Scan.has ⟨flagOption .verbose verbose ++ valueOption .config config, argument, false⟩
        .verbose = verbose := by cases verbose <;> cases config <;> rfl
  cases command with
  | none =>
    have scanned : scan mainGrammar .command
        (spellFlag "--verbose" verbose ++ spellOption "--config" config ++ []) =
        .ok ⟨flagOption .verbose verbose ++ valueOption .config config, none, false⟩ := by
      have nothing : classify mainGrammar [] = some [] := rfl
      exact scan_spelled spelled nothing
    rw [Invocation.parse, spelling, Option.map_none, Option.getD_none, scanned]
    show Except.ok _ = _
    rw [asked, loud]
    rfl
  | some command =>
    obtain ⟨name, texts, words, front, apart, plain, classified, parsed⟩ :=
      Command.parse_spelling (spellable command rfl)
    have scanned : scan mainGrammar .command
        (spellFlag "--verbose" verbose ++ spellOption "--config" config ++ name :: texts) =
        .ok ⟨flagOption .verbose verbose ++ valueOption .config config, some (name :: texts),
          false⟩ := scan_spelled_command spelled apart plain classified
    rw [Invocation.parse, spelling, Option.map_some, Option.getD_some, front, scanned]
    simp only [bind, Except.bind, parsed]
    show Except.ok _ = _
    rw [asked, loud]
    rfl

/-! ### What is read -/

theorem value?_ne (s : Scan) (key : OptionKey) : s.value? key ≠ some "--" := by
  unfold Scan.value?
  split
  · split
    · exact nofun
    · next other => exact fun same => other (Option.some.inj same)
  · exact nofun

/-- The values of a command that is read are values that can be given. -/
theorem platform_ne_of_parse {sources : List String} {output platform : Option String}
    {leftover : Bool}
    (h : Command.parse name texts = .ok (.combine sources output platform, leftover)) :
    platform ≠ some "--" := by
  unfold Command.parse at h
  split at h
  · obtain ⟨s, -, h⟩ := bind_eq_ok.1 h
    cases h
  · split at h
    · obtain ⟨s, -, h⟩ := bind_eq_ok.1 h
      obtain ⟨words, -, h⟩ := bind_eq_ok.1 h
      cases h
      exact value?_ne s .platform
    · split at h
      · obtain ⟨s, -, h⟩ := bind_eq_ok.1 h
        obtain ⟨words, -, h⟩ := bind_eq_ok.1 h
        cases h
      · cases h

/-- What an invocation asks for has been read by the grammars. -/
theorem of_parse {invocation : Invocation} (h : Invocation.parse texts = .ok invocation) :
    invocation.config ≠ some "--" ∧ ∀ command, invocation.command = some command →
      ∃ name rest leftover, Command.parse name rest = .ok (command, leftover) := by
  obtain ⟨s, -, h⟩ := bind_eq_ok.1 h
  simp only at h
  split at h
  · next name rest _ =>
    obtain ⟨command, parsed, h⟩ := bind_eq_ok.1 h
    split at h
    · cases h
    · cases h
      refine ⟨value?_ne s .config, ?_⟩
      intro command' same
      obtain ⟨⟨_, leftover⟩, rfl, rfl⟩ := Option.map_eq_some_iff.1 same
      obtain ⟨found, read, same⟩ := map_eq_ok.1 parsed
      cases same
      exact ⟨name, rest, leftover, read⟩
  · obtain ⟨command, nothing, h⟩ := bind_eq_ok.1 h
    cases nothing
    split at h
    · cases h
    · cases h
      exact ⟨value?_ne s .config, nofun⟩

end ComponentSpec.CommandLine
