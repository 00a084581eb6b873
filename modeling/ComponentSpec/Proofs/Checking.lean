import ComponentSpec.Proofs.Building

/-!
# Checking files

`check` looks at one file after the other and says of each whether it builds. What it says of a file
is a verdict on that file alone: it depends on what is read at the path, and on what the system
takes of a run (`verdict_congr`). A file passes or fails with a line, or it aborts the check. A
check takes one step for each file (`check_go_cons`), and so its output is that of the files before
the first one that aborts it (`check_go_append`).

There are five ways to abort a check, and they are met in this order: the path cannot name a file,
the text is given up, the tree is nested too deep, its assembly ends with a fault that no report
tells, or the line on the schema cannot be printed. Every other fault is told in a line
(`verdict_eq_aborts`).

* `Verdict`, `verdict` — what is said of a file;
* `Aborting`, `verdict_eq_aborts` — the files that abort a check;
* `run_check_reports` — what a check prints, and how it ends.
-/

namespace ComponentSpec

open Checked

namespace CommandLine

variable {disk disk' : Disk} {file : String} {files before after : List String} {fault : Fault}

/-! ### Verdicts -/

/-- **What a check says of a file:** a line for what it holds or for what is wrong with it, unless
it meets a fault that it does not expect. -/
inductive Verdict where
  | passes (text : String)
  | fails (text : String)
  | aborts (fault : Fault)

namespace Verdict

/-- The line on a file that passes. -/
def passed? : Verdict → Option String
  | passes text => some text
  | _ => none

/-- The line on a file that fails. -/
def failed? : Verdict → Option String
  | fails text => some text
  | _ => none

@[simp] theorem passed?_passes (text : String) : (passes text).passed? = some text := rfl

@[simp] theorem passed?_fails (text : String) : (fails text).passed? = none := rfl

@[simp] theorem failed?_passes (text : String) : (passes text).failed? = none := rfl

@[simp] theorem failed?_fails (text : String) : (fails text).failed? = some text := rfl

/-- A verdict with which the check goes on. -/
def GoesOn : Verdict → Prop
  | aborts _ => False
  | _ => True

end Verdict

/-- What is said of a file that does not build. -/
def failLine (file message : String) : String := line ("✗ " ++ file ++ ": " ++ message)

/-- **The verdict on a file.** -/
def verdict (disk : Disk) (file : String) : Verdict :=
  match (buildSchema disk file none).outcome >>= summary disk file with
  | .ok text => .passes (line text)
  | .error fault =>
    match checkMessage? fault with
    | some message => .fails (failLine file message)
    | none => .aborts fault

/-- **The lines on the files that pass,** in the order of the files. -/
def passedLines (verdicts : List Verdict) : String :=
  String.join (verdicts.filterMap Verdict.passed?)

/-- **The lines on the files that fail,** in the order of the files. -/
def failedLines (verdicts : List Verdict) : String :=
  String.join (verdicts.filterMap Verdict.failed?)

/-- The status of a check: whether a file fails. -/
def status (verdicts : List Verdict) : Nat := if verdicts.any (·.failed?.isSome) then 1 else 0

/-! ### A check, file by file -/

/-- **What is done with one file:** its line is printed and the check goes on with the others, or
the check ends there. -/
theorem check_go_cons (disk : Disk) (file : String) (files : List String) (failures : Bool)
    (out err : String) : check.go disk false (file :: files) failures out err =
      match verdict disk file with
      | .passes text => check.go disk false files failures (out ++ text) err
      | .fails text => check.go disk false files true out (err ++ text)
      | .aborts fault => ⟨.crash fault, out, err, disk⟩ := by
  have noNotes : noteLines false (buildSchema disk file none).notes = "" := rfl
  rw [check.go, verdict, noNotes, String.append_empty]
  cases (buildSchema disk file none).outcome >>= summary disk file with
  | ok text => rfl
  | error fault =>
    simp only
    cases checkMessage? fault <;> rfl

/-- **What is done with files that do not abort the check.** -/
theorem check_go_append (goesOn : ∀ file ∈ before, (verdict disk file).GoesOn)
    (after : List String) (failures : Bool) (out err : String) :
    check.go disk false (before ++ after) failures out err =
      check.go disk false after (failures || (before.map (verdict disk)).any (·.failed?.isSome))
        (out ++ passedLines (before.map (verdict disk)))
        (err ++ failedLines (before.map (verdict disk))) := by
  induction before generalizing failures out err with
  | nil => simp [passedLines, failedLines]
  | cons file before ih =>
    have first := goesOn file List.mem_cons_self
    have rest := ih fun f hf => goesOn f (List.mem_cons_of_mem _ hf)
    rw [List.cons_append, check_go_cons, List.map_cons]
    generalize verdict disk file = said at first ⊢
    generalize before.map (verdict disk) = others at rest ⊢
    cases said with
    | passes text =>
      simp only
      rw [rest]
      simp [passedLines, failedLines, List.filterMap_cons, String.append_assoc]
    | fails text =>
      simp only
      rw [rest]
      simp [passedLines, failedLines, List.filterMap_cons, String.append_assoc]
    | aborts fault => exact first.elim

/-- **A check that no file aborts** prints every line and ends with a status. -/
theorem check_eq (goesOn : ∀ file ∈ files, (verdict disk file).GoesOn) :
    check disk false files = ⟨.exit (status (files.map (verdict disk))),
      passedLines (files.map (verdict disk)), failedLines (files.map (verdict disk)), disk⟩ := by
  have all := check_go_append goesOn [] false "" ""
  rw [List.append_nil] at all
  rw [check, all, check.go, Bool.false_or, String.empty_append, String.empty_append, status]

/-- **A check that a file aborts** has printed the lines on the files before it. -/
theorem check_eq_crash (goesOn : ∀ file ∈ before, (verdict disk file).GoesOn)
    (aborts : verdict disk file = .aborts fault) : check disk false (before ++ file :: after) =
      ⟨.crash fault, passedLines (before.map (verdict disk)),
        failedLines (before.map (verdict disk)), disk⟩ := by
  rw [check, check_go_append goesOn, check_go_cons, aborts, String.empty_append,
    String.empty_append]

/-! ### The files that abort a check -/

/-- **The verdict on a file depends on what is read at its path,** and on the system. -/
theorem verdict_congr (same : disk'.read file = disk.read file)
    (system : disk'.system = disk.system) : verdict disk' file = verdict disk file := by
  have parse : disk'.parse = disk.parse := by
    funext text
    rw [Disk.parse, Disk.parse, system]
  have loaded : loadTree disk' file none = loadTree disk file none := by
    simp only [loadTree, readTree, Disk.readText, same, parse]
  have assembled : schemaOfTree disk' file = schemaOfTree disk file := by
    funext tree
    rw [schemaOfTree, schemaOfTree, system]
  have said : summary disk' file = summary disk file := by
    funext schema
    rw [summary, summary, system]
  rw [verdict, verdict, buildSchema, buildSchema, loaded, assembled, said]

/-- A fault of a tree that no report tells. -/
def Untold : Fault → Prop
  | .misfit _ | .invalid _ | .endless => True
  | _ => False

/-- **A file that aborts a check,** and with which fault. -/
inductive Aborting (disk : Disk) (file : String) : Fault → Prop where
  /-- Its path names nothing. -/
  | unnameable {e : DiskError} (unread : disk.read file = .error e)
      (cause : e.cause = .unnameable) : Aborting disk file (.disk e)
  /-- Its text is nested too deep, or holds an integer that is too long. -/
  | givenUp {text : String} {fault : Fault} (held : disk.readText file = .ok text)
      (givesUp : disk.GivesUp text fault) : Aborting disk file fault
  /-- It holds a tree that is nested too deep to be assembled. -/
  | tooDeep {tree : Value} (loaded : loadTree disk file none = .ok tree)
      (deep : disk.system.assembles tree = false) : Aborting disk file .stack
  /-- It holds a tree whose assembly ends with a fault that no report tells. -/
  | untold {tree : Value} {fault : Fault} (loaded : loadTree disk file none = .ok tree)
      (taken : disk.system.assembles tree) (failed : componentSchema tree = .error fault)
      (untold : Untold fault) : Aborting disk file fault
  /-- It builds, and the name of its component holds half of a pair that is not printed. -/
  | unprintable {schema : ComponentSchema} (built : Builds disk file schema)
      (refused : disk.system.refuses schema.name) : Aborting disk file (.unprintable schema.name)

/-- What cannot be printed of a file that builds is the name of its component. -/
theorem summary_eq_error {schema : ComponentSchema} : summary disk file schema = .error fault ↔
    disk.system.refuses schema.name ∧ fault = .unprintable schema.name := by
  by_cases refused : disk.system.refuses schema.name
  · rw [summary, if_pos refused]
    exact ⟨fun h => ⟨refused, (Except.error.inj h).symm⟩, fun h => by rw [h.2]⟩
  · rw [summary, if_neg refused]
    exact ⟨fun h => (nomatch h), fun h => absurd h.1 refused⟩

/-- A check is aborted by a fault of the file, or of its line, for which there is no message. -/
theorem verdict_eq_aborts_iff : verdict disk file = .aborts fault ↔
    ((buildSchema disk file none).outcome >>= summary disk file) = .error fault ∧
      checkMessage? fault = none := by
  rw [verdict]
  cases (buildSchema disk file none).outcome >>= summary disk file with
  | ok text => simp
  | error e =>
    simp only [Except.error.injEq]
    cases told : checkMessage? e with
    | some message =>
      simp only [reduceCtorEq, false_iff, not_and]
      rintro rfl
      simp [told]
    | none =>
      simp only [Verdict.aborts.injEq]
      constructor
      · rintro rfl
        exact ⟨rfl, told⟩
      · exact And.left

/-- A file that is not read aborts the check, unless it is told why. -/
theorem aborting_of_unloaded (unloaded : loadTree disk file none = .error fault)
    (untold : checkMessage? fault = none) : Aborting disk file fault := by
  rcases loadTree_eq_error unloaded with
    ⟨cause, -, rfl⟩ | ⟨text, held, givesUp⟩ | ⟨-, e, unread, rfl⟩
  · cases untold
  · exact .givenUp held givesUp
  · refine .unnameable unread ?_
    by_contra named
    rw [checkMessage?, if_neg named] at untold
    cases untold

/-- So does a file whose tree makes no schema. -/
theorem aborting_of_unassembled {tree : Value} (loaded : loadTree disk file none = .ok tree)
    (failed : schemaOfTree disk file tree = .error fault) (untold : checkMessage? fault = none) :
    Aborting disk file fault := by
  rcases schemaOfTree_eq_error.1 failed with ⟨deep, rfl⟩ | ⟨taken, e, assembled, rfl⟩
  · exact .tooDeep loaded deep
  · have unfiled := unfiled_componentSchema tree e assembled
    cases e with
    -- a report is told under the file's name
    | report r => cases untold
    | misfit | invalid | endless => exact .untold loaded taken assembled trivial
    -- what has to do with a file does not come from a tree
    | json | longInteger | utf8 | disk | unprintable | noSource | stack | overflow | exhausted =>
      exact absurd trivial unfiled

/-- **The files that abort a check.** Whatever else a path leads to, and whatever else is wrong with
a file, is told. -/
theorem verdict_eq_aborts : verdict disk file = .aborts fault ↔ Aborting disk file fault := by
  rw [verdict_eq_aborts_iff]
  constructor
  · rintro ⟨failed, untold⟩
    rcases bind_eq_error.1 failed with unbuilt | ⟨schema, built, unsaid⟩
    · rcases bind_eq_error.1 unbuilt with unloaded | ⟨tree, loaded, failed⟩
      · exact aborting_of_unloaded unloaded untold
      · exact aborting_of_unassembled loaded failed untold
    · obtain ⟨refused, rfl⟩ := summary_eq_error.1 unsaid
      exact .unprintable built refused
  · intro aborting
    -- all but the last of the ways end the building, and so the file is not summed up
    have unbuilt {e : Fault}
        (failed : (loadTree disk file none >>= schemaOfTree disk file) = .error e) :
        ((buildSchema disk file none).outcome >>= summary disk file) = .error e :=
      bind_eq_error.2 (.inl failed)
    cases aborting with
    | @unnameable e unread cause =>
      have unloaded : loadTree disk file none = .error (.disk e) := by
        rw [loadTree, Disk.readText, unread]
      exact ⟨unbuilt (bind_eq_error.2 (.inl unloaded)), by rw [checkMessage?, if_pos cause]⟩
    | givenUp held givesUp =>
      have supplied : disk.sourceText file none = .ok _ := held
      have unloaded := loadTree_of_sourceText supplied
      rw [readTree_of_givesUp givesUp] at unloaded
      exact ⟨unbuilt (bind_eq_error.2 (.inl unloaded)), by cases givesUp <;> rfl⟩
    | @tooDeep tree loaded deep =>
      have failed : schemaOfTree disk file tree = .error .stack :=
        schemaOfTree_eq_error.2 (.inl ⟨deep, rfl⟩)
      exact ⟨unbuilt (bind_eq_error.2 (.inr ⟨tree, loaded, failed⟩)), rfl⟩
    | @untold tree _ loaded taken assembled untold =>
      have failed : schemaOfTree disk file tree = .error (fault.locatedIn file) :=
        schemaOfTree_eq_error.2 (.inr ⟨taken, fault, assembled, rfl⟩)
      have unsaid := unbuilt (bind_eq_error.2 (.inr ⟨tree, loaded, failed⟩))
      cases fault <;> first | exact untold.elim | exact ⟨unsaid, rfl⟩
    | @unprintable schema built refused =>
      exact ⟨bind_eq_error.2 (.inr ⟨schema, built, summary_eq_error.2 ⟨refused, rfl⟩⟩), rfl⟩

/-! ### A run that checks files -/

/-- **What a run that checks files reports.** If no file aborts the check, then every path is
reported once and in order, on one output or the other, and the status says whether one failed. The
first file that aborts it is the last that is looked at. What is said of a file depends on what is
read at its path, and on what the system takes of a run, and the files that abort a check are
known. -/
theorem run_check_reports {words : List String} {stdin : String} {config : Option String}
    {settings : Settings}
    (asked : Invocation.parse words = .ok ⟨false, config, some (.check files)⟩)
    (settled : Settings.load disk config = .ok settings) :
    ((∀ file ∈ files, (verdict disk file).GoesOn) → run disk stdin words =
      ⟨.exit (status (files.map (verdict disk))), passedLines (files.map (verdict disk)),
        failedLines (files.map (verdict disk)), disk⟩) ∧
    (∀ before file after fault, files = before ++ file :: after →
      (∀ f ∈ before, (verdict disk f).GoesOn) → verdict disk file = .aborts fault →
      run disk stdin words = ⟨.crash fault, passedLines (before.map (verdict disk)),
        failedLines (before.map (verdict disk)), disk⟩) ∧
    (∀ file disk', disk'.read file = disk.read file → disk'.system = disk.system →
      verdict disk' file = verdict disk file) ∧
    (∀ file fault, verdict disk file = .aborts fault ↔ Aborting disk file fault) := by
  have ran : run disk stdin words = check disk false files := by
    rw [run]
    simp only [asked, settled, runCommand]
  refine ⟨fun goesOn => ?_, ?_, fun file disk' => verdict_congr,
    fun file fault => verdict_eq_aborts⟩
  · rw [ran, check_eq goesOn]
  · rintro before file after fault rfl goesOn aborts
    rw [ran, check_eq_crash goesOn aborts]

end CommandLine

namespace Sample

/-- The export of a commands call whose options have a number for a key. -/
def numberedCommands : Value :=
  let options := node "ObjectExpression" [("properties", .arr [node "Property" [
    ("key", node "Literal" [("value", .int 1)]),
    ("value", node "ArrayExpression" [("elements", .arr [])])]])]
  let call := node "CallExpression" [("callee", identifier "codegenNativeCommands"),
    ("typeParameters",
      node "TSTypeParameterInstantiation" [("params", .arr [reference "Commands" []])]),
    ("arguments", .arr [options])]
  node "ExportNamedDeclaration" [("declaration", node "VariableDeclaration" [
    ("declarations", .arr [node "VariableDeclarator" [("init", call)]])])]

/-- A dial with such commands. -/
def numberedFile : Value :=
  file [dialProps, interfaceNamed "Commands" [] [], numberedCommands] "Dial" "Props"

theorem componentSchema_numberedFile :
    componentSchema numberedFile = .error (.misfit .kind) := by
  have located : ∃ blueprint, Blueprint.locate numberedFile = .ok blueprint ∧
      blueprint.propsType = "Props" ∧
      commandOptions (tableValue blueprint.commandOptions) = .error (.misfit .kind) :=
    ⟨_, by with_unfolding_all rfl, by with_unfolding_all rfl, by with_unfolding_all rfl⟩
  obtain ⟨blueprint, located, props, failed⟩ := located
  have declared : Declarations.ofTree numberedFile =
      .ok (table [("Props", dialProps), ("Commands", interfaceNamed "Commands" [] [])]) := by
    with_unfolding_all rfl
  have expanded : membersOf (table [("Props", dialProps),
      ("Commands", interfaceNamed "Commands" [] [])]) (.str "Props") = .ok [] :=
    membersOf_eq_ok.2 ⟨_, _, .ofInterface rfl rfl rfl rfl, .nil⟩
  rw [componentSchema_eq, located, ok_bind, declared, ok_bind, schemaOf, props, expanded, ok_bind,
    failed, error_bind]

/-- Half of a pair. -/
def halfName : String := Text.ofCodes [0xD800]

/-- A dial that is named by it. -/
def halfNamedFile : Value := file [dialProps] halfName "Props"

/-- A directory with a dial, one whose commands have a number for an option, an integer that is too
long, and a dial that is named by half of a pair. -/
def bench : Disk where
  root := .directory [("good.json", .file (Utf8.encode (Json.write 2 plainDialFile))),
    ("bad.json", .file (Utf8.encode (Json.write 2 numberedFile))),
    ("long.json", .file (Utf8.encode longSource)),
    ("half.json", .file (Utf8.encode (Json.write 2 halfNamedFile)))]
  working := []
  home := "/"

theorem settings_bench : Settings.load bench none = .ok Settings.standard := by
  have noFile : Settings.file? bench none = none := by decide +kernel
  rw [Settings.load, noFile]

theorem builds_bench_good : Builds bench "good.json" plainDial := by
  have held : bench.read "good.json" = .ok (Utf8.encode (Json.write 2 plainDialFile)) := by
    with_unfolding_all rfl
  have plain : Json.isPlain plainDialFile := by with_unfolding_all rfl
  exact builds_of_written held plain rfl (componentSchema_plainDial "Dial") rfl

theorem verdict_bench_good : CommandLine.verdict bench "good.json" =
    .passes "✓ good.json: Dial (0 props, 0 events, 0 commands)\n" := by
  have built : (buildSchema bench "good.json" none).outcome = .ok plainDial := builds_bench_good
  have said : CommandLine.summary bench "good.json" plainDial =
      .ok "✓ good.json: Dial (0 props, 0 events, 0 commands)" := by with_unfolding_all rfl
  rw [CommandLine.verdict, built, ok_bind, said]
  rfl

theorem verdict_bench_lost : CommandLine.verdict bench "lost.json" =
    .fails "✗ lost.json: [Errno 2] No such file or directory: 'lost.json'\n" := by
  have unread : bench.read "lost.json" = .error ⟨.missing, "lost.json"⟩ := by
    with_unfolding_all rfl
  have failed : (buildSchema bench "lost.json" none).outcome =
      .error (.disk ⟨.missing, "lost.json"⟩) := by
    rw [buildSchema]
    simp only [loadTree, Disk.readText, unread, error_bind]
  have told : CommandLine.checkMessage? (.disk ⟨.missing, "lost.json"⟩) =
      some "[Errno 2] No such file or directory: 'lost.json'" := by decide +kernel
  rw [CommandLine.verdict, failed]
  simp only [error_bind, told]
  rfl

theorem verdict_bench_bad : CommandLine.verdict bench "bad.json" = .aborts (.misfit .kind) := by
  have held : bench.read "bad.json" = .ok (Utf8.encode (Json.write 2 numberedFile)) := by
    with_unfolding_all rfl
  have plain : Json.isPlain numberedFile := by with_unfolding_all rfl
  have loaded := loadTree_written 2 held plain rfl
  exact CommandLine.verdict_eq_aborts.2 (.untold loaded rfl componentSchema_numberedFile trivial)

theorem verdict_bench_long :
    CommandLine.verdict bench "long.json" = .aborts (.longInteger 4301) := by
  have held : bench.read "long.json" = .ok (Utf8.encode longSource) := by with_unfolding_all rfl
  have ones : ∀ c ∈ longSource.toList, c = '1' := by
    intro c hc
    rw [longSource, String.toList_ofList] at hc
    exact List.eq_of_mem_replicate hc
  have read : bench.readText "long.json" = .ok longSource :=
    readText_encode held (fun c hc => by rw [ones c hc]; decide)
      fun hc => absurd (ones _ hc) (by decide)
  exact CommandLine.verdict_eq_aborts.2 (.givenUp read (.longInteger rfl parse_longSource))

/-- The escape in the file is read as half of a pair, and strict output does not print it. -/
theorem verdict_bench_half :
    CommandLine.verdict bench "half.json" = .aborts (.unprintable halfName) := by
  have held : bench.read "half.json" = .ok (Utf8.encode (Json.write 2 halfNamedFile)) := by
    with_unfolding_all rfl
  have plain : Json.isPlain halfNamedFile := by with_unfolding_all rfl
  have built : Builds bench "half.json" { plainDial with name := halfName } :=
    builds_of_written held plain rfl (componentSchema_plainDial halfName) rfl
  exact CommandLine.verdict_eq_aborts.2 (.unprintable built (by decide))

end Sample

namespace CommandLine

open Sample in
/-- A file that passes and one that is missing are both reported. After a file that aborts the check
nothing is, whether its tree cannot be assembled, its text cannot be read or its line cannot be
printed. -/
theorem run_check_reports_bench :
    run bench "" ["check", "good.json", "lost.json"] = ⟨.exit 1,
      "✓ good.json: Dial (0 props, 0 events, 0 commands)\n",
      "✗ lost.json: [Errno 2] No such file or directory: 'lost.json'\n", bench⟩ ∧
    run bench "" ["check", "good.json", "bad.json", "lost.json"] = ⟨.crash (.misfit .kind),
      "✓ good.json: Dial (0 props, 0 events, 0 commands)\n", "", bench⟩ ∧
    run bench "" ["check", "good.json", "long.json", "lost.json"] = ⟨.crash (.longInteger 4301),
      "✓ good.json: Dial (0 props, 0 events, 0 commands)\n", "", bench⟩ ∧
    run bench "" ["check", "good.json", "half.json", "lost.json"] = ⟨.crash (.unprintable halfName),
      "✓ good.json: Dial (0 props, 0 events, 0 commands)\n", "", bench⟩ := by
  have settled := settings_bench
  have goesOn : ∀ file ∈ ["good.json", "lost.json"], (verdict bench file).GoesOn := by
    intro file hfile
    rcases List.mem_pair.1 hfile with rfl | rfl
    · rw [verdict_bench_good]
      trivial
    · rw [verdict_bench_lost]
      trivial
  -- the second of three files ends the check, after the line on the first
  have ends {file : String} {fault : Fault}
      (asked : Invocation.parse ["check", "good.json", file, "lost.json"] =
        .ok ⟨false, none, some (.check ["good.json", file, "lost.json"])⟩)
      (aborts : verdict bench file = .aborts fault) :
      run bench "" ["check", "good.json", file, "lost.json"] = ⟨.crash fault,
        "✓ good.json: Dial (0 props, 0 events, 0 commands)\n", "", bench⟩ := by
    have before : ∀ file ∈ ["good.json"], (verdict bench file).GoesOn := by
      intro file hfile
      exact goesOn file (List.mem_append_left ["lost.json"] hfile)
    have said : ["good.json"].map (verdict bench) =
        [.passes "✓ good.json: Dial (0 props, 0 events, 0 commands)\n"] := by
      rw [List.map_cons, List.map_nil, verdict_bench_good]
    rw [(run_check_reports asked settled).2.1 ["good.json"] file ["lost.json"] _ rfl before aborts,
      said]
    simp [passedLines, failedLines, List.filterMap_cons]
  refine ⟨?_, ends (by decide +kernel) verdict_bench_bad,
    ends (by decide +kernel) verdict_bench_long, ends (by decide +kernel) verdict_bench_half⟩
  have asked : Invocation.parse ["check", "good.json", "lost.json"] =
      .ok ⟨false, none, some (.check ["good.json", "lost.json"])⟩ := by decide +kernel
  have said : ["good.json", "lost.json"].map (verdict bench) =
      [.passes "✓ good.json: Dial (0 props, 0 events, 0 commands)\n",
        .fails "✗ lost.json: [Errno 2] No such file or directory: 'lost.json'\n"] := by
    rw [List.map_cons, List.map_cons, List.map_nil, verdict_bench_good, verdict_bench_lost]
  rw [(run_check_reports asked settled).1 goesOn, said]
  simp [status, passedLines, failedLines, List.filterMap_cons]

open Sample in
/-- **A check can end part way:** of two files the first is not reported, and the second, which
builds, is not looked at. -/
theorem not_check_reports_all : Builds bench "good.json" plainDial ∧
    run bench "" ["check", "bad.json", "good.json"] = ⟨.crash (.misfit .kind), "", "", bench⟩ := by
  refine ⟨builds_bench_good, ?_⟩
  have asked : Invocation.parse ["check", "bad.json", "good.json"] =
      .ok ⟨false, none, some (.check ["bad.json", "good.json"])⟩ := by decide +kernel
  have before : ∀ file ∈ ([] : List String), (verdict bench file).GoesOn := by simp
  have crashed : check bench false ["bad.json", "good.json"] =
      ⟨.crash (.misfit .kind), "", "", bench⟩ := check_eq_crash before verdict_bench_bad
  rw [run]
  simp only [asked, settings_bench, runCommand]
  exact crashed

end CommandLine

end ComponentSpec
