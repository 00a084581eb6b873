import ComponentSpec.Proofs.Checking
import ComponentSpec.Proofs.Files
import ComponentSpec.Proofs.Spelling

/-!
# What a command leaves on the disk

A command that is asked for an output does what it does without, up to the end: the document is
there as a text before anything is opened. Then the text is written where it would have been
printed. So the two runs fail together, unless the file cannot be written, and files do not change
by a run that fails; at most directories are made on the way.

* `Invocation.output?`, `Invocation.withoutOutput` — an invocation and the one that prints;
* `Delivers` — the runs of both, side by side;
* `delivers_perform` — all commands deliver what they print;
* `run_writes_what_it_prints` — what that says of a whole run.
-/

namespace ComponentSpec

namespace CommandLine

variable {disk made written : Disk} {stdin text out : String} {output : Option String}
  {e : DiskError} {o printed : Outcome}

/-! ### Invocations -/

/-- The output that a command is asked for. -/
def Command.output? : Command → Option String
  | .build _ output _ => output
  | .combine _ output _ => output
  | .check _ => none

/-- **The command that prints** what a command writes. -/
def Command.withoutOutput : Command → Command
  | .build file _ raw => .build file none raw
  | .combine sources _ platform => .combine sources none platform
  | .check files => .check files

def Invocation.output? (invocation : Invocation) : Option String :=
  invocation.command.bind Command.output?

def Invocation.withoutOutput (invocation : Invocation) : Invocation :=
  { invocation with command := invocation.command.map Command.withoutOutput }

/-- What is done for an invocation: the settings are read, and the command is run. -/
def perform (disk : Disk) (stdin : String) (invocation : Invocation) : Outcome :=
  match Settings.load disk invocation.config with
  | .ok settings => runCommand disk stdin invocation.verbose settings invocation.command
  | .error fault =>
    match settingsMessage? fault with
    | some message => failed disk "" ("Invalid config: " ++ message)
    | none => crashed disk "" fault

theorem run_eq_perform {words : List String} {invocation : Invocation}
    (parsed : Invocation.parse words = .ok invocation) :
    run disk stdin words = perform disk stdin invocation := by
  rw [run, parsed]
  rfl

/-! ### Writing a text -/

/-- The directories above a file are made before it is opened. -/
theorem writeFile_cases (disk : Disk) (path text : String) :
    ∃ made, Disk.Keeps ∅ disk made ∧ ((∃ e, writeFile disk path text = .error (e, made)) ∨
      ∃ written, made.write path (Utf8.encode text) = .ok written ∧
        writeFile disk path text = .ok written) := by
  have above : Disk.Keeps ∅ disk (if (Path.head path).isEmpty then (disk, none)
      else disk.makeDirectories (Path.head path)).1 := by
    split
    · exact .refl ∅ disk
    · exact Disk.keeps_makeDirectories disk _
  unfold writeFile
  simp only
  -- whatever has become of the directories, the file comes after them
  generalize (if (Path.head path).isEmpty then (disk, none)
    else disk.makeDirectories (Path.head path)) = outcome at above ⊢
  obtain ⟨made, failure⟩ := outcome
  refine ⟨made, above, ?_⟩
  cases failure with
  | some e => exact .inl ⟨e, rfl⟩
  | none =>
    cases write : made.write path (Utf8.encode text) with
    | error e => exact .inl ⟨e, rfl⟩
    | ok written => exact .inr ⟨written, rfl, rfl⟩

/-- **A text that cannot be written** has changed no file. -/
theorem keeps_of_writeFile_eq_error (h : writeFile disk out text = .error (e, made)) :
    Disk.Keeps ∅ disk made := by
  obtain ⟨made', keeps, ⟨e', failed⟩ | ⟨written, -, wrote⟩⟩ := writeFile_cases disk out text
  · cases h.symm.trans failed
    exact keeps
  · cases h.symm.trans wrote

/-- **A text that is written** stands where its path leads, and no other file has changed. -/
theorem keeps_of_writeFile_eq_ok (h : writeFile disk out text = .ok written) :
    written.read out = .ok (Utf8.encode text) ∧
      ∃ place, written.locate out = .ok place ∧ Disk.Keeps {place} disk written := by
  obtain ⟨made, keeps, ⟨e, failed⟩ | ⟨written', write, wrote⟩⟩ := writeFile_cases disk out text
  · cases h.symm.trans failed
  · cases h.symm.trans wrote
    obtain ⟨place, keeps', leads, -⟩ := Disk.keeps_write write
    exact ⟨Disk.read_of_write write, place, leads, (keeps.mono (Set.empty_subset _)).trans keeps'⟩

/-! ### Commands -/

/-- **Two runs side by side,** one that prints and one that is asked for an output. -/
inductive Delivers (disk : Disk) (output : Option String) (printed : Outcome) : Outcome → Prop where
  /-- They are the same run, which fails, or no output is asked for in either. -/
  | alike (still : printed.disk = disk)
      (reason : printed.ending ≠ .exit 0 ∨ ∀ out, output = some out → out = "") :
      Delivers disk output printed printed
  /-- What one prints the other writes. -/
  | writes {text stderr out : String} {written : Disk} (asked : output = some out)
      (prints : printed = ⟨.exit 0, text, stderr, disk⟩)
      (wrote : writeFile disk out text = .ok written) :
      Delivers disk output printed
        ⟨.exit 0, "", stderr ++ infoLine ("Schema written to " ++ out), written⟩
  /-- What one prints the other cannot write. -/
  | stops {text stderr out : String} {made : Disk} {e : DiskError} (asked : output = some out)
      (prints : printed = ⟨.exit 0, text, stderr, disk⟩)
      (failed : writeFile disk out text = .error (e, made)) :
      Delivers disk output printed (crashed made stderr (.disk e))

theorem delivers_failed (disk : Disk) (output : Option String) (stderr message : String) :
    Delivers disk output (failed disk stderr message) (failed disk stderr message) :=
  .alike rfl (.inl nofun)

theorem delivers_crashed (disk : Disk) (output : Option String) (stderr : String) (fault : Fault) :
    Delivers disk output (crashed disk stderr fault) (crashed disk stderr fault) :=
  .alike rfl (.inl nofun)

theorem delivers_extractionFailed (disk : Disk) (output : Option String) (stderr : String)
    (fault : Fault) : Delivers disk output (extractionFailed disk stderr fault)
      (extractionFailed disk stderr fault) := by
  cases fault with
  | report r => exact delivers_failed disk output stderr _
  | _ => exact delivers_crashed disk output stderr _

/-- **The text is there before the file is opened,** and is the same whether it is printed or
written. -/
theorem delivers_deliver (disk : Disk) (stderr : String) (settings : Settings)
    (output : Option String) (document : Value) :
    Delivers disk output (deliver disk stderr settings none document)
      (deliver disk stderr settings output document) := by
  unfold deliver
  cases indentFault? settings.indent with
  | some fault => exact delivers_crashed disk output stderr fault
  | none =>
    cases output with
    | none => exact .alike rfl (.inr nofun)
    | some out =>
      by_cases named : out = ""
      · subst named
        exact .alike rfl (.inr fun _ h => (Option.some.inj h).symm)
      · have asked : (some out).filter (fun path => !path.isEmpty) = some out := by simp [named]
        simp only [asked, Option.filter_none]
        split
        · next written wrote => exact .writes rfl rfl wrote
        · next e made failed => exact .stops rfl rfl failed

theorem delivers_build (disk : Disk) (stdin : String) (verbose : Bool) (settings : Settings)
    (file : String) (output : Option String) (raw : Bool) :
    Delivers disk output (build disk stdin verbose settings file none raw)
      (build disk stdin verbose settings file output raw) := by
  unfold build
  simp only
  -- the output plays no part before there is a document
  split
  · exact delivers_failed disk output _ _
  · split
    · exact delivers_deliver disk _ settings output _
    · exact delivers_extractionFailed disk output _ _

theorem delivers_combine (disk : Disk) (verbose : Bool) (settings : Settings)
    (sources : List String) (output platform : Option String) :
    Delivers disk output (combine disk verbose settings sources none platform)
      (combine disk verbose settings sources output platform) := by
  unfold combine
  split
  · exact delivers_failed disk output _ _
  · exact delivers_failed disk output _ _
  · simp only
    split
    · exact delivers_deliver disk _ settings output _
    · exact delivers_extractionFailed disk output _ _

/-- A check writes nothing. -/
theorem disk_check (disk : Disk) (verbose : Bool) (files : List String) :
    (check disk verbose files).disk = disk := by
  have go (failures : Bool) (out err : String) :
      (check.go disk verbose files failures out err).disk = disk := by
    -- whatever is said of the first file, the others are looked at on the same disk
    induction files generalizing failures out err with
    | nil => rfl
    | cons file files ih =>
      unfold check.go
      simp only
      split
      · exact ih _ _ _
      · split
        · exact ih _ _ _
        · rfl
  exact go false "" ""

/-- **Every command delivers what it prints.** -/
theorem delivers_perform (disk : Disk) (stdin : String) (invocation : Invocation) :
    Delivers disk invocation.output? (perform disk stdin invocation.withoutOutput)
      (perform disk stdin invocation) := by
  obtain ⟨verbose, config, command⟩ := invocation
  unfold perform
  simp only [Invocation.withoutOutput]
  cases Settings.load disk config with
  | error fault =>
    simp only
    split
    · exact delivers_failed disk _ _ _
    · exact delivers_crashed disk _ _ _
  | ok settings =>
    match command with
    | none => exact .alike rfl (.inr nofun)
    | some (.build file output raw) =>
      exact delivers_build disk stdin verbose settings file output raw
    | some (.combine sources output platform) =>
      exact delivers_combine disk verbose settings sources output platform
    | some (.check files) => exact .alike (disk_check disk verbose files) (.inr nofun)

/-- **A run that fails changes no file.** -/
theorem keeps_of_delivers (h : Delivers disk output printed o)
    (fails : o.ending ≠ .exit 0) : Disk.Keeps ∅ disk o.disk := by
  cases h with
  | alike still => exact still ▸ .refl ∅ _
  | writes => exact absurd rfl fails
  | stops _ _ failed => exact keeps_of_writeFile_eq_error failed

theorem keeps_of_fails (disk : Disk) (stdin : String) (words : List String)
    (fails : (run disk stdin words).ending ≠ .exit 0) :
    Disk.Keeps ∅ disk (run disk stdin words).disk := by
  cases parsed : Invocation.parse words with
  | ok invocation =>
    rw [run_eq_perform parsed] at fails ⊢
    exact keeps_of_delivers (delivers_perform disk stdin invocation) fails
  | error refusal =>
    rw [run, parsed]
    cases refusal <;> exact .refl ∅ disk

/-! ### Whole runs -/

/-- **An invocation that delivers something can be spelled without its output.** -/
theorem parse_spelling_withoutOutput {words : List String} {invocation : Invocation}
    (parsed : Invocation.parse words = .ok invocation) (asked : invocation.output? = some out)
    (succeeds : (run disk stdin words).ending = .exit 0) :
    Invocation.parse invocation.withoutOutput.spelling = .ok invocation.withoutOutput := by
  obtain ⟨given, read⟩ := of_parse parsed
  have given' : invocation.withoutOutput.config ≠ some "--" := given
  apply Invocation.parse_spelling given'
  intro command same
  obtain ⟨verbose, config, command⟩ := invocation
  match command with
  | none => cases same
  | some (.check files) => cases asked
  | some (.build file output raw) =>
    cases same
    exact nofun
  | some (.combine sources output platform) =>
    cases same
    obtain ⟨name, rest, leftover, read⟩ := read _ rfl
    refine ⟨?_, nofun, platform_ne_of_parse read⟩
    -- without sources there would be no files, and the run would fail
    rintro rfl
    rw [run_eq_perform parsed, perform] at succeeds
    split at succeeds
    · simp [runCommand, combine, collectAll, failed] at succeeds
    · split at succeeds <;> simp [failed, crashed] at succeeds

/-- **A run that fails writes nothing, and one that succeeds writes what it would print.** A run
that does not end with status 0 changes no file. If an invocation is asked for an output and its run
ends with status 0, it prints nothing and changes no file but the one that the path of the output
leads to, which holds, as UTF-8, the text that the invocation prints without the output. That
invocation can be spelled, and its run, however it is spelled, ends with status 0 as well and leaves
the disk as it is. -/
theorem run_writes_what_it_prints (disk : Disk) (stdin : String) (words : List String) :
    ((run disk stdin words).ending ≠ .exit 0 → Disk.Keeps ∅ disk (run disk stdin words).disk) ∧
    (∀ invocation out, Invocation.parse words = .ok invocation → invocation.output? = some out →
      out ≠ "" → (run disk stdin words).ending = .exit 0 →
      (run disk stdin words).stdout = "" ∧
      (∃ place, (run disk stdin words).disk.locate out = .ok place ∧
        Disk.Keeps {place} disk (run disk stdin words).disk) ∧
      (∃ words', Invocation.parse words' = .ok invocation.withoutOutput) ∧
      ∃ text stderr, (run disk stdin words).disk.read out = .ok (Utf8.encode text) ∧
        ∀ words', Invocation.parse words' = .ok invocation.withoutOutput →
          run disk stdin words' = ⟨.exit 0, text, stderr, disk⟩) := by
  constructor
  · exact keeps_of_fails disk stdin words
  intro invocation out parsed asked named succeeds
  have spelled := parse_spelling_withoutOutput parsed asked succeeds
  -- the run with the output beside the one without
  have delivers := delivers_perform disk stdin invocation
  rw [run_eq_perform parsed] at succeeds ⊢
  generalize printing : perform disk stdin invocation.withoutOutput = printed at delivers
  generalize perform disk stdin invocation = o at delivers succeeds ⊢
  cases delivers with
  | alike _ reason =>
    -- but the run succeeds, and an output is asked for
    rcases reason with fails | unasked
    · exact absurd succeeds fails
    · exact absurd (unasked out asked) named
  | @writes text stderr out' written asked' prints wrote =>
    cases asked.symm.trans asked'
    obtain ⟨reads, place, leads, keeps⟩ := keeps_of_writeFile_eq_ok wrote
    refine ⟨rfl, ⟨place, leads, keeps⟩, ⟨_, spelled⟩, text, stderr, reads, ?_⟩
    intro words' parsed'
    rw [run_eq_perform parsed', printing, prints]
  | stops => cases succeeds

end CommandLine

namespace Sample

open CommandLine

/-- A schema can be written in the place of the file that it is built from. -/
theorem build_bench_good : (build bench "" false Settings.standard "good.json" (some "good.json")
    false).ending = .exit 0 := by
  have held : bench.holds "good.json" = true := by with_unfolding_all rfl
  have built : (buildSchema bench "good.json" none).outcome = .ok plainDial := builds_bench_good
  obtain ⟨document, wrapped⟩ : ∃ document, plainDial.toRecord.wrap .null = .ok document :=
    ⟨_, by with_unfolding_all rfl⟩
  have written (text : String) : writeFile bench "good.json" text =
      .ok { bench with root := bench.root.put ["good.json"] (.file (Utf8.encode text)) } := by
    with_unfolding_all rfl
  have fits : indentFault? Settings.standard.indent = none := by decide
  have asked : (some "good.json").filter (fun path => !path.isEmpty) = some "good.json" := by decide
  have named : ("good.json" = "-") = False := by decide
  rw [build]
  simp only [held, named, decide_false, Bool.not_false, Bool.not_true, Bool.and_false,
    Bool.false_eq_true, if_false, built, Checked.ok_bind, wrapped, deliver, fits, asked, written]

theorem build_bench_lost :
    build bench "" false Settings.standard "lost.json" (some "good.json") false =
      failed bench "" "File 'lost.json' not found." := by
  have lost : bench.holds "lost.json" = false := by with_unfolding_all rfl
  have named : ("lost.json" = "-") = False := by decide
  rw [build]
  simp only [lost, named, decide_false, Bool.not_false, Bool.and_self, if_true]
  rfl

end Sample

namespace CommandLine

open Sample in
/-- A schema takes the place of the file that it is built from; a file that is not found changes
nothing. -/
theorem run_writes_what_it_prints_bench :
    (∃ text stderr, run bench "" ["build", "good.json"] = ⟨.exit 0, text, stderr, bench⟩ ∧
      (run bench "" ["build", "good.json", "-o", "good.json"]).disk.read "good.json" =
        .ok (Utf8.encode text)) ∧
    Disk.Keeps ∅ bench (run bench "" ["build", "lost.json", "-o", "good.json"]).disk := by
  constructor
  · have parsed : Invocation.parse ["build", "good.json", "-o", "good.json"] =
        .ok ⟨false, none, some (.build "good.json" (some "good.json") false)⟩ := by decide +kernel
    have parsed' : Invocation.parse ["build", "good.json"] =
        .ok ⟨false, none, some (.build "good.json" none false)⟩ := by decide +kernel
    have succeeds : (run bench "" ["build", "good.json", "-o", "good.json"]).ending = .exit 0 := by
      rw [run_eq_perform parsed, perform, settings_bench]
      exact build_bench_good
    obtain ⟨-, -, -, text, stderr, reads, prints⟩ :=
      (run_writes_what_it_prints bench "" ["build", "good.json", "-o", "good.json"]).2
        _ "good.json" parsed rfl (by decide) succeeds
    exact ⟨text, stderr, prints _ parsed', reads⟩
  · have parsed : Invocation.parse ["build", "lost.json", "-o", "good.json"] =
        .ok ⟨false, none, some (.build "lost.json" (some "good.json") false)⟩ := by decide +kernel
    have fails : (run bench "" ["build", "lost.json", "-o", "good.json"]).ending ≠ .exit 0 := by
      rw [run_eq_perform parsed, perform, settings_bench]
      simp only [runCommand, build_bench_lost]
      intro zero
      cases zero
    exact (run_writes_what_it_prints bench "" ["build", "lost.json", "-o", "good.json"]).1 fails

end CommandLine

end ComponentSpec
