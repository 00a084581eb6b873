import ComponentSpec.Proofs.Building

/-!
# The file that a report names

A schema is built of a file's content by the assembly, and the only thing that building adds to it
is the name of the file on a report (`buildSchema_files`). A content that holds no tree is reported
in the name of the file as well, unless its reading is given up: an integer with too many digits
ends it with a fault that names no file (`not_named_longSource`). A report is renamed by making it
out anew from its category, its message, its hint and its node. That takes two defaults a second
time: malformed input is given its standing hint where there is none, and the place is looked for in
the node. Neither changes anything, because a hint that was given stays (`Cause.hint_other`) and
because every report has the place of its node to begin with (`filed_of_buildSchema`). So a report
can be renamed any number of times and only its name changes.

* `Report.remade` — a report made out anew in the name of a file;
* `Report.Refiled` — a report and the same one under a file's name;
* `Supplies`, `Holding` — the content of a file, and the tree in it;
* `buildSchema_files` — what is built of a content.
-/

namespace ComponentSpec

open Checked

/-! ### Making a report out anew -/

/-- A cause that is taken from its wording keeps its hint. -/
theorem Cause.hint_other (c : Cause) : (Cause.other c.category c.message c.hint).hint = c.hint := by
  unfold Cause.hint
  cases own : c.ownHint? with
  | some hint => rfl
  | none => cases category : c.category <;> simp [Cause.ownHint?, Cause.category]

namespace Report

/-- The report of a caller's own cause. Its place is looked for in the node. -/
def madeOut (category : Category) (message : String) (hint : Option String) (node : Value)
    (file : Option String) : Except Misfit Report :=
  (Place.ofNode node).map fun place => ⟨.other category message hint, node, place, file⟩

/-- **A report made out anew,** from what the first one says and in the name of a file. -/
def remade (r : Report) (file : Option String) : Except Misfit Report :=
  madeOut r.cause.category r.cause.message r.cause.hint r.node file

/-- **A report that says the same** as another one, be it of another file. -/
structure SaysSame (r r' : Report) : Prop where
  category : r'.cause.category = r.cause.category
  message : r'.cause.message = r.cause.message
  hint : r'.cause.hint = r.cause.hint
  node : r'.node = r.node
  place : r'.place = r.place

/-- **A report under a file's name:** it says what the first one says, and so does the first one
made out anew in the name of that file, down to the text. -/
structure Refiled (r : Report) (file : String) (r' : Report) : Prop extends SaysSame r r' where
  named : r'.file = some file
  anew : ∃ r'', r.remade (some file) = .ok r'' ∧ SaysSame r' r'' ∧ r''.file = some file ∧
    r''.text = r'.text

variable {r r' : Report}

theorem saysSame_withFile (r : Report) (file : Option String) : SaysSame r (r.withFile file) :=
  ⟨rfl, rfl, rfl, rfl, rfl⟩

/-- The text is made of what a report says and of the name of its file. -/
theorem SaysSame.text (same : SaysSame r r') (file : r'.file = r.file) : r'.text = r.text := by
  unfold Report.text
  rw [file, same.message, same.hint, same.place]

theorem withFile_of_file {file : Option String} (named : r.file = file) : r.withFile file = r := by
  rw [withFile, ← named]

/-- A report of a named file begins with the name. -/
theorem text_of_file {file : String} (named : r.file = some file) (nonempty : file ≠ "") :
    ∃ rest, r.text = "\n❌ Schema Error in " ++ Text.hold file ++ rest := by
  have full : file.isEmpty = false := by simpa using nonempty
  have begins : "\n❌ Schema Error in " = "\n❌ Schema Error" ++ " in " := by decide
  unfold Report.text
  rw [named, begins]
  simp only [full, Bool.false_eq_true, if_false, String.append_assoc]
  exact ⟨_, rfl⟩

/-- **Renaming a report is making it out anew,** where the report has the place of its node. -/
theorem refiled_withFile (placed : Place.ofNode r.node = .ok r.place) (file : String) :
    r.Refiled file (r.withFile (some file)) := by
  have anew : r.remade (some file) = .ok
      ⟨.other r.cause.category r.cause.message r.cause.hint, r.node, r.place, some file⟩ := by
    rw [remade, madeOut, placed]
    rfl
  have same : SaysSame (r.withFile (some file))
      ⟨.other r.cause.category r.cause.message r.cause.hint, r.node, r.place, some file⟩ :=
    ⟨rfl, rfl, r.cause.hint_other, rfl, rfl⟩
  exact ⟨saysSame_withFile r _, rfl, _, anew, same, rfl, same.text rfl⟩

end Report

/-! ### The content of a file -/

/-- **What is supplied for a file:** a text in its place, or what the disk holds under its name,
read as a text with its lines unified. -/
inductive Supplies (disk : Disk) (file : String) : Option String → Except Utf8.Flaw String → Prop
  | text (text : String) : Supplies disk file (some text) (.ok text)
  | bytes {bytes : List UInt8} (held : disk.read file = .ok bytes) :
    Supplies disk file none
      ((Utf8.decode bytes).map fun text => String.ofList (Text.unifyLines text.toList))

/-- **A content that holds a tree:** it can be decoded, it is read as the tree, and the root is that
of a syntax tree. -/
def Holding (disk : Disk) (content : Except Utf8.Flaw String) (tree : Value) : Prop :=
  ∃ text, content = .ok text ∧ disk.parse text = .ok tree ∧ tree.hasTagIn ["File", "Program"]

/-- **A content whose reading is given up,** and the fault that ends it. -/
def GivenUp (disk : Disk) (content : Except Utf8.Flaw String) (fault : Fault) : Prop :=
  ∃ text, content = .ok text ∧ disk.GivesUp text fault

variable {disk : Disk} {file : String} {source : Option String}
  {content : Except Utf8.Flaw String}

/-- A file that holds a written document supplies it. -/
theorem Supplies.written (indent : Int) {v : Value}
    (held : disk.read file = .ok (Utf8.encode (Json.write indent v))) (plain : Json.isPlain v) :
    Supplies disk file none (.ok (Json.write indent v)) := by
  obtain ⟨decoded, unified⟩ := Json.decode_write indent plain
  have supplied := Supplies.bytes held
  rwa [decoded, Except.map, unified, String.ofList_toList] at supplied

theorem loadTree_of_supplies (supplied : Supplies disk file source content) :
    loadTree disk file source =
      content.mapError (fun flaw => .inFile (.notUtf8 flaw) file) >>= readTree disk file := by
  cases supplied with
  | text text => rfl
  | @bytes bytes held =>
    simp only [loadTree, Disk.readText, held]
    cases Utf8.decode bytes <;> rfl

theorem loadTree_of_holding (supplied : Supplies disk file source content) {tree : Value}
    (holding : Holding disk content tree) : loadTree disk file source = .ok tree := by
  obtain ⟨text, rfl, parsed, root⟩ := holding
  rw [loadTree_of_supplies supplied]
  simp only [Except.mapError, ok_bind, readTree, parsed, root, if_true]

/-- A content that is given up is not loaded, and no report says so. -/
theorem loadTree_of_givenUp (supplied : Supplies disk file source content) {fault : Fault}
    (givenUp : GivenUp disk content fault) : loadTree disk file source = .error fault := by
  obtain ⟨text, rfl, givesUp⟩ := givenUp
  rw [loadTree_of_supplies supplied]
  exact readTree_of_givesUp givesUp file

/-- **Where a content is read and holds no tree,** a report says so in the name of the file. -/
theorem loadTree_of_not_holding (supplied : Supplies disk file source content)
    (none : ∀ tree, ¬ Holding disk content tree) (read : ∀ fault, ¬ GivenUp disk content fault) :
    ∃ cause, cause.category = .malformed ∧
      loadTree disk file source = .error (.inFile cause file) := by
  rw [loadTree_of_supplies supplied]
  cases content with
  | error flaw => exact ⟨.notUtf8 flaw, rfl, rfl⟩
  | ok text =>
    cases outcome : readTree disk file text with
    | error e =>
      rcases readTree_eq_error outcome with ⟨cause, malformed, rfl⟩ | givesUp
      · exact ⟨cause, malformed, outcome⟩
      · exact absurd ⟨text, rfl, givesUp⟩ (read e)
    | ok tree =>
      obtain ⟨parsed, root⟩ := readTree_eq_ok.1 outcome
      exact absurd ⟨text, rfl, parsed, root⟩ (none tree)

/-! ### Building -/

/-- A tree that the stack takes is assembled, and only a report without a name is changed. -/
theorem buildSchema_of_holding (supplied : Supplies disk file source content) {tree : Value}
    (holding : Holding disk content tree) (taken : disk.system.assembles tree) :
    (buildSchema disk file source).outcome =
      (componentSchema tree).mapError (Fault.locatedIn file) := by
  rw [buildSchema, loadTree_of_holding supplied holding]
  exact if_pos taken

/-- **What is built of a content** is what the assembly makes of the tree in it, and all that
building adds is the name of the file: a report that has none is given it and says what it said
before. What is read and holds no tree is malformed. So every report names the file, and to name it
again changes nothing. Where reading is given up there is no report, and neither is there where the
stack is not deep enough to assemble the tree. -/
theorem buildSchema_files (disk : Disk) (file : String) (source : Option String)
    (content : Except Utf8.Flaw String) (supplied : Supplies disk file source content)
    (named : file ≠ "") :
    (∀ tree, Holding disk content tree → disk.system.assembles tree →
      (∀ s, componentSchema tree = .ok s → (buildSchema disk file source).outcome = .ok s) ∧
      (∀ r, componentSchema tree = .error (.report r) →
        ∃ r', (buildSchema disk file source).outcome = .error (.report r') ∧
          r.Refiled (r.file.getD file) r') ∧
      (∀ e, componentSchema tree = .error e → (∀ r, e ≠ .report r) →
        (buildSchema disk file source).outcome = .error e)) ∧
    (∀ tree, Holding disk content tree → disk.system.assembles tree = false →
      (buildSchema disk file source).outcome = .error .stack) ∧
    (∀ fault, GivenUp disk content fault →
      (buildSchema disk file source).outcome = .error fault ∧ ∀ r, fault ≠ .report r) ∧
    ((∀ tree, ¬ Holding disk content tree) → (∀ fault, ¬ GivenUp disk content fault) →
      ∃ r, (buildSchema disk file source).outcome = .error (.report r) ∧
        r.cause.category = .malformed ∧ r.file = some file) ∧
    (∀ r, (buildSchema disk file source).outcome = .error (.report r) →
      r.file = some file ∧ (∃ rest, r.text = "\n❌ Schema Error in " ++ Text.hold file ++ rest) ∧
        r.withFile (some file) = r ∧ r.Refiled file r) := by
  refine ⟨?_, ?_, ?_, ?_, ?_⟩
  · intro tree holding taken
    rw [buildSchema_of_holding supplied holding taken]
    refine ⟨?_, ?_, ?_⟩
    · intro s assembled
      rw [assembled]
      rfl
    · intro r failed
      have placed := not_not.1 (not_or.1 (unfiled_componentSchema tree _ failed)).2
      rw [failed, Except.mapError, Fault.locatedIn]
      cases before : r.file with
      | none => exact ⟨_, rfl, Report.refiled_withFile placed file⟩
      | some f =>
        refine ⟨r, rfl, ?_⟩
        have refiled := Report.refiled_withFile placed f
        rwa [Report.withFile_of_file before] at refiled
    · intro e failed noReport
      rw [failed, Except.mapError, Fault.locatedIn]
      exact noReport
  · intro tree holding deep
    rw [buildSchema, loadTree_of_holding supplied holding]
    exact schemaOfTree_eq_error.2 (.inl ⟨deep, rfl⟩)
  · intro fault givenUp
    rw [buildSchema, loadTree_of_givenUp supplied givenUp]
    obtain ⟨text, -, givesUp⟩ := givenUp
    refine ⟨rfl, ?_⟩
    rintro r rfl
    cases givesUp
  · intro none read
    obtain ⟨cause, malformed, unread⟩ := loadTree_of_not_holding supplied none read
    rw [buildSchema, unread]
    exact ⟨_, rfl, malformed, rfl⟩
  · intro r failed
    obtain ⟨filed, placed⟩ := filed_of_buildSchema failed
    have refiled := Report.refiled_withFile placed file
    have again : r.withFile (some file) = r := Report.withFile_of_file filed
    rw [again] at refiled
    exact ⟨filed, Report.text_of_file filed named, again, refiled⟩

namespace Sample

/-- A program without a statement. -/
def emptyProgram : Value := node "Program" [("body", .arr [])]

end Sample

open Sample in
/-- A component that is missing is reported in the name of the file, and so is a file that holds no
tree; a schema is left as it is. -/
theorem buildSchema_files_shelf :
    (buildSchema shelf "a.json" none).outcome = .ok plainDial ∧
    (∃ r, (buildSchema shelf "d.json" (some (Json.write 2 emptyProgram))).outcome =
        .error (.report r) ∧ r.file = some "d.json" ∧ r.cause.category = .structural ∧
      r.cause.message = "Could not find component config for native component" ∧
      ∃ r', r.remade (some "d.json") = .ok r' ∧ r'.text = r.text) ∧
    (∃ r, (buildSchema shelf "c.json" none).outcome = .error (.report r) ∧
      r.cause.category = .malformed ∧ r.file = some "c.json") := by
  have plain : Json.isPlain emptyProgram := by with_unfolding_all rfl
  have missing : componentSchema emptyProgram = .error (.bare .noComponent) := by
    have noComponent : Blueprint.locate emptyProgram = .error (.bare .noComponent) := by
      with_unfolding_all rfl
    rw [componentSchema_eq, noComponent]
    rfl
  have empty : Holding shelf (.ok (Json.write 2 emptyProgram)) emptyProgram :=
    ⟨_, rfl, Disk.parse_write 2 plain rfl, rfl⟩
  refine ⟨?_, ?_, ?_⟩
  · have held : shelf.read "a.json" = .ok (Utf8.encode (Json.write 2 plainDialFile)) := by
      with_unfolding_all rfl
    have plain : Json.isPlain plainDialFile := by with_unfolding_all rfl
    obtain ⟨built, -⟩ := buildSchema_files shelf "a.json" none _ (.written 2 held plain)
      (by decide)
    exact (built _ ⟨_, rfl, Disk.parse_write 2 plain rfl, rfl⟩ rfl).1 _
      (componentSchema_plainDial "Dial")
  · obtain ⟨built, -, -, -, named⟩ := buildSchema_files shelf "d.json" _ _ (.text _) (by decide)
    obtain ⟨-, reported, -⟩ := built _ empty rfl
    obtain ⟨r, failed, refiled⟩ := reported _ missing
    obtain ⟨-, -, -, -, -, r', anew, -, -, text⟩ := named r failed
    exact ⟨r, failed, refiled.named, refiled.category, refiled.message, r', anew, text⟩
  · have held : shelf.read "c.json" = .ok (Utf8.encode (Json.write 2 (.arr []))) := by
      with_unfolding_all rfl
    have parsed : shelf.parse (Json.write 2 (.arr [])) = .ok (.arr []) := Disk.parse_write 2 rfl rfl
    obtain ⟨-, -, -, malformed, -⟩ :=
      buildSchema_files shelf "c.json" none _ (.written 2 held rfl) (by decide)
    refine malformed ?_ ?_
    · rintro tree ⟨text, same, read, root⟩
      cases same
      rw [parsed] at read
      cases read
      cases root
    · rintro fault ⟨text, same, givesUp⟩
      cases same
      have unread := Disk.parse_of_givesUp givesUp
      rw [parsed] at unread
      cases unread

open Sample in
/-- **A file is not named for every content that holds no tree:** an integer with one digit too many
ends the building of a schema, and no report says of which file. -/
theorem not_named_longSource : (∀ tree, ¬ Holding shelf (.ok longSource) tree) ∧
    (buildSchema shelf "a.json" (some longSource)).outcome = .error (.longInteger 4301) ∧
    ¬ ∃ r, (buildSchema shelf "a.json" (some longSource)).outcome = .error (.report r) := by
  have givesUp : shelf.GivesUp longSource (.longInteger 4301) := .longInteger rfl parse_longSource
  have failed : (buildSchema shelf "a.json" (some longSource)).outcome =
      .error (.longInteger 4301) := by
    rw [buildSchema, loadTree_of_givenUp (.text longSource) ⟨_, rfl, givesUp⟩]
    rfl
  refine ⟨?_, failed, ?_⟩
  · rintro tree ⟨text, same, read, -⟩
    rw [← Except.ok.inj same, Disk.parse_of_givesUp givesUp] at read
    cases read
  · rintro ⟨r, reported⟩
    rw [failed] at reported
    cases reported

end ComponentSpec
