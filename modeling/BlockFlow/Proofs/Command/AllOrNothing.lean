import BlockFlow.Command.Run
import BlockFlow.Proofs.Command.FileSystem
import BlockFlow.Proofs.Lowering.Assembled
import BlockFlow.Proofs.Wire.Length

/-! # Runs are all or nothing

    A run of the command line either succeeds as a whole or leaves no trace
    but its message. What that means is said in terms of the library, not of
    the command line:

    - `Compiles` says which program an invocation asks for: the settings, the
      input and what it stands for, and the program of that.
    - `Hindered` lists what can keep a run from it, with the message. Each
      reason includes that what comes before it went well, so none of them
      holds where there is a program (`Compiles.not_hindered`).
    - `Failed` and `Succeeded` say what a run leaves behind.

    Reading leaves the files alone, so everything before the bytes are stored
    is a function of what the paths give when they are read
    (`Invocation.programFrom`). Where in a text its problem is, as the messages
    say, is left to a `Locator`, of which nothing is assumed.

    - **Main statement** (`run_all_or_nothing`): every run of an accepted
      command line fails or succeeds in this sense. -/

namespace BlockFlow.Command

open Wire (Bytes)

/-! ## Section 1: The program of an invocation -/

/-- The text in the file that a path leads to. -/
def readText (look : String → Except FileError Bytes) (path : String) : Except FileError String :=
  (look path).bind textOfBytes

/-- The settings that a run uses: those in the file for them, or the
    defaults. -/
inductive Configures (look : String → Except FileError Bytes) : Option String → Settings → Prop
  | defaults : Configures look none {}
  | file {path text : String} {settings : Settings} (htext : readText look path = .ok text)
      (hsettings : Settings.ofText text = .ok settings) : Configures look (some path) settings

/-- The JSON value in the file that a path leads to. -/
inductive Holds (look : String → Except FileError Bytes) (path : String) : Json → Prop
  | intro {text : String} {document : Json} (htext : readText look path = .ok text)
      (hdocument : Json.parse text = .ok document) : Holds look path document

/-- What an input stands for. -/
def Task.source (document : Json) : Task → Except FlowError Source
  | .program _ => (Flow.ofJson document).map .mouse
  | .action name _ => (Flow.ofJson document).map (.action name)
  | .project _ => (Project.ofJson document).map .project

/-- **The program of an invocation**, by what the paths give when they are
    read. -/
inductive Compiles (look : String → Except FileError Bytes) (invocation : Invocation) :
    Program → Prop
  | intro {settings : Settings} {document : Json} {source : Source} {p : Program}
      (hsettings : Configures look invocation.options.config settings)
      (hdocument : Holds look invocation.task.path document)
      (hsource : invocation.task.source document = .ok source)
      (hcompile : source.compile settings = .ok p) : Compiles look invocation p

/-- **Reasons for no program**, with their messages. -/
inductive Hindered (locator : Locator) (look : String → Except FileError Bytes)
    (invocation : Invocation) : String → Prop
  | unreadableSettings {path : String} {error : FileError}
      (hconfig : invocation.options.config = some path)
      (htext : readText look path = .error error) :
      Hindered locator look invocation (SettingsError.unreadable path error.message).message
  | invalidSettings {path text : String} {error : SettingsError}
      (hconfig : invocation.options.config = some path)
      (htext : readText look path = .ok text) (hsettings : Settings.ofText text = .error error) :
      Hindered locator look invocation (error.message ++ (locator.settings text).message)
  | unreadableInput {settings : Settings} {error : FileError}
      (hsettings : Configures look invocation.options.config settings)
      (htext : readText look invocation.task.path = .error error) :
      Hindered locator look invocation
        ("Failed to read '" ++ invocation.task.path ++ "': " ++ error.message)
  | invalidInput {settings : Settings} {text : String} {problem : Json.Problem}
      (hsettings : Configures look invocation.options.config settings)
      (htext : readText look invocation.task.path = .ok text)
      (hdocument : Json.parse text = .error problem) :
      Hindered locator look invocation
        ("Invalid JSON in '" ++ invocation.task.path ++ "': " ++ problem.message ++
          (locator.input text).message)
  | flowError {settings : Settings} {document : Json} {error : FlowError}
      (hsettings : Configures look invocation.options.config settings)
      (hdocument : Holds look invocation.task.path document)
      (hsource : invocation.task.source document = .error error) :
      Hindered locator look invocation error.message
  | compileError {settings : Settings} {document : Json} {source : Source} {error : CompileError}
      (hsettings : Configures look invocation.options.config settings)
      (hdocument : Holds look invocation.task.path document)
      (hsource : invocation.task.source document = .ok source)
      (hcompile : source.compile settings = .error error) :
      Hindered locator look invocation error.message

/-- A result that is the program of an invocation, or the reason for none. -/
def Explains (locator : Locator) (look : String → Except FileError Bytes)
    (invocation : Invocation) : Except String Program → Prop
  | .ok p => Compiles look invocation p
  | .error message => Hindered locator look invocation message

/-! ## Section 2: What is read -/

section reading

variable (locator : Locator) (look : String → Except FileError Bytes) (invocation : Invocation)

/-- The settings of an invocation, by what the paths give. -/
def Invocation.settingsFrom : Except String Settings :=
  match invocation.options.config with
  | none => .ok {}
  | some path => settings locator path (look path)

/-- The program of an invocation, by what the paths give. -/
def Invocation.programFrom : Except String Program := do
  let settings ← invocation.settingsFrom locator look
  let document ← input locator invocation.task.path (look invocation.task.path)
  compile invocation.task settings document

theorem Invocation.settings_eq (path : String) :
    settings locator path (look path) =
      match readText look path with
      | .error error => .error (SettingsError.unreadable path error.message).message
      | .ok text => (Settings.ofText text).mapError fun error =>
          error.message ++ (locator.settings text).message := by
  rw [settings, ← readText]
  cases readText look path <;> rfl

theorem Invocation.input_eq (path : String) :
    input locator path (look path) =
      match readText look path with
      | .error error => .error ("Failed to read '" ++ path ++ "': " ++ error.message)
      | .ok text => (Json.parse text).mapError fun problem =>
          "Invalid JSON in '" ++ path ++ "': " ++ problem.message ++
            (locator.input text).message := by
  rw [input, ← readText]
  cases readText look path <;> rfl

theorem Invocation.compile_eq (task : Task) (settings : Settings) (document : Json) :
    compile task settings document =
      match task.source document with
      | .error error => .error error.message
      | .ok source => (source.compile settings).mapError CompileError.message := by
  unfold compile Task.source
  cases task with
  | program _ => cases Flow.ofJson document <;> rfl
  | action name _ => cases Flow.ofJson document <;> rfl
  | project _ => cases Project.ofJson document <;> rfl

/-- The settings are those that the options ask for, or there is a reason for
    none. -/
theorem Invocation.settingsFrom_cases :
    (∃ settings, invocation.settingsFrom locator look = .ok settings ∧
      Configures look invocation.options.config settings) ∨
    ∃ message, invocation.settingsFrom locator look = .error message ∧
      Hindered locator look invocation message := by
  unfold settingsFrom
  match hconfig : invocation.options.config with
  | none => exact .inl ⟨{}, rfl, .defaults⟩
  | some path =>
    simp only [settings_eq]
    cases htext : readText look path with
    | error error => exact .inr ⟨_, rfl, .unreadableSettings hconfig htext⟩
    | ok text =>
      show (∃ settings, (Settings.ofText text).mapError _ = _ ∧ _) ∨
        ∃ message, (Settings.ofText text).mapError _ = _ ∧ _
      cases hsettings : Settings.ofText text with
      | error error => exact .inr ⟨_, rfl, .invalidSettings hconfig htext hsettings⟩
      | ok settings => exact .inl ⟨settings, rfl, .file htext hsettings⟩

/-- What is computed from the files is the program, or there is a reason for
    none. -/
theorem Invocation.explains_programFrom :
    Explains locator look invocation (invocation.programFrom locator look) := by
  unfold programFrom
  rcases invocation.settingsFrom_cases locator look with
    ⟨settings, hsettingsFrom, hsettings⟩ | ⟨message, hsettingsFrom, hhindered⟩
  · rw [hsettingsFrom, input_eq]
    cases htext : readText look invocation.task.path with
    | error error => exact .unreadableInput hsettings htext
    | ok text =>
      show Explains locator look invocation ((Json.parse text).mapError _ >>= compile _ settings)
      cases hparse : Json.parse text with
      | error problem => exact .invalidInput hsettings htext hparse
      | ok document =>
        have hdocument := Holds.intro htext hparse
        show Explains locator look invocation (compile invocation.task settings document)
        rw [compile_eq]
        cases hsource : invocation.task.source document with
        | error error => exact .flowError hsettings hdocument hsource
        | ok source =>
          show Explains locator look invocation ((source.compile settings).mapError _)
          cases hcompile : source.compile settings with
          | error error => exact .compileError hsettings hdocument hsource hcompile
          | ok p => exact .intro hsettings hdocument hsource hcompile
  · rw [hsettingsFrom]
    exact hhindered

variable {locator : Locator} {look : String → Except FileError Bytes} {invocation : Invocation}

theorem Configures.settingsFrom_eq {settings : Settings}
    (h : Configures look invocation.options.config settings) :
    invocation.settingsFrom locator look = .ok settings := by
  unfold Invocation.settingsFrom
  match invocation.options.config, h with
  | none, .defaults => rfl
  | some path, .file htext hsettings =>
    simp only [Invocation.settings_eq, htext, hsettings]
    rfl

theorem Holds.input_eq {path : String} {document : Json} (h : Holds look path document) :
    Invocation.input locator path (look path) = .ok document := by
  obtain ⟨htext, hdocument⟩ := h
  simp only [Invocation.input_eq, htext, hdocument]
  rfl

/-- What is computed is the program that is asked for. -/
theorem Compiles.programFrom_eq {p : Program} (h : Compiles look invocation p) :
    invocation.programFrom locator look = .ok p := by
  obtain ⟨hsettings, hdocument, hsource, hcompile⟩ := h
  unfold Invocation.programFrom
  rw [hsettings.settingsFrom_eq, hdocument.input_eq]
  show Invocation.compile _ _ _ = _
  simp only [Invocation.compile_eq, hsource, hcompile]
  rfl

theorem Hindered.programFrom_eq {message : String} (h : Hindered locator look invocation message) :
    invocation.programFrom locator look = .error message := by
  unfold Invocation.programFrom
  cases h with
  | unreadableSettings hconfig htext =>
    simp only [Invocation.settingsFrom, hconfig, Invocation.settings_eq, htext]
    rfl
  | invalidSettings hconfig htext hsettings =>
    simp only [Invocation.settingsFrom, hconfig, Invocation.settings_eq, htext, hsettings]
    rfl
  | unreadableInput hsettings htext =>
    simp only [hsettings.settingsFrom_eq, Invocation.input_eq, htext]
    rfl
  | invalidInput hsettings htext hdocument =>
    simp only [hsettings.settingsFrom_eq, Invocation.input_eq, htext, hdocument]
    rfl
  | flowError hsettings hdocument hsource =>
    rw [hsettings.settingsFrom_eq, hdocument.input_eq]
    show Invocation.compile _ _ _ = _
    simp only [Invocation.compile_eq, hsource]
  | compileError hsettings hdocument hsource hcompile =>
    rw [hsettings.settingsFrom_eq, hdocument.input_eq]
    show Invocation.compile _ _ _ = _
    simp only [Invocation.compile_eq, hsource, hcompile]
    rfl

/-- Where there is a program, there is no reason for none. -/
theorem Compiles.not_hindered {p : Program} {message : String} (h : Compiles look invocation p) :
    ¬ Hindered locator look invocation message := by
  intro hhindered
  have hok : invocation.programFrom locator look = .ok p := h.programFrom_eq
  rw [hhindered.programFrom_eq] at hok
  cases hok

end reading

/-! ## Section 3: What a run leaves behind -/

variable {State File : Type}

/-- The standard output for a program. -/
inductive Shows (options : Options) (p : Program) : String → Prop
  | outline (houtline : options.outline = true) :
      Shows options p ("=== PROGRAM TREE ===\n\n" ++ p.outline)
  | indented (houtline : options.outline = false) (hindented : options.indented = true) :
      Shows options p (p.toIndentedText ++ "\n")
  | compact (houtline : options.outline = false) (hindented : options.indented = false) :
      Shows options p (p.toText ++ "\n")

/-- The files behind a run that succeeds: only the file for the bytes changes,
    if there is one, and it holds the bytes of the program. -/
inductive Stores (system : FileSystem State File) (s s' : State) (p : Program) :
    Option String → Prop
  | nothing (hsame : system.contents s' = system.contents s) : Stores system s s' p none
  | bytes {path : String} {file : File} (hfile : system.file? s path = some file)
      (hbytes : system.contents s' file = some p.toBytes)
      (hothers : ∀ other, other ≠ file → system.contents s' other = system.contents s other) :
      Stores system s s' p (some path)

/-- **Reasons for failure**: no program, or no place for its bytes. -/
inductive Stopped (system : FileSystem State File) (locator : Locator) (s : State)
    (invocation : Invocation) : String → Prop
  | hindered {message : String} (h : Hindered locator (system.look s) invocation message) :
      Stopped system locator s invocation message
  | unwritable {p : Program} {path : String} {error : FileError}
      (hprogram : Compiles (system.look s) invocation p)
      (hpath : invocation.options.bytesFile = some path)
      (hwrite : (system.access.write path p.toBytes s).1 = .error error) :
      Stopped system locator s invocation ("Failed to write '" ++ path ++ "': " ++ error.message)

/-- **Failure**: nothing on the standard output, no file changed, and the
    reason on the standard error output. -/
structure Failed (system : FileSystem State File) (locator : Locator) (s : State)
    (invocation : Invocation) (outcome : Outcome) (s' : State) : Prop where
  status : outcome.status = 1
  out : outcome.out = ""
  contents : system.contents s' = system.contents s
  err : ∃ message, Stopped system locator s invocation message ∧ outcome.err = message ++ "\n"

/-- **Success**: one program, on the standard output and in the file for its
    bytes. The program is decoded from that file; the size of a file is a
    number of sixty-four bits. -/
structure Succeeded (system : FileSystem State File) (s : State) (invocation : Invocation)
    (p : Program) (outcome : Outcome) (s' : State) : Prop where
  status : outcome.status = 0
  err : outcome.err = ""
  program : Compiles (system.look s) invocation p
  out : Shows invocation.options p outcome.out
  files : Stores system s s' p invocation.options.bytesFile
  decode {path : String} {file : File} {bytes : Bytes}
    (hpath : invocation.options.bytesFile = some path) (hfile : system.file? s path = some file)
    (hbytes : system.contents s' file = some bytes) (hsize : bytes.length < 2 ^ 64) :
    Program.decode bytes = .ok p

/-! ## Section 4: Running -/

variable (system : FileSystem State File) (locator : Locator) (invocation : Invocation)

theorem Invocation.shows_report (options : Options) (p : Program) :
    Shows options p (report options p) := by
  unfold report
  by_cases houtline : options.outline = true
  · rw [if_pos houtline]
    exact .outline houtline
  · rw [if_neg houtline]
    have houtline : options.outline = false := Bool.eq_false_of_not_eq_true houtline
    by_cases hindented : options.indented = true
    · rw [if_pos hindented]
      exact .indented houtline hindented
    · rw [if_neg hindented]
      exact .compact houtline (Bool.eq_false_of_not_eq_true hindented)

section steps

variable {α β : Type} {x : ExceptT String (StateM State) α}
  {f : α → ExceptT String (StateM State) β} {s s' : State}

theorem run_bind_eq :
    (x >>= f).run s =
      match x.run s with
      | (r, s') => (ExceptT.bindCont f r : StateM State (Except String β)) s' := rfl

/-- The first of two steps gives a value, and the second goes on with it. -/
theorem run_bind_of_ok {a : α} (hx : x.run s = (.ok a, s')) :
    (x >>= f).run s = (f a).run s' := by
  rw [run_bind_eq, hx]
  rfl

/-- The first of two steps fails, and the second is not taken. -/
theorem run_bind_of_error {message : String} (hx : x.run s = (.error message, s')) :
    (x >>= f).run s = (.error message, s') := by
  rw [run_bind_eq, hx]
  rfl

end steps

theorem run_liftM {α : Type} (x : StateM State α) (s : State) :
    (liftM x : ExceptT String (StateM State) α).run s = (.ok (x s).1, (x s).2) := rfl

theorem run_read (path : String) (s : State) :
    (liftM (system.access.read path) : ExceptT String (StateM State) _).run s =
      (.ok (system.look s path), s) := by
  rw [run_liftM, system.read_eq]

/-- The program is made from what the paths give, and making it changes
    nothing. -/
theorem Invocation.run_program (s : State) :
    (invocation.program system.access locator).run s =
      (invocation.programFrom locator (system.look s), s) := by
  have hrest (settings : Settings) :
      (do
        let contents ← liftM (system.access.read invocation.task.path)
        let document ← program.liftExcept (input locator invocation.task.path contents)
        program.liftExcept (compile invocation.task settings document) :
          ExceptT String (StateM State) Program).run s =
        (input locator invocation.task.path (system.look s invocation.task.path) >>=
          compile invocation.task settings, s) := by
    rw [run_bind_of_ok (run_read system invocation.task.path s)]
    cases input locator invocation.task.path (system.look s invocation.task.path) <;> rfl
  unfold program programFrom settingsFrom
  cases invocation.options.config with
  | none => exact hrest {}
  | some path =>
    show (liftM (system.access.read path) >>= _ : ExceptT String (StateM State) Program).run s = _
    rw [run_bind_of_ok (run_read system path s)]
    show _ = (settings locator path (system.look s path) >>= fun settings => _, s)
    cases settings locator path (system.look s path) with
    | error message => rfl
    | ok settings => exact hrest settings

/-- Storing the bytes either succeeds and changes one file, or fails and
    changes none. -/
theorem Invocation.run_store (options : Options) (p : Program) (s : State) :
    (∃ s', (store system.access options p).run s = (.ok (), s') ∧
      Stores system s s' p options.bytesFile) ∨
    ∃ path error s', options.bytesFile = some path ∧
      (system.access.write path p.toBytes s).1 = .error error ∧
      (store system.access options p).run s =
        (.error ("Failed to write '" ++ path ++ "': " ++ error.message), s') ∧
      system.contents s' = system.contents s := by
  unfold store
  match options.bytesFile with
  | none => exact .inl ⟨s, rfl, .nothing rfl⟩
  | some path =>
    rw [run_bind_of_ok (run_liftM (system.access.write path p.toBytes) s)]
    cases hwrite : (system.access.write path p.toBytes s).1 with
    | ok _ =>
      obtain ⟨file, hfile, hbytes, hothers⟩ := system.contents_of_write hwrite
      exact .inl ⟨_, rfl, .bytes hfile hbytes hothers⟩
    | error error =>
      exact .inr ⟨path, error, _, rfl, hwrite, rfl, system.contents_of_failed_write hwrite⟩

/-- The program is decoded from the file for its bytes. -/
theorem Stores.decode {s s' : State} {p : Program} {bytesFile : Option String}
    (h : Stores system s s' p bytesFile) {path : String} {file : File} {bytes : Bytes}
    (hpath : bytesFile = some path) (hfile : system.file? s path = some file)
    (hbytes : system.contents s' file = some bytes) (hsize : bytes.length < 2 ^ 64) :
    Program.decode bytes = .ok p := by
  cases h with
  | nothing => cases hpath
  | bytes hfile' hbytes' _ =>
    cases hpath
    obtain rfl := Option.some.inj (hfile.symm.trans hfile')
    obtain rfl := Option.some.inj (hbytes.symm.trans hbytes')
    exact Program.decode_toBytes hsize

theorem Invocation.run_eq (s : State) :
    invocation.run system.access locator s =
      match (invocation.program system.access locator >>= fun p => do
          store system.access invocation.options p
          return report invocation.options p : ExceptT String (StateM State) String).run s with
      | (result, s') => (.ofResult result, s') := rfl

/-- A run of an invocation fails or succeeds as a whole. -/
theorem Invocation.failed_or_succeeded (s : State) :
    ∃ outcome s', invocation.run system.access locator s = (outcome, s') ∧
      (Failed system locator s invocation outcome s' ∨
        ∃ p, Succeeded system s invocation p outcome s') := by
  have hprogram := invocation.run_program system locator s
  have hexplains := invocation.explains_programFrom locator (system.look s)
  rw [run_eq]
  match invocation.programFrom locator (system.look s), hexplains, hprogram with
  | .error message, hhindered, hprogram =>
    rw [run_bind_of_error hprogram]
    exact ⟨_, _, rfl, .inl ⟨rfl, rfl, rfl, message, .hindered hhindered, rfl⟩⟩
  | .ok p, hcompiles, hprogram =>
    rw [run_bind_of_ok hprogram]
    rcases run_store system invocation.options p s with
      ⟨s', hstore, hstores⟩ | ⟨path, error, s', hpath, hwrite, hstore, hsame⟩
    · rw [run_bind_of_ok hstore]
      exact ⟨_, _, rfl, .inr ⟨p, rfl, rfl, hcompiles, shows_report _ p, hstores, hstores.decode⟩⟩
    · rw [run_bind_of_error hstore]
      exact ⟨_, _, rfl, .inl ⟨rfl, rfl, hsame, _, .unwritable hcompiles hpath hwrite, rfl⟩⟩

/-- **All or nothing.** Every run of a command line that is accepted either
    fails, with the status 1, nothing on the standard output, all files as they
    were and one of the reasons, or succeeds, with the status 0 and one
    program: that of the files it has read, which is on the standard output in
    the form that is asked for, and whose bytes are in the one file that has
    changed, if one is given. -/
theorem run_all_or_nothing {words : List String} {invocation : Invocation}
    (h : parse words = some invocation) (s : State) :
    ∃ outcome s', run system.access words locator s = (some outcome, s') ∧
      (Failed system locator s invocation outcome s' ∨
        ∃ p, Succeeded system s invocation p outcome s') := by
  obtain ⟨outcome, s', hrun, hcases⟩ := invocation.failed_or_succeeded system locator s
  refine ⟨outcome, s', ?_, hcases⟩
  rw [run, h]
  show (match invocation.run system.access locator s with
    | (outcome, s') => (some outcome, s')) = _
  rw [hrun]

/-- A run that succeeds and overwrites a file, to which it is led by a path that
    is not the plain one. -/
theorem run_all_or_nothing_overwriting :
    let folder : Folder := ⟨[("flow.json", [0x5B, 0x5D]), ("old.bin", [1, 2, 3])]⟩
    let words := ["program", "flow.json", "--postcard", "./old.bin"]
    let invocation : Invocation := ⟨.program "flow.json", { bytesFile := some "./old.bin" }⟩
    parse words = some invocation ∧
    ∃ outcome folder' p, run Folder.access words {} folder = (some outcome, folder') ∧
      Succeeded Folder.fileSystem folder invocation p outcome folder' := by
  intro folder words invocation
  have hparse : parse words = some invocation := by decide
  refine ⟨hparse, ?_⟩
  obtain ⟨outcome, folder', hrun, hfailed | ⟨p, hsucceeded⟩⟩ :=
    run_all_or_nothing Folder.fileSystem {} hparse folder
  · exfalso
    -- The flow is empty, so it has a program, and its file can be written.
    have htext : readText (Folder.fileSystem.look folder) "flow.json" = .ok "[]" := rfl
    have hdocument : Json.parse "[]" = .ok (.list []) := rfl
    have hsource : invocation.task.source (.list []) = .ok (.mouse []) := rfl
    have hcompile : (Source.mouse []).compile {} = .ok _ := rfl
    have hprogram : Compiles (Folder.fileSystem.look folder) invocation _ :=
      .intro .defaults (.intro htext hdocument) hsource hcompile
    obtain ⟨message, hstopped, -⟩ := hfailed.err
    cases hstopped with
    | hindered hhindered => exact hprogram.not_hindered hhindered
    | unwritable _ hpath hwrite =>
      cases hpath
      cases hwrite
  · exact ⟨outcome, folder', p, hrun, hsucceeded⟩

/-- The message about a text that is cut short says where it ends. -/
example :
    let folder : Folder := ⟨[("flow.json", "[1,".toUTF8.data.toList)]⟩
    let message := "Invalid JSON in 'flow.json': EOF while parsing a value at line 1 column 3\n"
    (run Folder.access ["program", "flow.json"] { input := fun _ => ⟨1, 3⟩ } folder).1 =
      some ⟨1, "", message⟩ := by
  decide +kernel

end BlockFlow.Command
