import BlockFlow.Command.Files
import BlockFlow.Command.Invocation
import BlockFlow.Json.Parser
import BlockFlow.Lowering.Entry
import BlockFlow.Program.Codec
import BlockFlow.Program.Outline
import BlockFlow.Settings.Reader

/-! # Running an invocation

  The settings come first, then the input, then the program. Only when there
  is a program is anything written: first its bytes, if a file for them is
  given, then the text on the standard output. The first failure ends the run
  with its message, and nothing has been written then.

  With the problem of a JSON text the message says where in the text it is.
  That place is taken from a `Locator`, since the readers do not keep track of
  it.
-/

namespace BlockFlow.Command

open Wire (Bytes)

/-- What a run leaves behind, files apart. -/
structure Outcome where
  /-- The exit status. -/
  status : Nat
  /-- The standard output. -/
  out : String
  /-- The standard error output. -/
  err : String
deriving DecidableEq, Repr

/-- The outcome of a run that succeeds with a text or fails with a message. -/
def Outcome.ofResult : Except String String → Outcome
  | .ok out => ⟨0, out, ""⟩
  | .error message => ⟨1, "", message ++ "\n"⟩

/-- The text that bytes hold. -/
def textOfBytes (bytes : Bytes) : Except FileError String :=
  match String.fromUTF8? ⟨bytes.toArray⟩ with
  | some text => .ok text
  | none => .error .notText

/-- Where the first problem of a text is, for each way to read it. -/
structure Locator where
  /-- The place in a text that does not hold settings. -/
  settings : String → Json.Position := fun _ => {}
  /-- The place in a text that does not hold a JSON value. -/
  input : String → Json.Position := fun _ => {}

namespace Invocation

/-- The settings, from what the file for them holds, if one is given. -/
def settings (locator : Locator) (path : String) (contents : Except FileError Bytes) :
    Except String Settings := do
  let text ← (contents.bind textOfBytes).mapError fun error =>
    (SettingsError.unreadable path error.message).message
  (Settings.ofText text).mapError fun error =>
    error.message ++ (locator.settings text).message

/-- The JSON value that the input file holds. -/
def input (locator : Locator) (path : String) (contents : Except FileError Bytes) :
    Except String Json := do
  let text ← (contents.bind textOfBytes).mapError fun error =>
    "Failed to read '" ++ path ++ "': " ++ error.message
  (Json.parse text).mapError fun problem =>
    "Invalid JSON in '" ++ path ++ "': " ++ problem.message ++ (locator.input text).message

/-- Compiles what an input holds. -/
def compile (task : Task) (settings : Settings) (document : Json) : Except String Program := do
  match task with
  | .program _ =>
    let flow ← (Flow.ofJson document).mapError FlowError.message
    (Program.ofFlow settings flow).mapError CompileError.message
  | .action name _ =>
    let flow ← (Flow.ofJson document).mapError FlowError.message
    (Program.ofAction settings name flow).mapError CompileError.message
  | .project _ =>
    let project ← (Project.ofJson document).mapError FlowError.message
    (Program.ofProject settings project).mapError CompileError.message

/-- What is written on the standard output. -/
def report (options : Options) (p : Program) : String :=
  if options.outline then "=== PROGRAM TREE ===\n\n" ++ p.outline
  else if options.indented then p.toIndentedText ++ "\n"
  else p.toText ++ "\n"

variable {m : Type → Type} [Monad m]

/-- The program of an invocation, from the files it names. -/
def program (files : FileAccess m) (locator : Locator) (invocation : Invocation) :
    ExceptT String m Program := do
  let settings ← match invocation.options.config with
    | none => pure {}
    | some path =>
      let contents ← liftM (files.read path)
      liftExcept (settings locator path contents)
  let contents ← liftM (files.read invocation.task.path)
  let document ← liftExcept (input locator invocation.task.path contents)
  liftExcept (compile invocation.task settings document)
where
  /-- A result that needs no file. -/
  liftExcept {α : Type} (result : Except String α) : ExceptT String m α :=
    ExceptT.mk (pure result)

/-- Puts the bytes of a program into the file for them, if one is given. -/
def store (files : FileAccess m) (options : Options) (p : Program) : ExceptT String m Unit :=
  match options.bytesFile with
  | none => pure ()
  | some path => do
    let written ← liftM (files.write path p.toBytes)
    ExceptT.mk (pure (written.mapError fun error =>
      "Failed to write '" ++ path ++ "': " ++ error.message))

/-- Runs an invocation. -/
def run (files : FileAccess m) (locator : Locator) (invocation : Invocation) : m Outcome := do
  let result ← (do
    let p ← invocation.program files locator
    store files invocation.options p
    return report invocation.options p : ExceptT String m String).run
  return .ofResult result

end Invocation

/-- Runs a command line; a wrong use of it has the status 2. Without a locator
    messages do not say where in a text a problem is. -/
def run {m : Type → Type} [Monad m] (files : FileAccess m) (words : List String)
    (locator : Locator := {}) : m (Option Outcome) :=
  match parse words with
  | none => return none
  | some invocation => do
    let outcome ← invocation.run files locator
    return some outcome

end BlockFlow.Command
