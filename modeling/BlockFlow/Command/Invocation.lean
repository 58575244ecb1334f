/-! # Invocations

  The command line: a command word with its values, and options before or
  behind the command word.

  - `--config F`, `--postcard F` take a value, also as `--config=F`;
    `--pretty` and `--outline` take none.
  - Each option may come once before the command word and once behind it; the
    one behind wins.
  - `--` ends the options. Before it, a word that begins with a hyphen is an
    option, unless it is a lone hyphen.
  - A path may not be empty, the name of an action may.

  The words are taken in one after another, so parsing is a fold.
-/

namespace BlockFlow.Command

/-- What is to be compiled, and from which file. -/
inductive Task where
  /-- The program of one mouse. -/
  | program (path : String)
  /-- An action of a given name. -/
  | action (name path : String)
  /-- A project. -/
  | project (path : String)
deriving DecidableEq, Repr

/-- The file that holds what is to be compiled. -/
def Task.path : Task → String
  | .program path => path
  | .action _ path => path
  | .project path => path

/-- The options of an invocation. -/
structure Options where
  /-- The file with the settings. -/
  config : Option String := none
  /-- The file that takes the program as bytes. -/
  bytesFile : Option String := none
  /-- Whether JSON is written with indentation. -/
  indented : Bool := false
  /-- Whether an outline is written in place of JSON. -/
  outline : Bool := false
deriving DecidableEq, Repr

/-- What a run of the program is asked to do. -/
structure Invocation where
  /-- What to compile. -/
  task : Task
  /-- How. -/
  options : Options
deriving DecidableEq, Repr

/-! ## Options -/

/-- An option that takes a value. -/
inductive ValueOption where
  /-- The file with the settings. -/
  | config
  /-- The file that takes the bytes. -/
  | bytesFile
deriving DecidableEq, Repr

namespace Options

/-- Gives an option its value, unless it has one or the value is empty. -/
def setValue (options : Options) (value : String) : ValueOption → Option Options
  | .config =>
    if options.config.isSome || value.isEmpty then none
    else some { options with config := some value }
  | .bytesFile =>
    if options.bytesFile.isSome || value.isEmpty then none
    else some { options with bytesFile := some value }

/-- Asks for indentation, unless that was done. -/
def setIndented (options : Options) : Option Options :=
  if options.indented then none else some { options with indented := true }

/-- Asks for an outline, unless that was done. -/
def setOutline (options : Options) : Option Options :=
  if options.outline then none else some { options with outline := true }

/-- Options from two places, of which the second wins. -/
def merge (outer inner : Options) : Options where
  config := inner.config <|> outer.config
  bytesFile := inner.bytesFile <|> outer.bytesFile
  indented := outer.indented || inner.indented
  outline := outer.outline || inner.outline

end Options

/-! ## Words -/

/-- A command word. -/
inductive Verb where
  /-- Compiles a program. -/
  | program
  /-- Compiles an action. -/
  | action
  /-- Compiles a project. -/
  | project
deriving DecidableEq, Repr

/-- The command of a word. -/
def Verb.ofWord? (word : String) : Option Verb :=
  if word = "program" then some .program
  else if word = "action" then some .action
  else if word = "project" then some .project
  else none

/-- How many values a command takes. -/
def Verb.arity : Verb → Nat
  | .program => 1
  | .action => 2
  | .project => 1

/-- The words taken in so far. -/
structure Scan where
  /-- The options before the command word. -/
  outer : Options := {}
  /-- The command word. -/
  verb : Option Verb := none
  /-- The options behind the command word. -/
  inner : Options := {}
  /-- The values behind the command word. -/
  values : List String := []
  /-- Whether the options have been ended. -/
  ended : Bool := false
  /-- The option whose value is due. -/
  pending : Option ValueOption := none

namespace Scan

/-- Whether a word looks like an option. -/
def isOption (word : String) : Bool := word.toList.head? == some '-' && word != "-"

/-- Changes the options of the place that the scan has reached. -/
def onOptions (scan : Scan) (change : Options → Option Options) : Option Scan :=
  match scan.verb with
  | none => (change scan.outer).map fun outer => { scan with outer }
  | some _ => (change scan.inner).map fun inner => { scan with inner }

/-- A value for an option. -/
def giveValue (scan : Scan) (option : ValueOption) (value : String) : Option Scan :=
  ({ scan with pending := none } : Scan).onOptions fun options => options.setValue value option

/-- A long option, the two hyphens left away. -/
def takeOption (scan : Scan) (word : List Char) : Option Scan :=
  let name := String.ofList (word.takeWhile (· != '='))
  match word.dropWhile (· != '=') with
  | [] =>
    if name = "config" then some { scan with pending := some .config }
    else if name = "postcard" then some { scan with pending := some .bytesFile }
    else if name = "pretty" then scan.onOptions Options.setIndented
    else if name = "outline" then scan.onOptions Options.setOutline
    else none
  | _ :: value =>
    if name = "config" then scan.giveValue .config (String.ofList value)
    else if name = "postcard" then scan.giveValue .bytesFile (String.ofList value)
    else none

/-- A word that is neither an option nor the value of one. -/
def takeValue (scan : Scan) (word : String) : Option Scan :=
  match scan.verb with
  | none => if scan.ended then none else (Verb.ofWord? word).map fun verb => { scan with verb }
  | some verb =>
    if scan.values.length < verb.arity then some { scan with values := scan.values ++ [word] }
    else none

/-- Takes in one word. -/
def step (scan : Scan) (word : String) : Option Scan :=
  match scan.pending with
  -- A value that is due may not look like an option itself.
  | some option => if isOption word then none else scan.giveValue option word
  | none =>
    if !scan.ended && isOption word then
      match word.toList with
      | ['-', '-'] => some { scan with ended := true }
      | '-' :: '-' :: long => scan.takeOption long
      | _ => none
    else scan.takeValue word

/-- The task of a command and its values. -/
def task? (verb : Verb) (values : List String) : Option Task :=
  match verb, values with
  | .program, [path] => some (.program path)
  | .action, [name, path] => some (.action name path)
  | .project, [path] => some (.project path)
  | _, _ => none

/-- The invocation that all words make up. -/
def finish (scan : Scan) : Option Invocation := do
  guard scan.pending.isNone
  let verb ← scan.verb
  let task ← task? verb scan.values
  guard !task.path.isEmpty
  return ⟨task, scan.outer.merge scan.inner⟩

end Scan

/-- The invocation of a command line; none if it is used wrongly. -/
def parse (words : List String) : Option Invocation := do
  let scan ← words.foldlM Scan.step {}
  scan.finish

end BlockFlow.Command
