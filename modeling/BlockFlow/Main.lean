import BlockFlow.Command.Run

/-! # The command line program

  Runs a command line with the files and streams of the operating system.
-/

open BlockFlow BlockFlow.Command

/-- Whether an error code is the given one. Some functions of the system
    report their codes negated. -/
def isCode (code known : UInt32) : Bool := code == known || code == 0 - known

/-- The reason of an error of the operating system. -/
def fileError (error : IO.Error) : FileError :=
  match error with
  | .noFileOrDirectory _ _ _ => .missing
  | .inappropriateType _ code _ =>
    if isCode code 21 then .isDirectory
    else if isCode code 20 then .notDirectory
    else .other error.toString
  | .invalidArgument _ code _ =>
    if isCode code 36 then .nameTooLong else .other error.toString
  | _ => .other error.toString

/-- The files of the operating system. -/
def systemFiles : FileAccess IO where
  read path := do
    try
      let bytes ← IO.FS.readBinFile path
      return .ok bytes.data.toList
    catch error => return .error (fileError error)
  write path bytes := do
    try
      IO.FS.writeBinFile path ⟨bytes.toArray⟩
      return .ok ()
    catch error => return .error (fileError error)

/-- How the program is used. -/
def usage : String :=
  "usage: [--config FILE] [--pretty] [--postcard FILE] [--outline] " ++
  "(program FLOW | action NAME FLOW | project PROJECT)"

/-- Compiles a flow or project as the command line says. -/
def main (words : List String) : IO UInt32 := do
  match ← Command.run systemFiles words with
  | none =>
    IO.eprintln usage
    return 2
  | some outcome =>
    IO.print outcome.out
    IO.eprint outcome.err
    return UInt32.ofNat outcome.status
