import BlockFlow.Wire.Basic

/-! # Files

  The command line reaches files through `FileAccess`, which stands for any
  place that files can be in.
-/

namespace BlockFlow.Command

open Wire (Bytes)

/-- Why a file cannot be read or written. -/
inductive FileError where
  /-- There is no such file, or no directory for it. -/
  | missing
  /-- A directory stands where a file goes. -/
  | isDirectory
  /-- A file stands where a directory goes. -/
  | notDirectory
  /-- The path, or a name in it, has too many bytes. -/
  | nameTooLong
  /-- The file does not hold UTF-8 text. -/
  | notText
  /-- Any other reason. -/
  | other (reason : String)
deriving DecidableEq

/-- The wording of an error. -/
def FileError.message : FileError → String
  | .missing => "No such file or directory (os error 2)"
  | .isDirectory => "Is a directory (os error 21)"
  | .notDirectory => "Not a directory (os error 20)"
  | .nameTooLong => "File name too long (os error 36)"
  | .notText => "stream did not contain valid UTF-8"
  | .other reason => reason

/-- How files are read and written. A write stores all bytes, or fails and
    changes nothing. -/
structure FileAccess (m : Type → Type) where
  /-- The bytes of a file. -/
  read : String → m (Except FileError Bytes)
  /-- Puts bytes into a file. -/
  write : String → Bytes → m (Except FileError Unit)

end BlockFlow.Command
