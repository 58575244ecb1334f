import BlockFlow.Command.Files
import BlockFlow.Entries
import BlockFlow.Text.Split

/-! # Folders

  A place for files that is a plain value: a folder, seen from inside, with
  the directories above it.

  A path is walked piece by piece, from the folder or, if it begins with a
  slash, from the root.

  - An empty piece and a single dot stay where they are.
  - Two dots go up; there is nothing above the root.
  - Any other piece names a file. There are no directories besides those
    above the folder, so the walk ends there.

  Every file has one *plain path*, which goes up as far as it must and then
  names the file. Files are kept by that path, so that two paths which lead to
  the same file find the same bytes.
-/

namespace BlockFlow.Command

open Wire (Bytes)

/-- A folder with its files, and those in the directories above it. -/
structure Folder where
  /-- The files by their plain paths. -/
  files : Entries Bytes
deriving Inhabited

namespace Folder

/-! ## Directories and spots -/

/-- A directory that a path can lead through. -/
inductive Directory where
  /-- So many levels above the folder. -/
  | above (levels : Nat)
  /-- The root. -/
  | root
deriving DecidableEq, Repr

/-- The directory one level up. -/
def Directory.parent : Directory → Directory
  | .above levels => .above (levels + 1)
  | .root => .root

/-- The plain path of a file in a directory. -/
def Directory.plainPath (name : List Char) : Directory → String
  | .above levels => String.ofList ((List.replicate levels ['.', '.', '/']).flatten ++ name)
  | .root => String.ofList ('/' :: name)

/-- What a piece of a path stands for. -/
inductive Spot where
  /-- A directory. -/
  | directory (directory : Directory)
  /-- A file, by its plain path; it need not be there. -/
  | file (path : String)
deriving DecidableEq, Repr

/-- How many bytes a name may have. -/
def maxName : Nat := 255

/-- How many bytes a path may have. -/
def maxPath : Nat := 4095

/-- What a piece of a path stands for in a directory. -/
def spot (directory : Directory) (piece : List Char) : Except FileError Spot :=
  if piece = [] ∨ piece = ['.'] then .ok (.directory directory)
  else if piece = ['.', '.'] then .ok (.directory directory.parent)
  else if maxName < (String.ofList piece).utf8ByteSize then .error .nameTooLong
  else .ok (.file (directory.plainPath piece))

/-! ## Walks -/

/-- Where a path starts, and its pieces. -/
def route (path : String) : Except FileError (Directory × List (List Char)) :=
  if path.isEmpty then .error .missing
  else if maxPath < path.utf8ByteSize then .error .nameTooLong
  else
    let (first, more) := Text.segments '/' path.toList
    -- Only a path that begins with a slash has an empty first piece.
    .ok (if first.isEmpty then .root else .above 0, first :: more)

/-- Walks through pieces of which each must be a directory. -/
def walk (folder : Folder) (directory : Directory) :
    List (List Char) → Except FileError Directory
  | [] => .ok directory
  | piece :: pieces => do
    match ← spot directory piece with
    | .directory next => walk folder next pieces
    | .file path =>
      if (Entries.get? folder.files path).isSome then throw .notDirectory else throw .missing

/-- The bytes of a file. -/
def read (folder : Folder) (path : String) : Except FileError Bytes := do
  let (start, pieces) ← route path
  let directory ← folder.walk start pieces.dropLast
  match ← spot directory (pieces.getLastD []) with
  | .directory _ => throw .isDirectory
  | .file path =>
    match Entries.get? folder.files path with
    | some bytes => return bytes
    | none => throw .missing

/-- The folder with bytes put into a file. -/
def write (folder : Folder) (path : String) (bytes : Bytes) : Except FileError Folder := do
  let (start, pieces) ← route path
  match pieces.reverse.dropWhile List.isEmpty with
  | [] => throw .isDirectory
  | name :: before =>
    let directory ← folder.walk start before.reverse
    -- A name with a slash behind it is that of a directory, whatever it is.
    if (pieces.getLastD []).isEmpty then throw .isDirectory
    match ← spot directory name with
    | .directory _ => throw .isDirectory
    | .file path => return ⟨Entries.put folder.files path bytes⟩

/-- Access to the files of a folder. -/
def access : FileAccess (StateM Folder) where
  read path := do
    let folder ← get
    return folder.read path
  write path bytes := do
    let folder ← get
    match folder.write path bytes with
    | .ok changed =>
      set changed
      return .ok ()
    | .error error => return .error error

end Folder

end BlockFlow.Command
