import BlockFlow.Command.Folder
import BlockFlow.Proofs.Lowering.Lowered

/-! # File systems

    `FileAccess` says how files are reached, not what they are. A
    **file system** is access to files that have contents and keep to these
    rules:

    - Reading gives the contents of the file that a path leads to, and changes
      nothing.
    - A write that succeeds stores all bytes in the file that the path leads
      to, and leaves the other files alone.
    - A write that fails leaves all files alone.

    Two paths may lead to one file, so a file is told apart from its paths.
    The folders are a file system (`Folder.fileSystem`). -/

namespace BlockFlow.Command

open Wire (Bytes)

/-! ## Section 1: The rules -/

/-- **File systems**: access to files that are in a state, with what it does
    to their contents. -/
structure FileSystem (State File : Type) where
  /-- How the files are reached. -/
  access : FileAccess (StateM State)
  /-- The file that a path leads to; it need not be there. -/
  file? : State → String → Option File
  /-- The contents of a file, if it is there. -/
  contents : State → File → Option Bytes
  /-- Reading changes nothing. -/
  read_state (path : String) (s : State) : (access.read path s).2 = s
  /-- What is read is what the file holds. -/
  contents_of_read {path : String} {s : State} {bytes : Bytes}
    (h : (access.read path s).1 = .ok bytes) :
    ∃ file, file? s path = some file ∧ contents s file = some bytes
  /-- What is written is what the file holds, and no other file changes. -/
  contents_of_write {path : String} {bytes : Bytes} {s : State}
    (h : (access.write path bytes s).1 = .ok ()) :
    ∃ file, file? s path = some file ∧ contents (access.write path bytes s).2 file = some bytes ∧
      ∀ other, other ≠ file → contents (access.write path bytes s).2 other = contents s other
  /-- A write that fails changes no file. -/
  contents_of_failed_write {path : String} {bytes : Bytes} {s : State} {error : FileError}
    (h : (access.write path bytes s).1 = .error error) :
    contents (access.write path bytes s).2 = contents s

/-- What a path gives when it is read. -/
def FileSystem.look {State File : Type} (system : FileSystem State File) (s : State)
    (path : String) : Except FileError Bytes :=
  (system.access.read path s).1

theorem FileSystem.read_eq {State File : Type} (system : FileSystem State File) (path : String)
    (s : State) : system.access.read path s = (system.look s path, s) :=
  Prod.ext rfl (system.read_state path s)

/-! ## Section 2: Folders -/

namespace Folder

/-- Where a path leads. -/
def locate (folder : Folder) (path : String) : Except FileError Spot := do
  let (start, pieces) ← route path
  let directory ← folder.walk start pieces.dropLast
  spot directory (pieces.getLastD [])

/-- The plain path of the file that a path leads to. -/
def file? (folder : Folder) (path : String) : Option String :=
  match folder.locate path with
  | .ok (.file plain) => some plain
  | _ => none

theorem file?_eq_some {folder : Folder} {path plain : String}
    (h : folder.locate path = .ok (.file plain)) : folder.file? path = some plain := by
  rw [file?, h]

theorem locate_eq {folder : Folder} {path : String} {start directory : Directory}
    {pieces : List (List Char)} (hroute : route path = .ok (start, pieces))
    (hwalk : folder.walk start pieces.dropLast = .ok directory) :
    folder.locate path = spot directory (pieces.getLastD []) := by
  rw [locate, hroute]
  show (folder.walk start pieces.dropLast >>= fun directory => spot directory _) = _
  rw [hwalk]
  rfl

/-- Reading finds the file that the path leads to. -/
theorem exists_of_read {folder : Folder} {path : String} {bytes : Bytes}
    (h : folder.read path = .ok bytes) :
    ∃ plain, folder.locate path = .ok (.file plain) ∧
      Entries.get? folder.files plain = some bytes := by
  obtain ⟨⟨start, pieces⟩, hroute, h⟩ := exists_of_bind_eq_ok h
  obtain ⟨directory, hwalk, h⟩ := exists_of_bind_eq_ok h
  obtain ⟨place, hspot, h⟩ := exists_of_bind_eq_ok h
  have hlocate := (locate_eq hroute hwalk).trans hspot
  match place, h with
  | .file plain, h =>
    refine ⟨plain, hlocate, ?_⟩
    cases hget : Entries.get? folder.files plain with
    | none => simp [hget] at h
    | some found =>
      simp only [hget] at h
      cases h
      rfl

/-- If the last piece of a path is not empty, it is what the search for a name
    from the end finds. -/
theorem dropWhile_isEmpty_reverse {pieces : List (List Char)}
    (h : ¬ (pieces.getLastD []).isEmpty) :
    pieces.reverse.dropWhile List.isEmpty = pieces.getLastD [] :: pieces.dropLast.reverse := by
  rcases pieces.eq_nil_or_concat with rfl | ⟨before, last, rfl⟩
  · exact absurd rfl h
  · have hlast : last.isEmpty = false := by simpa using h
    simp [hlast]

/-- Writing puts the bytes into the file that the path leads to. -/
theorem exists_of_write {folder changed : Folder} {path : String} {bytes : Bytes}
    (h : folder.write path bytes = .ok changed) :
    ∃ plain, folder.locate path = .ok (.file plain) ∧
      changed = ⟨Entries.put folder.files plain bytes⟩ := by
  obtain ⟨⟨start, pieces⟩, hroute, h⟩ := exists_of_bind_eq_ok h
  by_cases hlast : (pieces.getLastD []).isEmpty
  · -- A path that ends in a slash is never written to.
    exfalso
    match hpieces : pieces.reverse.dropWhile List.isEmpty with
    | [] => simp [hpieces] at h
    | name :: before =>
      simp only [hpieces] at h
      obtain ⟨directory, -, h⟩ := exists_of_bind_eq_ok h
      rw [if_pos hlast] at h
      cases h
  · simp only [dropWhile_isEmpty_reverse hlast, List.reverse_reverse] at h
    obtain ⟨directory, hwalk, h⟩ := exists_of_bind_eq_ok h
    rw [if_neg hlast] at h
    obtain ⟨place, hspot, h⟩ := exists_of_bind_eq_ok h
    have hlocate := (locate_eq hroute hwalk).trans hspot
    match place, h with
    | .file plain, h =>
      cases h
      exact ⟨plain, hlocate, rfl⟩

theorem access_write (folder : Folder) (path : String) (bytes : Bytes) :
    access.write path bytes folder =
      match folder.write path bytes with
      | .ok changed => (.ok (), changed)
      | .error error => (.error error, folder) := by
  show (match folder.write path bytes with
      | .ok changed => _
      | .error error => _ : StateM Folder (Except FileError Unit)) folder = _
  cases folder.write path bytes <;> rfl

/-- **Folders are file systems**, their files told apart by plain paths. -/
def fileSystem : FileSystem Folder String where
  access := access
  file? := file?
  contents folder := Entries.get? folder.files
  read_state _ _ := rfl
  contents_of_read h := by
    obtain ⟨plain, hlocate, hget⟩ := exists_of_read h
    exact ⟨plain, file?_eq_some hlocate, hget⟩
  contents_of_write := by
    intro path bytes folder h
    cases hwrite : folder.write path bytes with
    | error error => simp [access_write, hwrite] at h
    | ok changed =>
      obtain ⟨plain, hlocate, rfl⟩ := exists_of_write hwrite
      refine ⟨plain, file?_eq_some hlocate, ?_, fun other hother => ?_⟩
      · simp only [access_write, hwrite, Entries.get?_put_self]
      · simp only [access_write, hwrite, Entries.get?_put_ne _ _ hother]
  contents_of_failed_write := by
    intro path bytes folder error h
    cases hwrite : folder.write path bytes with
    | error _ => simp only [access_write, hwrite]
    | ok changed => simp [access_write, hwrite] at h

end Folder

end BlockFlow.Command
