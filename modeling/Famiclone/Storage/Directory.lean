import Famiclone.Storage.Path

/-!
# Storage in a directory

Settings are one file, and the memory of each cartridge is a file of its own in a folder. That folder
is made before memory is saved, and deleting all saved memory takes it away. An identifier is
followed as a path; no other folder is made for it, so not every path can be saved under.
-/
namespace Famiclone

structure DirectoryStorage where
  root : Root
  files : Blobs FilePlace
  /-- Whether there is a folder of saved memory. -/
  hasSaves : Bool

def Root.settingsPlace (root : Root) : FilePlace := ⟨root.folder, "config.json"⟩

namespace DirectoryStorage

def empty (root : Root) : DirectoryStorage := ⟨root, [], false⟩

def tree (s : DirectoryStorage) : FilePlace.Tree where
  holds place := (s.files.get? place).isSome
  hasFolder folder := folder <:+ s.root.folder || (s.hasSaves && folder = s.root.saves)

/-- The place of the memory saved under an identifier. -/
def locate (s : DirectoryStorage) (id : String) : Except PathFault FilePlace :=
  FilePlace.locate s.root s.tree id

/-- The files in the directory, under their paths from there. -/
def listing (s : DirectoryStorage) : Blobs String :=
  s.files.filterMap fun e => (e.1.path? s.root).map fun path => (path, e.2)

/-- Put bytes into the file of the settings. -/
def putSettings (s : DirectoryStorage) (bytes : Array UInt8) : DirectoryStorage :=
  { s with files := s.files.put s.root.settingsPlace bytes }

def readSettings (s : DirectoryStorage) : Except StorageError (Option Settings) :=
  match s.files.get? s.root.settingsPlace with
  | none => .ok none
  | some bytes => (Settings.ofBytes bytes.toList).map some |>.mapError .unreadable

/-- Read the file of a cartridge. What is missing is no failure. -/
def readSave (s : DirectoryStorage) (id : String) : Except StorageError (Option (Array UInt8)) :=
  match s.locate id with
  | .ok place => .ok (s.files.get? place)
  | .error .missing => .ok none
  | .error fault => .error fault.toStorageError

/-- Fill a memory from the file of a cartridge. -/
def load {size : Nat} (s : DirectoryStorage) (id : String) (memory : Vector UInt8 size) :
    Except StorageError (Bool × Vector UInt8 size) := do
  let some bytes ← s.readSave id | return (false, memory)
  let count := min bytes.size size
  return (true, Storage.copyFront memory bytes count)

/-- Write the memory of a cartridge. -/
def writeRam (s : DirectoryStorage) (id : String) (bytes : Array UInt8) :
    Except StorageError Unit × DirectoryStorage :=
  let s := { s with hasSaves := true }
  match s.locate id with
  | .ok place => (.ok (), { s with files := s.files.put place bytes })
  | .error fault => (.error fault.toStorageError, s)

/-- Delete the memory of a cartridge. What is missing is no failure. -/
def deleteRam (s : DirectoryStorage) (id : String) : Except StorageError Unit × DirectoryStorage :=
  match s.locate id with
  | .ok place => (.ok (), { s with files := s.files.erase place })
  | .error .missing => (.ok (), s)
  | .error fault => (.error fault.toStorageError, s)

/-- Delete the folder of saved memory with all that is in it. -/
def deleteAllRam (s : DirectoryStorage) : DirectoryStorage :=
  { s with files := s.files.filter fun e => e.1.folder ≠ s.root.saves, hasSaves := false }

end DirectoryStorage

instance : Storage DirectoryStorage where
  readSettings := DirectoryStorage.readSettings
  writeSettings s settings := (.ok (), s.putSettings settings.pretty.toUTF8.toList.toArray)
  deleteSettings s :=
    (.ok (), { s with files := s.files.erase s.root.settingsPlace })
  load := DirectoryStorage.load
  writeRam := DirectoryStorage.writeRam
  deleteRam := DirectoryStorage.deleteRam
  deleteAllRam s := (.ok (), s.deleteAllRam)

end Famiclone
