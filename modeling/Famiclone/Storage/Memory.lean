import Famiclone.Storage

/-!
# Storage in memory

It lasts as long as the program. Settings are kept as text in one line.
-/
namespace Famiclone

structure MemoryStorage where
  settings : Option String
  ram : Blobs String

namespace MemoryStorage

def empty : MemoryStorage := ⟨none, []⟩

def readSettings (s : MemoryStorage) : Except StorageError (Option Settings) :=
  match s.settings with
  | none => .ok none
  | some text => (Settings.ofBytes text.toUTF8.toList).map some |>.mapError .unreadable

/-- Fill a memory from the block under an identifier. -/
def load {size : Nat} (s : MemoryStorage) (id : String) (memory : Vector UInt8 size) :
    Except StorageError (Bool × Vector UInt8 size) :=
  match s.ram.get? id with
  | some saved => .ok (true, Storage.copyFront memory saved (min saved.size size))
  | none => .ok (false, memory)

end MemoryStorage

instance : Storage MemoryStorage where
  readSettings := MemoryStorage.readSettings
  writeSettings s settings := (.ok (), { s with settings := some settings.compact })
  deleteSettings s := (.ok (), { s with settings := none })
  load := MemoryStorage.load
  writeRam s id bytes := (.ok (), { s with ram := s.ram.put id bytes })
  deleteRam s id := (.ok (), { s with ram := s.ram.erase id })
  deleteAllRam s := (.ok (), { s with ram := [] })

end Famiclone
