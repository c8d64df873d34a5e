import Famiclone.Settings.Text

/-!
# Storage

A place for the settings and for saved work RAM. Saved memory is found again by the identifier of
its cartridge.
-/
namespace Famiclone

/-- Why a storage does not do what it is asked. -/
inductive StorageError where
  /-- What is stored is not a text of settings. -/
  | unreadable (fault : Json.Fault)
  | medium (reason : String)
  deriving DecidableEq, Repr

/-- A place for settings and saved memory. What changes it says whether it has done its work, and
what the storage is then; a failure may leave traces as well. -/
class Storage (σ : Type) where
  readSettings : σ → Except StorageError (Option Settings)
  writeSettings : σ → Settings → Except StorageError Unit × σ
  deleteSettings : σ → Except StorageError Unit × σ
  /-- Fill a memory from what is saved under an identifier, and tell whether anything is. -/
  load : {size : Nat} → σ → (id : String) → Vector UInt8 size →
    Except StorageError (Bool × Vector UInt8 size)
  writeRam : σ → (id : String) → Array UInt8 → Except StorageError Unit × σ
  deleteRam : σ → (id : String) → Except StorageError Unit × σ
  deleteAllRam : σ → Except StorageError Unit × σ

namespace Storage

variable {size : Nat}

/-- Copy a number of bytes of a block over the start of a memory. -/
def copyFront (memory : Vector UInt8 size) (bytes : Array UInt8) (count : Nat) : Vector UInt8 size :=
  .ofFn fun place => if place.val < count then bytes.getD place.val 0 else memory.get place

/-- With as many bytes as there are of both, the rest of the memory stays. -/
theorem getElem?_copyFront (memory : Vector UInt8 size) (bytes : Array UInt8) (place : Nat) :
    (copyFront memory bytes (min bytes.size size)).toArray[place]? =
      if place < min bytes.size size then bytes[place]? else memory.toArray[place]? := by
  unfold copyFront
  rw [Vector.toArray_ofFn, Array.getElem?_ofFn]
  by_cases inside : place < size
  · have there : memory.toArray[place]? = some (memory.get ⟨place, inside⟩) :=
      Array.getElem?_eq_getElem (memory.size_toArray.symm ▸ inside)
    rw [dif_pos inside, there]
    by_cases both : place < bytes.size
    · have front : place < min bytes.size size := Nat.lt_min.mpr ⟨both, inside⟩
      simp [front, both]
    · have behind : ¬ place < min bytes.size size := fun front => both (Nat.lt_min.mp front).1
      simp [behind]
  · have behind : ¬ place < min bytes.size size := fun front => inside (Nat.lt_min.mp front).2
    rw [dif_neg inside, if_neg behind]
    exact (Array.getElem?_eq_none (memory.size_toArray.symm ▸ Nat.not_lt.mp inside)).symm

end Storage

/-- Blocks of bytes under keys. -/
abbrev Blobs (κ : Type) := List (κ × Array UInt8)

namespace Blobs

variable {κ : Type} [DecidableEq κ]

def get? (b : Blobs κ) (key : κ) : Option (Array UInt8) := (b.find? fun e => e.1 = key).map (·.2)

def erase (b : Blobs κ) (key : κ) : Blobs κ := b.filter fun e => e.1 ≠ key

/-- Put a block under a key, in place of the one that is there. -/
def put (b : Blobs κ) (key : κ) (bytes : Array UInt8) : Blobs κ := (key, bytes) :: b.erase key

@[simp] theorem get?_erase (b : Blobs κ) (key k : κ) :
    (b.erase key).get? k = if key = k then none else b.get? k := by
  induction b with
  | nil => simp [erase, get?]
  | cons e b ih =>
    simp only [erase, get?, List.filter_cons, List.find?_cons] at ih ⊢
    by_cases hk : e.1 = k
    · subst hk
      by_cases he : e.1 = key
      · simp_all
      · have : key ≠ e.1 := fun h => he h.symm
        simp_all
    · by_cases he : e.1 = key <;> simp_all

@[simp] theorem get?_put (b : Blobs κ) (key k : κ) (bytes : Array UInt8) :
    (b.put key bytes).get? k = if key = k then some bytes else b.get? k := by
  by_cases h : key = k
  · simp [put, get?, h]
  · have := get?_erase b key k
    simp_all [put, get?]

end Blobs

end Famiclone
