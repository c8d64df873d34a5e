import Famiclone.Processor.Bus
import Famiclone.Word

/-!
# Flat memory

A machine that is nothing but 64 KiB of RAM. Programs that test the processor alone run on it.
-/
namespace Famiclone

/-- A machine of RAM alone. -/
structure FlatMemory where
  cells : Vector UInt8 65536
  /-- Lines asserted by the host. -/
  lines : Lines
  /-- Accesses so far. -/
  cycles : Nat

namespace FlatMemory

def blank : FlatMemory where
  cells := Vector.replicate 65536 0
  lines := .none
  cycles := 0

def peek (m : FlatMemory) (address : UInt16) : UInt8 :=
  have := address.toNat_lt
  m.cells[address.toNat]

def poke (m : FlatMemory) (address : UInt16) (value : UInt8) : FlatMemory :=
  have := address.toNat_lt
  { m with cells := m.cells.set address.toNat value }

/-- Copy bytes to consecutive addresses; the last address is followed by the first. -/
def load (m : FlatMemory) (address : UInt16) : List UInt8 → FlatMemory
  | [] => m
  | value :: rest => (m.poke address value).load (address + 1) rest

/-- Memory with a program, and the reset vector pointing at it. -/
def withProgram (origin : UInt16) (program : List UInt8) : FlatMemory :=
  (blank.load origin program).load 0xFFFC [lowByte origin, highByte origin]

@[simp] theorem peek_poke (m : FlatMemory) (address : UInt16) (value : UInt8) :
    (m.poke address value).peek address = value := by
  simp [peek, poke]

theorem peek_poke_of_ne (m : FlatMemory) {a b : UInt16} (value : UInt8) (h : a ≠ b) :
    (m.poke a value).peek b = m.peek b := by
  have : a.toNat ≠ b.toNat := fun e => h (UInt16.toNat_inj.1 e)
  simp [peek, poke, this]

end FlatMemory

instance : ProcessorBus FlatMemory where
  read m address := (m.peek address, { m with cycles := m.cycles + 1 })
  write m address value := { m.poke address value with cycles := m.cycles + 1 }
  lines m := m.lines
  takeTransfer m := (none, m)
  deliver m _ := m
  transferLimit _ := 0

end Famiclone
