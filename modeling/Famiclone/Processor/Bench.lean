import Famiclone.Processor.FlatMemory

/-!
# A test bench

Flat memory with a script: at given cycles interrupt lines change and transfers are requested. The
bench keeps a record of all accesses and of the bytes that were handed over.
-/
namespace Famiclone

structure Access where
  writes : Bool
  address : UInt16
  value : UInt8
  deriving DecidableEq, Repr

/-- Flat memory under a script. -/
structure Bench where
  memory : FlatMemory
  /-- Levels of the interrupt lines, each from the given cycle on. -/
  script : List (Nat × Lines)
  /-- Transfers, each requested at the given cycle. -/
  transfers : List (Nat × Transfer)
  /-- Bytes handed over by sample transfers. -/
  delivered : Array UInt8
  /-- Accesses made, the last one last. -/
  record : Array Access

namespace Bench

/-- The lines after all changes that are due. -/
def due (cycles : Nat) : Lines → List (Nat × Lines) → Lines × List (Nat × Lines)
  | lines, [] => (lines, [])
  | lines, (cycle, next) :: rest =>
    if cycle ≤ cycles then due cycles next rest else (lines, (cycle, next) :: rest)

/-- The end of an access: bring the lines up to date and note it down. -/
def finish (b : Bench) (access : Access) : Bench :=
  let (lines, script) := due b.memory.cycles b.memory.lines b.script
  { b with memory := { b.memory with lines }, script, record := b.record.push access }

end Bench

instance : ProcessorBus Bench where
  read b address :=
    let (value, memory) := ProcessorBus.read b.memory address
    (value, { b with memory }.finish ⟨false, address, value⟩)
  write b address value :=
    { b with memory := ProcessorBus.write b.memory address value }.finish ⟨true, address, value⟩
  lines b := b.memory.lines
  takeTransfer b :=
    match b.transfers with
    | [] => (none, b)
    | (cycle, transfer) :: rest =>
      if cycle ≤ b.memory.cycles then (some transfer, { b with transfers := rest }) else (none, b)
  deliver b value := { b with delivered := b.delivered.push value }
  transferLimit b := b.transfers.length

end Famiclone
