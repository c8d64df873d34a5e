import Famiclone.Hex
import Famiclone.Processor.Execute

/-!
# Steps

A processor runs in steps: one instruction, or the entry into an interrupt handler, or one idle
cycle when it has stopped. Power-on and reset run a sequence of seven cycles.
-/
namespace Famiclone

/-- A strict processor met an opcode outside the documented set. -/
structure IllegalOpcode where
  opcode : UInt8
  address : UInt16
  deriving DecidableEq, Repr

def IllegalOpcode.message (e : IllegalOpcode) : String :=
  "illegal opcode $" ++ Hex.paddedUpper 2 e.opcode.toNat ++ " at $" ++
    Hex.paddedUpper 4 e.address.toNat

namespace Exec

variable {β : Type} [ProcessorBus β]

def interrupt : Exec β Unit := do
  let _ ← readAtPc
  let _ ← readAtPc
  enterHandler Status.pushedByInterrupt

/-- A stack cycle of the reset sequence: the push is made with the write line held high. -/
def resetPush : Exec β Unit := do
  let _ ← readAtStack
  mapRegisters fun r => { r with sp := r.sp - 1 }

/-- Forget what is pending, and run the reset sequence. -/
def reset : Exec β Unit := do
  modify fun m =>
    { m with
      cpu := { m.cpu with
        jammed := false
        requested := .none
        nmiLatched := false
        nmiPolled := false
        irqSampled := false
        irqPolled := false
        edges := .none } }
  let _ ← readAtPc
  let _ ← readAtPc
  resetPush
  resetPush
  resetPush
  mapRegisters Registers.disableInterrupts
  let pc ← readWord resetVector
  mapRegisters fun r => { r with pc }

/-- Start from cleared registers and run the reset sequence. Strictness is kept. -/
def powerOn : Exec β Unit := do
  modify fun m =>
    { m with
      cpu := { Processor.initial with
        strict := m.cpu.strict
        registers := { Registers.initial with sp := 0 } } }
  reset

/-- Fetch and execute one instruction; a strict processor puts an unofficial one back. -/
def instruction : Exec β (Except IllegalOpcode Unit) := do
  let address := (← registers).pc
  let opcode ← fetch
  if (← get).cpu.strict ∧ ¬ Instruction.isOfficial opcode then
    mapRegisters fun r => { r with pc := address }
    return .error ⟨opcode, address⟩
  execute (Instruction.decode opcode)
  return .ok ()

/-- One step. It answers with the cycles that it took; an idle step counts as one. -/
def step : Exec β (Except IllegalOpcode Nat) := do
  let before := (← get).cpu
  if before.jammed then
    let _ ← read 0xFFFF
    return .ok 1
  else if before.nmiPolled || before.irqPolled then
    interrupt
    return .ok ((← get).cpu.cycles - before.cycles)
  else
    match ← instruction with
    | .error e => return .error e
    | .ok () => return .ok ((← get).cpu.cycles - before.cycles)

end Exec

end Famiclone
