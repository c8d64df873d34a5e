import Famiclone.Processor.Decode
import Famiclone.Processor.Operand

/-!
# Execution

What each instruction does after its opcode has been fetched.
-/
namespace Famiclone

/-- Where the program goes on after an edge of the first interrupt line. -/
def nmiVector : UInt16 := 0xFFFA

/-- Where the program goes on after a reset. -/
def resetVector : UInt16 := 0xFFFC

/-- Where the program goes on after any other interrupt, and after `BRK`. -/
def irqVector : UInt16 := 0xFFFE

def displace (pc : UInt16) (offset : UInt8) : UInt16 :=
  if bit offset 7 then pc + word 0xFF offset else pc + offset.toUInt16

namespace Exec

variable {β : Type} [ProcessorBus β]

/-- Choose the vector of an interrupt when its return address has been pushed: a latched edge of the
first line takes over, and is thereby serviced. -/
def takeVector : Exec β UInt16 := modifyGet fun m =>
  if m.cpu.nmiLatched then
    (nmiVector, { m with cpu := { m.cpu with nmiLatched := false, edges := m.cpu.edges.serve } })
  else (irqVector, m)

/-- Push the return state and go on at a vector; `pushed` chooses the status byte. -/
def enterHandler (pushed : Status → Status) : Exec β Unit := do
  pushWord (← registers).pc
  let vector ← takeVector
  push (pushed (← registers).p).toByte
  mapRegisters Registers.disableInterrupts
  let pc ← readWord vector
  mapRegisters fun r => { r with pc }

/-- A relative branch. Where it is taken, an interrupt that the opcode fetch did not see is not seen
by the operand fetch either. -/
def branch (taken : Bool) : Exec β Unit := do
  let offset ← fetch
  if taken then
    modify fun m =>
      { m with cpu := { m.cpu with irqSampled := m.cpu.irqSampled && m.cpu.irqPolled } }
    let _ ← readAtPc
    let pc := (← registers).pc
    let target := displace pc offset
    if highByte pc ≠ highByte target then
      let _ ← read (word (highByte pc) (lowByte target))
    mapRegisters fun r => { r with pc := target }

/-- Store a register masked by the high byte of the base address plus one. Where indexing changed
the page, the stored byte also becomes the high byte of the address. -/
def maskedStore (op : MaskedStoreOp) (mode : Mode) : Exec β Unit := do
  let operand ← resolve mode .writing
  let source := op.source (← registers)
  if op = .tas then
    mapRegisters fun r => { r with sp := source }
  let value := source &&& (highByte operand.base + 1)
  let address :=
    if operand.crosses then word value (lowByte operand.address) else operand.address
  write address value

/-- Read a byte, write it back as it was, and write it changed. -/
def modifyMemory (op : ModifyOp) (mode : Mode) : Exec β Unit := do
  let operand ← resolve mode .writing
  let value ← read operand.address
  write operand.address value
  let (result, r) := op.apply value (← registers)
  mapRegisters fun _ => r
  write operand.address result

def execute : Instruction → Exec β Unit
  | .read op mode => do
    let operand ← resolve mode .reading
    let value ← read operand.address
    mapRegisters fun r => op.apply value r
  | .store op mode => do
    let operand ← resolve mode .writing
    write operand.address (op.value (← registers))
  | .maskedStore op mode => maskedStore op mode
  | .modify op mode => modifyMemory op mode
  | .accumulator op => do
    let _ ← readAtPc
    mapRegisters fun r =>
      let (result, r) := op.apply r.a r
      { r with a := result }
  | .branch flag whenSet => do
    branch (flag.test (← registers).p == whenSet)
  | .register op => do
    let _ ← readAtPc
    mapRegisters fun r => op.apply r
  | .jmp false => do
    let pc ← fetchWord
    mapRegisters fun r => { r with pc }
  | .jmp true => do
    let pc ← resolveIndirect
    mapRegisters fun r => { r with pc }
  | .jsr => do
    let low ← fetch
    let _ ← readAtStack
    pushWord (← registers).pc
    let high ← readAtPc
    mapRegisters fun r => { r with pc := word high low }
  | .rts => do
    let _ ← readAtPc
    let _ ← readAtStack
    let pc ← pullWord
    mapRegisters fun r => { r with pc }
    let _ ← readAtPc
    mapRegisters fun r => { r with pc := r.pc + 1 }
  | .rti => do
    let _ ← readAtPc
    let _ ← readAtStack
    let p ← pull
    mapRegisters fun r => r.setStatus p
    let pc ← pullWord
    mapRegisters fun r => { r with pc }
  | .brk => do
    let _ ← fetch
    enterHandler Status.pushedByInstruction
    modify fun m => { m with cpu := { m.cpu with nmiPolled := false } }
  | .pha => do
    let _ ← readAtPc
    push (← registers).a
  | .php => do
    let _ ← readAtPc
    push (← registers).p.pushedByInstruction.toByte
  | .pla => do
    let _ ← readAtPc
    let _ ← readAtStack
    let a ← pull
    mapRegisters fun r => r.setA a
  | .plp => do
    let _ ← readAtPc
    let _ ← readAtStack
    let p ← pull
    mapRegisters fun r => r.setStatus p
  | .jam => modify fun m => { m with cpu := { m.cpu with jammed := true } }

end Exec

end Famiclone
