import Famiclone.Processor.State

/-!
# Cycles

A machine is a processor on a bus. All that an instruction does to it goes through one read cycle
and one write cycle, so the time an instruction takes is the number of accesses it makes. Transfers
that wait go before a read, never before a write.
-/
namespace Famiclone

structure Machine (β : Type) where
  cpu : Processor
  bus : β

/-- Actions on a machine. -/
abbrev Exec (β : Type) := StateM (Machine β)

namespace Exec

variable {β : Type} [ProcessorBus β]

/-- A read cycle, without regard to transfers. -/
def cycleRead (address : UInt16) : Exec β UInt8 := fun m =>
  let (value, bus) := ProcessorBus.read m.bus address
  (value, ⟨m.cpu.endCycle (ProcessorBus.lines bus), bus⟩)

def write (address : UInt16) (value : UInt8) : Exec β Unit := fun m =>
  let bus := ProcessorBus.write m.bus address value
  ((), ⟨m.cpu.endCycle (ProcessorBus.lines bus), bus⟩)

/-- The address where the picture unit takes sprite data. -/
def spriteData : UInt16 := 0x2004

/-- Copy one byte of a page to the sprites. -/
def copySprite (page : UInt8) (index : Nat) : Exec β Unit := do
  let value ← cycleRead (word page (UInt8.ofNat index))
  write spriteData value

/-- Serve a transfer while the processor is halted at an address. A sprite transfer begins on an
even cycle; a sample transfer takes four cycles. -/
def serve (halted : UInt16) : Transfer → Exec β Unit
  | .sprites page => do
    let _ ← cycleRead halted
    if (← get).cpu.cycles % 2 = 1 then
      let _ ← cycleRead halted
    (List.range 256).forM (copySprite page)
  | .sample address => do
    let _ ← cycleRead halted
    let _ ← cycleRead halted
    let _ ← cycleRead halted
    let value ← cycleRead address
    modify fun m => { m with bus := ProcessorBus.deliver m.bus value }

/-- Serve the transfers that wait, at most `limit` of them. -/
def serveAll (halted : UInt16) : (limit : Nat) → Exec β Unit
  | 0 => pure ()
  | limit + 1 => do
    let next ← modifyGet fun m =>
      let (next, bus) := ProcessorBus.takeTransfer m.bus
      (next, { m with bus })
    match next with
    | none => pure ()
    | some transfer => do
      serve halted transfer
      serveAll halted limit

/-- A read of the processor: first the transfers that wait, then the read cycle. -/
def read (address : UInt16) : Exec β UInt8 := do
  serveAll address (ProcessorBus.transferLimit (← get).bus)
  cycleRead address

def registers : Exec β Registers := return (← get).cpu.registers

def mapRegisters (f : Registers → Registers) : Exec β Unit :=
  modify fun m => { m with cpu := m.cpu.mapRegisters f }

/-- Read at the program counter and leave it. -/
def readAtPc : Exec β UInt8 := do read (← registers).pc

/-- Read at the program counter and move it on. -/
def fetch : Exec β UInt8 := do
  let value ← readAtPc
  mapRegisters fun r => { r with pc := r.pc + 1 }
  return value

/-- Fetch a word, low byte first. -/
def fetchWord : Exec β UInt16 := do
  let low ← fetch
  let high ← fetch
  return word high low

/-- Read the word at an address, low byte first. -/
def readWord (address : UInt16) : Exec β UInt16 := do
  let low ← read address
  let high ← read (address + 1)
  return word high low

/-- Read the word at a place in the first page, which it does not leave. -/
def readZeroPageWord (pointer : UInt8) : Exec β UInt16 := do
  let low ← read (word 0 pointer)
  let high ← read (word 0 (pointer + 1))
  return word high low

/-- The address of the top of the stack. -/
def stackTop (r : Registers) : UInt16 := word 1 r.sp

def readAtStack : Exec β UInt8 := do read (stackTop (← registers))

def push (value : UInt8) : Exec β Unit := do
  write (stackTop (← registers)) value
  mapRegisters fun r => { r with sp := r.sp - 1 }

def pull : Exec β UInt8 := do
  mapRegisters fun r => { r with sp := r.sp + 1 }
  readAtStack

/-- Push a word, high byte first. -/
def pushWord (value : UInt16) : Exec β Unit := do
  push (highByte value)
  push (lowByte value)

/-- Pull a word, low byte first. -/
def pullWord : Exec β UInt16 := do
  let low ← pull
  let high ← pull
  return word high low

end Exec

end Famiclone
