import Famiclone.Processor.Cycle

/-!
# Operand addresses

How the address of an operand is found, with all the accesses that the search makes.
-/
namespace Famiclone

/-- The address of an operand, and the address it was reached from by indexing. -/
structure Operand where
  address : UInt16
  base : UInt16

/-- Whether the indexed address lies on another page than its base. -/
def Operand.crosses (o : Operand) : Bool := highByte o.base != highByte o.address

/-- What an instruction does with its operand. One that writes cannot take back a wrong address, so
indexing always gets a cycle to settle. -/
inductive Purpose where
  | reading
  | writing
  deriving DecidableEq

namespace Exec

variable {β : Type} [ProcessorBus β]

/-- Add an index to an address. A reading instruction pays an extra cycle only where the page
changes; that cycle reads at the address before its high byte is put right. -/
def index (base : UInt16) (offset : UInt8) (purpose : Purpose) : Exec β Operand := do
  let o : Operand := ⟨base + offset.toUInt16, base⟩
  if o.crosses ∨ purpose = .writing then
    let _ ← read (word (highByte base) (lowByte o.address))
  return o

/-- An index into the first page, which it does not leave. -/
def indexZeroPage (offset : Registers → UInt8) : Exec β Operand := do
  let base ← fetch
  let _ ← read (word 0 base)
  return ⟨word 0 (base + offset (← registers)), word 0 base⟩

def resolve (mode : Mode) (purpose : Purpose) : Exec β Operand := do
  match mode with
  | .immediate => do
    let address := (← registers).pc
    mapRegisters fun r => { r with pc := r.pc + 1 }
    return ⟨address, address⟩
  | .zeroPage => do
    let address := word 0 (← fetch)
    return ⟨address, address⟩
  | .zeroPageX => indexZeroPage Registers.x
  | .zeroPageY => indexZeroPage Registers.y
  | .absolute => do
    let address ← fetchWord
    return ⟨address, address⟩
  | .absoluteX => do
    let base ← fetchWord
    index base (← registers).x purpose
  | .absoluteY => do
    let base ← fetchWord
    index base (← registers).y purpose
  | .indirectX => do
    let pointer ← fetch
    let _ ← read (word 0 pointer)
    let address ← readZeroPageWord (pointer + (← registers).x)
    return ⟨address, address⟩
  | .indirectY => do
    let pointer ← fetch
    let base ← readZeroPageWord pointer
    index base (← registers).y purpose

/-- The address that is stored at a pointer. The pointer's own page is not left. -/
def resolveIndirect : Exec β UInt16 := do
  let pointer ← fetchWord
  let low ← read pointer
  let high ← read (word (highByte pointer) (lowByte pointer + 1))
  return word high low

end Exec

end Famiclone
