import Famiclone.Word

/-!
# Status flags

The eight flags of the processor. Two of them, `breakFlag` and `unused`, have no circuit of their
own: they exist in bytes pushed on the stack.
-/
namespace Famiclone

structure Status where
  carry : Bool
  zero : Bool
  interruptDisable : Bool
  decimal : Bool
  breakFlag : Bool
  unused : Bool
  overflow : Bool
  negative : Bool
  deriving DecidableEq, Repr

namespace Status

/-- The flags in one byte, carry lowest. -/
def toByte (p : Status) : UInt8 :=
  UInt8.ofNat (p.carry.toNat + 2 * p.zero.toNat + 4 * p.interruptDisable.toNat +
    8 * p.decimal.toNat + 16 * p.breakFlag.toNat + 32 * p.unused.toNat + 64 * p.overflow.toNat +
    128 * p.negative.toNat)

def ofByte (b : UInt8) : Status where
  carry := bit b 0
  zero := bit b 1
  interruptDisable := bit b 2
  decimal := bit b 3
  breakFlag := bit b 4
  unused := bit b 5
  overflow := bit b 6
  negative := bit b 7

@[simp] theorem ofByte_toByte (p : Status) : ofByte (toByte p) = p := by
  obtain ⟨c, z, i, d, b, u, v, n⟩ := p
  revert c z i d b u v n
  decide

/-- The flags at power-on: interrupts disabled. -/
def powerOn : Status := ofByte 0x24

/-- Set `zero` and `negative` from a result. -/
def withResult (p : Status) (value : UInt8) : Status :=
  { p with zero := value == 0, negative := bit value 7 }

/-- What is pushed by an instruction. -/
def pushedByInstruction (p : Status) : Status := { p with breakFlag := true, unused := true }

/-- What is pushed by an interrupt. -/
def pushedByInterrupt (p : Status) : Status := { p with breakFlag := false, unused := true }

/-- What is taken from a byte pulled off the stack. -/
def pulled (b : UInt8) : Status := { ofByte b with breakFlag := false, unused := true }

end Status

end Famiclone
