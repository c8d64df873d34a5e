import Famiclone.Processor.Instruction
import Famiclone.Processor.Status

/-!
# Registers and arithmetic

The register file, and what each instruction does to it once its operand is known. Nothing here
touches the bus.
-/
namespace Famiclone

structure Registers where
  a : UInt8
  x : UInt8
  y : UInt8
  p : Status
  sp : UInt8
  pc : UInt16
  deriving DecidableEq, Repr

namespace Registers

/-- The registers before the first reset sequence. -/
def initial : Registers where
  a := 0
  x := 0
  y := 0
  p := .powerOn
  sp := 0xFD
  pc := 0

/-- Add a value and the carry to the accumulator. Subtraction adds the complement. -/
def add (r : Registers) (value : UInt8) : Registers :=
  let sum := r.a.toNat + value.toNat + r.p.carry.toNat
  let result := UInt8.ofNat sum
  let overflow := bit (~~~(r.a ^^^ value) &&& (r.a ^^^ result)) 7
  { r with
    a := result
    p := { r.p with carry := decide (0xFF < sum), overflow }.withResult result }

/-- Set the flags as the difference of a register and a value would. -/
def compare (r : Registers) (register value : UInt8) : Registers :=
  { r with p := { r.p with carry := decide (value ≤ register) }.withResult (register - value) }

/-- Set the accumulator and the flags of a result. -/
def setA (r : Registers) (value : UInt8) : Registers :=
  { r with a := value, p := r.p.withResult value }

def setX (r : Registers) (value : UInt8) : Registers :=
  { r with x := value, p := r.p.withResult value }

def setY (r : Registers) (value : UInt8) : Registers :=
  { r with y := value, p := r.p.withResult value }

def setCarry (r : Registers) (c : Bool) : Registers := { r with p := { r.p with carry := c } }

/-- Take a pulled byte as the status. -/
def setStatus (r : Registers) (value : UInt8) : Registers := { r with p := .pulled value }

def disableInterrupts (r : Registers) : Registers :=
  { r with p := { r.p with interruptDisable := true } }

end Registers

/-- The plain half of a modifying instruction: the new byte and the carry that leaves it, `none`
where the carry stays. -/
def ModifyOp.shifted (carry : Bool) (value : UInt8) : ModifyOp → UInt8 × Option Bool
  | asl | slo => (value <<< 1, some (bit value 7))
  | lsr | sre => (value >>> 1, some (bit value 0))
  | rol | rla => (value <<< 1 ||| carry.toUInt8, some (bit value 7))
  | ror | rra => (value >>> 1 ||| carry.toUInt8 <<< 7, some (bit value 0))
  | inc | isc => (value + 1, none)
  | dec | dcp => (value - 1, none)

/-- What a modifying instruction does to the registers with its new byte: the plain ones set flags,
the compounds go on with an arithmetic instruction. -/
def ModifyOp.finish (result : UInt8) (r : Registers) : ModifyOp → Registers
  | asl | lsr | rol | ror | inc | dec => { r with p := r.p.withResult result }
  | slo => r.setA (r.a ||| result)
  | rla => r.setA (r.a &&& result)
  | sre => r.setA (r.a ^^^ result)
  | rra => r.add result
  | dcp => r.compare r.a result
  | isc => r.add (~~~result)

def ModifyOp.apply (op : ModifyOp) (value : UInt8) (r : Registers) : UInt8 × Registers :=
  let (result, carry) := op.shifted r.p.carry value
  let r := match carry with
    | some c => r.setCarry c
    | none => r
  (result, op.finish result r)

/-- The registers after a reading instruction with the given operand. -/
def ReadOp.apply (value : UInt8) (r : Registers) : ReadOp → Registers
  | lda => r.setA value
  | ldx => r.setX value
  | ldy => r.setY value
  | lax => { r.setA value with x := value }
  | adc => r.add value
  | sbc => r.add (~~~value)
  | and => r.setA (r.a &&& value)
  | ora => r.setA (r.a ||| value)
  | eor => r.setA (r.a ^^^ value)
  | cmp => r.compare r.a value
  | cpx => r.compare r.x value
  | cpy => r.compare r.y value
  | bit =>
    { r with
      p := { r.p with
        zero := r.a &&& value == 0
        overflow := Famiclone.bit value 6
        negative := Famiclone.bit value 7 } }
  | anc =>
    let a := r.a &&& value
    (r.setA a).setCarry (Famiclone.bit a 7)
  | alr =>
    let (a, r) := ModifyOp.lsr.apply (r.a &&& value) r
    { r with a }
  | arr =>
    let a := (r.a &&& value) >>> 1 ||| r.p.carry.toUInt8 <<< 7
    let r := (r.setA a).setCarry (Famiclone.bit a 6)
    { r with p := { r.p with overflow := Famiclone.bit a 6 != Famiclone.bit a 5 } }
  | ane => r.setA ((r.a ||| 0xEE) &&& r.x &&& value)
  | lxa =>
    let a := (r.a ||| 0xEE) &&& value
    { r.setA a with x := a }
  | axs =>
    let masked := r.a &&& r.x
    (r.setX (masked - value)).setCarry (decide (value ≤ masked))
  | las =>
    let result := value &&& r.sp
    { r.setA result with x := result, sp := result }
  | nop => r

def RegisterOp.apply (r : Registers) : RegisterOp → Registers
  | clc => r.setCarry false
  | sec => r.setCarry true
  | cli => { r with p := { r.p with interruptDisable := false } }
  | sei => r.disableInterrupts
  | cld => { r with p := { r.p with decimal := false } }
  | sed => { r with p := { r.p with decimal := true } }
  | clv => { r with p := { r.p with overflow := false } }
  | tax => r.setX r.a
  | tay => r.setY r.a
  | txa => r.setA r.x
  | tya => r.setA r.y
  | tsx => r.setX r.sp
  | txs => { r with sp := r.x }
  | inx => r.setX (r.x + 1)
  | iny => r.setY (r.y + 1)
  | dex => r.setX (r.x - 1)
  | dey => r.setY (r.y - 1)
  | nop => r

/-- Whether a flag has the value that a branch asks for. -/
def BranchFlag.test (p : Status) : BranchFlag → Bool
  | carry => p.carry
  | zero => p.zero
  | negative => p.negative
  | overflow => p.overflow

def StoreOp.value (r : Registers) : StoreOp → UInt8
  | sta => r.a
  | stx => r.x
  | sty => r.y
  | sax => r.a &&& r.x

/-- What a masked store masks. -/
def MaskedStoreOp.source (r : Registers) : MaskedStoreOp → UInt8
  | sha | tas => r.a &&& r.x
  | shx => r.x
  | shy => r.y

end Famiclone
