import Famiclone.Cells
import Famiclone.Region
import Famiclone.Word

/-!
# The delta modulation channel

It plays samples from memory. A reader fetches the bytes of a pass one by one into a buffer, through
transfers that halt the processor; an output unit takes them from there, eight bits for each byte,
and moves the level up or down with each bit.
-/
namespace Famiclone

structure Delta where
  region : Region
  irqEnabled : Bool
  looping : Bool
  period : Nat
  timer : Nat
  level : Nat
  /-- Where the next pass starts. -/
  sampleAddress : UInt16
  /-- How many bytes the next pass has. -/
  sampleLength : Nat
  /-- The next byte of this pass. -/
  address : UInt16
  /-- Bytes of this pass not fetched yet. -/
  remaining : Nat
  buffer : Option UInt8
  /-- Bits of the current byte not played yet, the next one lowest. -/
  shift : Nat
  /-- How many bits the output unit plays before it looks at the buffer. -/
  bits : Nat
  silent : Bool
  irqFlag : Bool
  deriving DecidableEq, Repr

namespace Delta

/-- Processor cycles between two bits. -/
def periods : Region → Vector Nat 16
  | .ntsc => #v[428, 380, 340, 320, 286, 254, 226, 214, 190, 160, 142, 128, 106, 84, 72, 54]
  | .pal => #v[398, 354, 316, 298, 276, 236, 210, 198, 176, 148, 132, 118, 98, 78, 66, 50]

def initial (region : Region) : Delta where
  region
  irqEnabled := false
  looping := false
  period := (periods region).get 0 - 1
  timer := 0
  level := 0
  sampleAddress := 0xC000
  sampleLength := 1
  address := 0xC000
  remaining := 0
  buffer := none
  shift := 0
  bits := 8
  silent := true
  irqFlag := false

def write (c : Delta) (register : Fin 4) (value : UInt8) : Delta :=
  match register with
  | 0 =>
    { c with
      irqEnabled := bit value 7
      irqFlag := c.irqFlag && bit value 7
      looping := bit value 6
      period := (periods c.region).get (.ofNat 16 value.toNat) - 1 }
  | 1 => { c with level := value.toNat % 128 }
  | 2 => { c with sampleAddress := UInt16.ofNat (0xC000 + value.toNat * 64) }
  | 3 => { c with sampleLength := value.toNat * 16 + 1 }

/-- Begin a pass with the values of the registers. -/
def restart (c : Delta) : Delta :=
  { c with address := c.sampleAddress, remaining := c.sampleLength }

/-- Disabling drops what is left of a pass; enabling begins one unless one is under way. -/
def setEnabled (c : Delta) (enabled : Bool) : Delta :=
  if enabled then (if c.remaining = 0 then c.restart else c)
  else { c with remaining := 0 }

/-- The address of the byte that is wanted, if one is. -/
def request (c : Delta) : Option UInt16 :=
  if c.buffer.isNone ∧ 0 < c.remaining then some c.address else none

/-- The address after one; the last address is followed by the start of the cartridge's program. -/
def next (address : UInt16) : UInt16 := if address = 0xFFFF then 0x8000 else address + 1

/-- Take a byte into the buffer. The last byte of a pass begins a new one or raises the interrupt. -/
def fill (c : Delta) (value : UInt8) : Delta :=
  let c := { c with
    buffer := some value, address := next c.address, remaining := c.remaining - 1 }
  if c.remaining = 0 then
    if c.looping then c.restart
    else { c with irqFlag := c.irqFlag || c.irqEnabled }
  else c

/-- Move the level by one bit; it stays within seven bits. -/
def moved (level : Nat) (up : Bool) : Nat :=
  if up then (if level ≤ 125 then level + 2 else level)
  else (if 2 ≤ level then level - 2 else level)

/-- Play one bit, and after the eighth take a byte from the buffer. -/
def play (c : Delta) : Delta :=
  let c := { c with
    level := if c.silent then c.level else moved c.level (c.shift % 2 = 1)
    shift := c.shift / 2
    bits := c.bits - 1 }
  if c.bits = 0 then
    match c.buffer with
    | some byte => { c with bits := 8, buffer := none, shift := byte.toNat, silent := false }
    | none => { c with bits := 8, silent := true }
  else c

/-- A timer clock, every processor cycle. -/
def clockTimer (c : Delta) : Delta :=
  if c.timer = 0 then { c with timer := c.period }.play else { c with timer := c.timer - 1 }

end Delta

end Famiclone
