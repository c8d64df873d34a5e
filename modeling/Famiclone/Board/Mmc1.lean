import Famiclone.Board.Banks
import Famiclone.Counter

/-!
# The MMC1 board

Its registers are loaded one bit at a time through a serial port of five bits. The chip ignores a
write on the cycle right after another write, so an instruction that writes twice sends one bit.
-/
namespace Famiclone

/-- The most cycles that are counted behind a write. -/
def mostIdle : Nat := 0xFFFFFFFF

structure Mmc1 where
  banks : Banks
  /-- Bits collected so far, the first one lowest. -/
  shift : UInt8
  collected : Nat
  control : UInt8
  chrBank0 : UInt8
  chrBank1 : UInt8
  prgBank : UInt8
  /-- Cycles since the last write to the registers, taken or not. Before the first one the counter is full. -/
  idle : Counter mostIdle

namespace Mmc1

def workEnabled (b : Mmc1) : Bool := b.prgBank &&& 0x10 == 0

/-- The program windows that the registers select. Boards with more than sixteen banks of 16 KiB
choose the outer half by a bit of the first pattern register. -/
def selectPrg (b : Mmc1) (banks : Banks) : Banks :=
  let outer : Nat := if banks.prgBanks16 > 16 then b.chrBank0.toNat / 16 % 2 * 16 else 0
  let bank := b.prgBank.toNat % 16
  match b.control.toNat / 4 % 4 with
  | 0 | 1 =>
    (banks.setPrg16 0 (outer + bank / 2 * 2 : Nat)).setPrg16 1 (outer + bank / 2 * 2 + 1 : Nat)
  | 2 => (banks.setPrg16 0 (outer : Nat)).setPrg16 1 (outer + bank : Nat)
  | _ => (banks.setPrg16 0 (outer + bank : Nat)).setPrg16 1 (outer + 15 : Nat)

def selectChr (b : Mmc1) (banks : Banks) : Banks :=
  if b.control &&& 0x10 != 0 then
    (banks.setChr4 0 b.chrBank0.toNat).setChr4 1 b.chrBank1.toNat
  else
    banks.setChr8 (b.chrBank0.toNat / 2 : Nat)

def update (b : Mmc1) : Mmc1 := { b with banks := b.selectChr (b.selectPrg b.banks) }

def mount (banks : Banks) : Mmc1 :=
  update {
    banks
    shift := 0
    collected := 0
    control := 0x0C
    chrBank0 := 0
    chrBank1 := 0
    prgBank := 0
    idle := Fin.last mostIdle }

/-- Discard the collected bits and fix the last program bank at `$C000`. -/
def reset (b : Mmc1) : Mmc1 :=
  update { b with shift := 0, collected := 0, control := b.control ||| 0x0C }

def load (b : Mmc1) (address : UInt16) (data : UInt8) : Mmc1 :=
  match address.toNat / 0x2000 % 4 with
  | 0 => { b with control := data }
  | 1 => { b with chrBank0 := data }
  | 2 => { b with chrBank1 := data }
  | _ => { b with prgBank := data }

/-- A write that the serial port accepts: a value with its highest bit set resets the port, any
other sends its lowest bit, and the fifth bit loads a register. -/
def accept (b : Mmc1) (address : UInt16) (value : UInt8) : Mmc1 :=
  if value &&& 0x80 != 0 then b.reset
  else
    let data := b.shift ||| ((value &&& 1) <<< UInt8.ofNat b.collected)
    if b.collected + 1 < 5 then { b with shift := data, collected := b.collected + 1 }
    else update ({ b with shift := 0, collected := 0 }.load address data)

def consecutive (b : Mmc1) : Bool := b.idle.val ≤ 1

def read (b : Mmc1) (address : UInt16) : Option UInt8 :=
  if 0x8000 ≤ address then some (b.banks.readPrg address)
  else if 0x6000 ≤ address ∧ b.workEnabled then b.banks.readWork address
  else none

def write (b : Mmc1) (address : UInt16) (value : UInt8) : Mmc1 :=
  if 0x8000 ≤ address then
    let again := b.consecutive
    let b := { b with idle := 0 }
    if again then b else b.accept address value
  else if 0x6000 ≤ address ∧ b.workEnabled then
    { b with banks := b.banks.writeWork address value }
  else b

def mirroring (b : Mmc1) : Mirroring :=
  match b.control.toNat % 4 with
  | 0 => .singleLower
  | 1 => .singleUpper
  | 2 => .vertical
  | _ => .horizontal

def clock (b : Mmc1) : Mmc1 := { b with idle := b.idle.advance 1 }

end Mmc1

end Famiclone
