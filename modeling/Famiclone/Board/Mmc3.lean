import Famiclone.Board.Banks
import Famiclone.Counter

/-!
# The MMC3 board

Besides small banks the chip has a counter for scanlines. It watches address line 12 of the picture
bus, which rises once in a scanline when background and sprites use different pattern tables, and
raises an interrupt after a chosen number of rises. A rise after too short a low period does not
count.
-/
namespace Famiclone

/-- Processor cycles for which the address line has to be low before a rise counts. -/
def a12LowCycles : Nat := 3

structure Mmc3 where
  banks : Banks
  bankSelect : UInt8
  registers : Vector UInt8 8
  mirroring : Mirroring
  /-- Whether the nametables are wired to four screens, which no register changes. -/
  fourScreen : Bool
  workEnabled : Bool
  workProtected : Bool
  irqLatch : UInt8
  irqCounter : UInt8
  irqReload : Bool
  irqEnabled : Bool
  irqPending : Bool
  a12 : Bool
  /-- Processor cycles for which the line has been low. -/
  lowCycles : Counter 255

namespace Mmc3

/-- The program windows: two switched banks, and the last two, of which the last stays. -/
def selectPrg (b : Mmc3) (banks : Banks) : Banks :=
  let r6 : Int := (b.registers.get 6).toNat
  let r7 : Int := (b.registers.get 7).toNat
  let banks :=
    if b.bankSelect &&& 0x40 == 0 then (banks.setPrg8 0 r6).setPrg8 2 (-2)
    else (banks.setPrg8 0 (-2)).setPrg8 2 r6
  (banks.setPrg8 1 r7).setPrg8 3 (-1)

/-- The pattern windows: a half of two pairs and a half of four singles, which may change places. -/
def selectChr (b : Mmc3) (banks : Banks) : Banks :=
  let r (i : Fin 8) : Nat := (b.registers.get i).toNat
  let wide := if b.bankSelect &&& 0x80 == 0 then 0 else 4
  let narrow := if b.bankSelect &&& 0x80 == 0 then 4 else 0
  let banks := (banks.setChr1 wide (r 0 / 2 * 2 : Nat)).setChr1 (wide + 1) (r 0 / 2 * 2 + 1 : Nat)
  let banks :=
    (banks.setChr1 (wide + 2) (r 1 / 2 * 2 : Nat)).setChr1 (wide + 3) (r 1 / 2 * 2 + 1 : Nat)
  let banks := (banks.setChr1 narrow (r 2)).setChr1 (narrow + 1) (r 3)
  (banks.setChr1 (narrow + 2) (r 4)).setChr1 (narrow + 3) (r 5)

def update (b : Mmc3) : Mmc3 := { b with banks := b.selectChr (b.selectPrg b.banks) }

def mount (banks : Banks) (wired : Mirroring) : Mmc3 :=
  update {
    banks
    bankSelect := 0
    registers := #v[0, 2, 4, 5, 6, 7, 0, 1]
    mirroring := wired
    fourScreen := decide (wired = .fourScreen)
    workEnabled := true
    workProtected := false
    irqLatch := 0
    irqCounter := 0
    irqReload := false
    irqEnabled := false
    irqPending := false
    a12 := false
    lowCycles := 0 }

/-- A rise that counts: reload the counter at zero or on request, otherwise take one off; at zero
raise the interrupt if it is enabled. -/
def countRise (b : Mmc3) : Mmc3 :=
  let next := if b.irqCounter == 0 || b.irqReload then b.irqLatch else b.irqCounter - 1
  { b with
    irqCounter := next
    irqReload := false
    irqPending := b.irqPending || (next == 0 && b.irqEnabled) }

def read (b : Mmc3) (address : UInt16) : Option UInt8 :=
  if 0x8000 ≤ address then some (b.banks.readPrg address)
  else if 0x6000 ≤ address ∧ b.workEnabled then b.banks.readWork address
  else none

/-- Write one of the eight registers, selected by the address. -/
def writeRegister (b : Mmc3) (address : UInt16) (value : UInt8) : Mmc3 :=
  let odd := address &&& 1 != 0
  match address.toNat / 0x2000 % 4, odd with
  | 0, false => update { b with bankSelect := value }
  | 0, true =>
    update { b with registers := put b.registers (.ofNat 8 b.bankSelect.toNat) value }
  | 1, false =>
    if b.fourScreen then b
    else { b with mirroring := if value &&& 1 == 0 then .vertical else .horizontal }
  | 1, true =>
    { b with workEnabled := value &&& 0x80 != 0, workProtected := value &&& 0x40 != 0 }
  | 2, false => { b with irqLatch := value }
  | 2, true => { b with irqCounter := 0, irqReload := true }
  | _, false => { b with irqEnabled := false, irqPending := false }
  | _, true => { b with irqEnabled := true }

def write (b : Mmc3) (address : UInt16) (value : UInt8) : Mmc3 :=
  if 0x8000 ≤ address then b.writeRegister address value
  else if 0x6000 ≤ address ∧ b.workEnabled ∧ ¬ b.workProtected then
    { b with banks := b.banks.writeWork address value }
  else b

def observe (b : Mmc3) (address : UInt16) : Mmc3 :=
  let high := address &&& 0x1000 != 0
  if high && !b.a12 then
    let b := if a12LowCycles ≤ b.lowCycles.val then b.countRise else b
    { b with a12 := true }
  else if !high && b.a12 then { b with a12 := false, lowCycles := 0 }
  else b

def clock (b : Mmc3) : Mmc3 :=
  if b.a12 then b else { b with lowCycles := b.lowCycles.advance 1 }

/-- The reset line silences the interrupt and clears the bank-select value. -/
def reset (b : Mmc3) : Mmc3 :=
  update { b with irqEnabled := false, irqPending := false, bankSelect := 0 }

end Mmc3

end Famiclone
