import Famiclone.Proofs.Board.Switches
import Famiclone.Proofs.Checked

/-!
# Checked bank switches

How a board is put around the chips of an image, with every division and every window checked. A division
by zero gives nothing, and neither does a bank with more windows than there are. The memory that is
switched may be empty or smaller than the bank, so the number of banks may come out as zero: a switch looks
at that before it divides.
-/
namespace Famiclone

namespace Checked

def quotient? (m n : Nat) : Option Nat := if n = 0 then none else some (m / n)

def remainder? (m n : Nat) : Option Nat := if n = 0 then none else some (m % n)

def modulo? (k : Int) (n : Nat) : Option Nat := if n = 0 then none else some (k % n).toNat

theorem quotient?_eq (m : Nat) {n : Nat} (h : n ≠ 0) : quotient? m n = some (m / n) := if_neg h

theorem remainder?_eq (m : Nat) {n : Nat} (h : n ≠ 0) : remainder? m n = some (m % n) := if_neg h

theorem modulo?_eq (k : Int) {n : Nat} (h : n ≠ 0) : modulo? k n = some (k % n).toNat := if_neg h

end Checked

open Checked

/-! ## One switch -/

section
variable {n : Nat} (windows : Vector Nat n) (size total first count : Nat) (bank : Int)

def selectWindows? : Option (Vector Nat n) :=
  if total = 0 then some windows
  else do
    let banks ← quotient? total (size * count)
    let number ← modulo? bank (max banks 1)
    if n < first + count then none
    else
      Vector.ofFnM fun i =>
        if first ≤ i.val ∧ i.val < first + count then
          remainder? (number * (size * count) + (i.val - first) * size) total
        else some (windows.get i)

variable {size first count}

/-- With a memory of no bytes nothing is divided by it, and with less than a bank there is still one. -/
theorem selectWindows?_eq (bytes : size * count ≠ 0) (inside : first + count ≤ n) :
    selectWindows? windows size total first count bank =
      some (selectWindows windows size total first count bank) := by
  unfold selectWindows? selectWindows
  by_cases none : total = 0
  · rw [if_pos none, if_pos none]
  · have counted : max (total / (size * count)) 1 ≠ 0 := by omega
    simp only [if_neg none, quotient?_eq _ bytes, modulo?_eq _ counted, remainder?_eq _ none,
      if_neg (Nat.not_lt.mpr inside), Option.bind_eq_bind, Option.bind_some, ← apply_ite some]
    exact Vector.ofFnM_pure

end

namespace Banks

variable (m : Banks) (slot : Nat) (bank : Int)

def setPrg8? : Option Banks := do
  return { m with prgWindows := ← selectWindows? m.prgWindows prgWindow m.prg.size slot 1 bank }

def setPrg16? : Option Banks := do
  return { m with prgWindows := ← selectWindows? m.prgWindows prgWindow m.prg.size (slot * 2) 2 bank }

def setPrg32? : Option Banks := do
  return { m with prgWindows := ← selectWindows? m.prgWindows prgWindow m.prg.size 0 4 bank }

def setChr1? : Option Banks := do
  return { m with chrWindows := ← selectWindows? m.chrWindows chrWindow m.chr.size slot 1 bank }

def setChr4? : Option Banks := do
  return { m with chrWindows := ← selectWindows? m.chrWindows chrWindow m.chr.size (slot * 4) 4 bank }

def setChr8? : Option Banks := do
  return { m with chrWindows := ← selectWindows? m.chrWindows chrWindow m.chr.size 0 8 bank }

variable {slot}

theorem setPrg8?_eq (h : slot < 4) : m.setPrg8? slot bank = some (m.setPrg8 slot bank) := by
  rw [setPrg8?, selectWindows?_eq _ _ _ (by decide) (by omega)]
  rfl

theorem setPrg16?_eq (h : slot < 2) : m.setPrg16? slot bank = some (m.setPrg16 slot bank) := by
  rw [setPrg16?, selectWindows?_eq _ _ _ (by decide) (by omega)]
  rfl

theorem setPrg32?_eq : m.setPrg32? bank = some (m.setPrg32 bank) := by
  rw [setPrg32?, selectWindows?_eq _ _ _ (by decide) (by omega)]
  rfl

theorem setChr1?_eq (h : slot < 8) : m.setChr1? slot bank = some (m.setChr1 slot bank) := by
  rw [setChr1?, selectWindows?_eq _ _ _ (by decide) (by omega)]
  rfl

theorem setChr4?_eq (h : slot < 2) : m.setChr4? slot bank = some (m.setChr4 slot bank) := by
  rw [setChr4?, selectWindows?_eq _ _ _ (by decide) (by omega)]
  rfl

theorem setChr8?_eq : m.setChr8? bank = some (m.setChr8 bank) := by
  rw [setChr8?, selectWindows?_eq _ _ _ (by decide) (by omega)]
  rfl

def mount? (h : Header) (prg chr : Array UInt8) : Option Banks := do
  (← (unswitched h prg chr).setPrg32? 0).setChr8? 0

theorem mount?_eq (h : Header) (prg chr : Array UInt8) : mount? h prg chr = some (mount h prg chr) := by
  rw [mount?, setPrg32?_eq, Option.bind_eq_bind, Option.bind_some, setChr8?_eq]
  rfl

end Banks

/-! ## Fresh boards -/

def LatchBoard.mount? (wiring : Wiring) (banks : Banks) (wired : Mirroring) : Option LatchBoard := do
  return {
    wiring
    banks := ← if wiring = .uxrom then do (← banks.setPrg16? 0 0).setPrg16? 1 (-1) else some banks
    mirroring := if wiring = .axrom then .singleLower else wired }

theorem LatchBoard.mount?_eq (wiring : Wiring) (banks : Banks) (wired : Mirroring) :
    mount? wiring banks wired = some (mount wiring banks wired) := by
  unfold mount? mount
  by_cases switched : wiring = .uxrom <;> simp [switched, Banks.setPrg16?_eq]

namespace Mmc1

variable (b : Mmc1) (banks : Banks)

def selectPrg? : Option Banks :=
  let outer : Nat := if banks.prgBanks16 > 16 then b.chrBank0.toNat / 16 % 2 * 16 else 0
  let bank := b.prgBank.toNat % 16
  match b.control.toNat / 4 % 4 with
  | 0 | 1 => do
    (← banks.setPrg16? 0 (outer + bank / 2 * 2 : Nat)).setPrg16? 1 (outer + bank / 2 * 2 + 1 : Nat)
  | 2 => do (← banks.setPrg16? 0 (outer : Nat)).setPrg16? 1 (outer + bank : Nat)
  | _ => do (← banks.setPrg16? 0 (outer + bank : Nat)).setPrg16? 1 (outer + 15 : Nat)

def selectChr? : Option Banks :=
  if b.control &&& 0x10 != 0 then do
    (← banks.setChr4? 0 b.chrBank0.toNat).setChr4? 1 b.chrBank1.toNat
  else banks.setChr8? (b.chrBank0.toNat / 2 : Nat)

def update? : Option Mmc1 := do
  return { b with banks := ← b.selectChr? (← b.selectPrg? b.banks) }

/-- A freshly powered board: its registers, brought in line with the chips as they come. -/
def mount? : Option Mmc1 := update? { mount banks with banks }

theorem selectPrg?_eq : b.selectPrg? banks = some (b.selectPrg banks) := by
  unfold selectPrg? selectPrg
  dsimp only
  split <;> simp [*, Banks.setPrg16?_eq]

theorem selectChr?_eq : b.selectChr? banks = some (b.selectChr banks) := by
  unfold selectChr? selectChr
  split
  · simp [Banks.setChr4?_eq]
  · exact Banks.setChr8?_eq _ _

theorem update?_eq : b.update? = some b.update := by
  rw [update?, selectPrg?_eq, Option.bind_eq_bind, Option.bind_some, selectChr?_eq]
  rfl

theorem mount?_eq : mount? banks = some (mount banks) := update?_eq _

end Mmc1

namespace Mmc3

variable (b : Mmc3) (banks : Banks)

/-- The program windows: two switched banks, and the last two, of which the last stays. -/
def selectPrg? : Option Banks := do
  let r6 : Int := (b.registers.get 6).toNat
  let r7 : Int := (b.registers.get 7).toNat
  let banks ←
    if b.bankSelect &&& 0x40 == 0 then do (← banks.setPrg8? 0 r6).setPrg8? 2 (-2)
    else do (← banks.setPrg8? 0 (-2)).setPrg8? 2 r6
  (← banks.setPrg8? 1 r7).setPrg8? 3 (-1)

/-- The pattern windows: a half of two pairs and a half of four singles, which may change places. -/
def selectChr? : Option Banks := do
  let r (i : Fin 8) : Nat := (b.registers.get i).toNat
  let wide := if b.bankSelect &&& 0x80 == 0 then 0 else 4
  let narrow := if b.bankSelect &&& 0x80 == 0 then 4 else 0
  let banks ← banks.setChr1? wide (r 0 / 2 * 2 : Nat)
  let banks ← banks.setChr1? (wide + 1) (r 0 / 2 * 2 + 1 : Nat)
  let banks ← banks.setChr1? (wide + 2) (r 1 / 2 * 2 : Nat)
  let banks ← banks.setChr1? (wide + 3) (r 1 / 2 * 2 + 1 : Nat)
  let banks ← banks.setChr1? narrow (r 2)
  let banks ← banks.setChr1? (narrow + 1) (r 3)
  let banks ← banks.setChr1? (narrow + 2) (r 4)
  banks.setChr1? (narrow + 3) (r 5)

def update? : Option Mmc3 := do
  return { b with banks := ← b.selectChr? (← b.selectPrg? b.banks) }

/-- A freshly powered board: its registers, brought in line with the chips as they come. -/
def mount? (wired : Mirroring) : Option Mmc3 := update? { mount banks wired with banks }

theorem selectPrg?_eq : b.selectPrg? banks = some (b.selectPrg banks) := by
  unfold selectPrg? selectPrg
  dsimp only
  split <;> simp [Banks.setPrg8?_eq]

theorem selectChr?_eq : b.selectChr? banks = some (b.selectChr banks) := by
  unfold selectChr? selectChr
  dsimp only
  -- Both halves have four windows, whichever comes first.
  split <;> simp [Banks.setChr1?_eq]

theorem update?_eq : b.update? = some b.update := by
  rw [update?, selectPrg?_eq, Option.bind_eq_bind, Option.bind_some, selectChr?_eq]
  rfl

theorem mount?_eq (wired : Mirroring) : mount? banks wired = some (mount banks wired) := update?_eq _

end Mmc3

namespace Board

variable (number : Nat) (wired : Mirroring) (banks : Banks)

/-- The board with a given number, freshly powered; the inner value is none if there is no such board. -/
def ofMapperChecked : Option (Option Board) :=
  match number with
  | 0 => return some (latch (← LatchBoard.mount? .fixed banks wired))
  | 1 => return some (mmc1 (← Mmc1.mount? banks))
  | 2 => return some (latch (← LatchBoard.mount? .uxrom banks wired))
  | 3 => return some (latch (← LatchBoard.mount? .cnrom banks wired))
  | 4 => return some (mmc3 (← Mmc3.mount? banks wired))
  | 7 => return some (latch (← LatchBoard.mount? .axrom banks wired))
  | 11 => return some (latch (← LatchBoard.mount? .colorDreams banks wired))
  | 34 => return some (latch (← LatchBoard.mount? .bnrom banks wired))
  | 66 => return some (latch (← LatchBoard.mount? .gxrom banks wired))
  | _ => return none

theorem ofMapperChecked_eq : ofMapperChecked number wired banks = some (ofMapper? number wired banks) := by
  unfold ofMapperChecked ofMapper?
  split <;> simp [LatchBoard.mount?_eq, Mmc1.mount?_eq, Mmc3.mount?_eq]

end Board

end Famiclone
