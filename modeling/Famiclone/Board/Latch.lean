import Famiclone.Board.Banks

/-!
# Latch boards

Boards made of plain logic: a write anywhere in `$8000-$FFFF` is taken into one latch, whose bits
select banks. They differ in how the latch is wired, and in whether a write below `$8000` reaches
the work RAM.
-/
namespace Famiclone

/-- How the latch of a board is wired. -/
inductive Wiring where
  /-- No latch: program and patterns are fixed. -/
  | fixed
  /-- Sixteen kilobytes of program at `$8000`; the last ones stay at `$C000`. -/
  | uxrom
  | cnrom
  /-- All 32 kilobytes of program, and which single nametable is shown. -/
  | axrom
  /-- Program in the low bits and patterns in the high ones. -/
  | colorDreams
  | bnrom
  /-- Program in the high bits and patterns in the low ones. -/
  | gxrom
  deriving DecidableEq, Repr

structure LatchBoard where
  wiring : Wiring
  banks : Banks
  mirroring : Mirroring

namespace LatchBoard

def mount (wiring : Wiring) (banks : Banks) (wired : Mirroring) : LatchBoard where
  wiring
  banks := if wiring = .uxrom then (banks.setPrg16 0 0).setPrg16 1 (-1) else banks
  mirroring := if wiring = .axrom then .singleLower else wired

/-- Take a value into the latch. -/
def latch (b : LatchBoard) (value : UInt8) : LatchBoard :=
  let v := value.toNat
  match b.wiring with
  | .fixed => b
  | .uxrom => { b with banks := b.banks.setPrg16 0 v }
  | .cnrom => { b with banks := b.banks.setChr8 v }
  | .axrom =>
    { b with
      banks := b.banks.setPrg32 (v % 8 : Nat)
      mirroring := if value &&& 0x10 != 0 then .singleUpper else .singleLower }
  | .colorDreams => { b with banks := (b.banks.setPrg32 (v % 4 : Nat)).setChr8 (v / 16 : Nat) }
  | .bnrom => { b with banks := b.banks.setPrg32 v }
  | .gxrom => { b with banks := (b.banks.setPrg32 (v / 16 % 4 : Nat)).setChr8 (v % 4 : Nat) }

def writesWork : Wiring → Bool
  | .fixed | .uxrom | .cnrom | .bnrom => true
  | .axrom | .colorDreams | .gxrom => false

def read (b : LatchBoard) (address : UInt16) : Option UInt8 :=
  if 0x8000 ≤ address then some (b.banks.readPrg address)
  else if 0x6000 ≤ address then b.banks.readWork address
  else none

def write (b : LatchBoard) (address : UInt16) (value : UInt8) : LatchBoard :=
  if 0x8000 ≤ address then b.latch value
  else if 0x6000 ≤ address ∧ writesWork b.wiring then
    { b with banks := b.banks.writeWork address value }
  else b

/-- The reset line reaches two of the boards and clears their latches. -/
def reset (b : LatchBoard) : LatchBoard :=
  match b.wiring with
  | .axrom | .gxrom => b.latch 0
  | _ => b

end LatchBoard

end Famiclone
