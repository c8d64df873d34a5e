import Famiclone.Board.Latch
import Famiclone.Board.Mmc1
import Famiclone.Board.Mmc3

/-!
# Boards

What can be in the cartridge slot: nothing, or one of the boards. The processor reaches a board at
`$4020-$FFFF`, the picture unit at `$0000-$1FFF` of its own bus.
-/
namespace Famiclone

/-- The contents of the cartridge slot. -/
inductive Board where
  | empty
  | latch (board : LatchBoard)
  | mmc1 (board : Mmc1)
  | mmc3 (board : Mmc3)

namespace Board

/-- The board with a given number, freshly powered. -/
def ofMapper? (number : Nat) (wired : Mirroring) (banks : Banks) : Option Board :=
  match number with
  | 0 => some (latch (.mount .fixed banks wired))
  | 1 => some (mmc1 (.mount banks))
  | 2 => some (latch (.mount .uxrom banks wired))
  | 3 => some (latch (.mount .cnrom banks wired))
  | 4 => some (mmc3 (.mount banks wired))
  | 7 => some (latch (.mount .axrom banks wired))
  | 11 => some (latch (.mount .colorDreams banks wired))
  | 34 => some (latch (.mount .bnrom banks wired))
  | 66 => some (latch (.mount .gxrom banks wired))
  | _ => none

def banks? : Board → Option Banks
  | empty => none
  | latch b => some b.banks
  | mmc1 b => some b.banks
  | mmc3 b => some b.banks

def mapBanks (f : Banks → Banks) : Board → Board
  | empty => empty
  | latch b => latch { b with banks := f b.banks }
  | mmc1 b => mmc1 { b with banks := f b.banks }
  | mmc3 b => mmc3 { b with banks := f b.banks }

/-- Read processor space; where nothing answers the bus keeps its last value. -/
def readPrg : Board → UInt16 → Option UInt8
  | empty, _ => none
  | latch b, a => b.read a
  | mmc1 b, a => b.read a
  | mmc3 b, a => b.read a

def writePrg : Board → UInt16 → UInt8 → Board
  | empty, _, _ => empty
  | latch b, a, v => latch (b.write a v)
  | mmc1 b, a, v => mmc1 (b.write a v)
  | mmc3 b, a, v => mmc3 (b.write a v)

/-- Read pattern memory; an empty slot reads zero. -/
def readChr : Board → UInt16 → UInt8
  | empty, _ => 0
  | latch b, a => b.banks.readChr a
  | mmc1 b, a => b.banks.readChr a
  | mmc3 b, a => b.banks.readChr a

def writeChr (b : Board) (address : UInt16) (value : UInt8) : Board :=
  b.mapBanks fun m => m.writeChr address value

def mirroring : Board → Mirroring
  | empty => .horizontal
  | latch b => b.mirroring
  | mmc1 b => b.mirroring
  | mmc3 b => b.mirroring

def observe : Board → UInt16 → Board
  | mmc3 b, a => mmc3 (b.observe a)
  | b, _ => b

def clock : Board → Board
  | mmc1 b => mmc1 b.clock
  | mmc3 b => mmc3 b.clock
  | b => b

def irq : Board → Bool
  | mmc3 b => b.irqPending
  | _ => false

/-- The reset line. Work RAM keeps its contents. -/
def reset : Board → Board
  | empty => empty
  | latch b => latch b.reset
  | mmc1 b => mmc1 b.reset
  | mmc3 b => mmc3 b.reset

def workRam? (b : Board) : Option (Array UInt8) :=
  (b.banks?.map Banks.workRam).filter fun ram => !ram.isEmpty

/-- Change the work RAM, whatever protection is set. -/
def mapWorkRam (f : Array UInt8 → Array UInt8) (b : Board) : Board :=
  b.mapBanks fun m => { m with workRam := f m.workRam }

/-- Whether the work RAM keeps its contents without power. -/
def hasBattery (b : Board) : Bool :=
  match b.banks? with
  | some m => m.battery
  | none => false

end Board

end Famiclone
