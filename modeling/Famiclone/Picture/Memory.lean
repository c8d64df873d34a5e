import Famiclone.Picture.Bus

/-!
# The memory behind the picture bus

Pattern memory is on the cartridge. The picture unit itself has nametables, which the cartridge
arranges, and the palette, whose first colours are shared by background and sprites.
-/
namespace Famiclone

structure VideoMemory where
  nametables : Vector UInt8 4096
  palette : Vector UInt8 32

namespace VideoMemory

def initial : VideoMemory := ⟨.replicate 4096 0, .replicate 32 0x0F⟩

/-- The palette cell at an address. The first of each four sprite colours is one of the
background's. -/
def paletteCell (address : Nat) : Fin 32 :=
  .ofNat 32 (if address % 4 = 0 then address % 16 else address)

variable {β : Type} [PictureBus β]

def peek (m : VideoMemory) (board : β) (address : UInt16) : UInt8 :=
  let a := address.toNat % 0x4000
  if a < 0x2000 then PictureBus.readChr board (UInt16.ofNat a)
  else if a < 0x3F00 then m.nametables.get ((PictureBus.mirroring board).cell a)
  else m.palette.get (paletteCell a)

/-- Put an address on the bus and read. -/
def fetch (m : VideoMemory) (board : β) (address : UInt16) : UInt8 × β :=
  let board := PictureBus.observe board address
  (m.peek board address, board)

/-- Write at an address of the bus. The palette keeps six bits. -/
def store (m : VideoMemory) (board : β) (address : UInt16) (value : UInt8) : VideoMemory × β :=
  let a := address.toNat % 0x4000
  if a < 0x2000 then (m, PictureBus.writeChr board (UInt16.ofNat a) value)
  else if a < 0x3F00 then
    let cell := (PictureBus.mirroring board).cell a
    ({ m with nametables := put m.nametables cell value }, board)
  else ({ m with palette := put m.palette (paletteCell a) (value &&& 0x3F) }, board)

end VideoMemory

end Famiclone
