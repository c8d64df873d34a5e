import Famiclone.Board

/-!
# The picture bus

What the picture unit needs of the cartridge: pattern memory, the arrangement of the nametables, and
someone who sees the addresses that it puts on its bus.
-/
namespace Famiclone

/-- A cartridge as the picture unit sees it. -/
class PictureBus (β : Type) where
  readChr : β → UInt16 → UInt8
  writeChr : β → UInt16 → UInt8 → β
  mirroring : β → Mirroring
  /-- See an address on the bus. -/
  observe : β → UInt16 → β

instance : PictureBus Board where
  readChr := Board.readChr
  writeChr := Board.writeChr
  mirroring := Board.mirroring
  observe := Board.observe

end Famiclone
