import Famiclone.Board
import Famiclone.Checksum
import Famiclone.Hex

/-!
# Cartridges

A cartridge image is a header, perhaps a trainer, the program and the patterns. Loading one checks
that all of the declared memory is there and mounts it on its board. Bytes after the declared memory
do not matter.
-/
namespace Famiclone

structure Cartridge where
  header : Header
  /-- The checksum of program and patterns, by which saved memory is found again. -/
  id : String
  board : Board

/-- Load the image of a cartridge, for which saved memory is found by any checksum. -/
def Cartridge.ofImageBy (checksum : Array UInt8 → UInt32) (image : Array UInt8) :
    Except LoadError Cartridge := do
  let header ← Header.parse image
  if header.prgUnits = 0 then
    throw .noProgram
  if image.size < header.romEnd then
    throw (.truncated (header.romEnd - Header.size) (image.size - Header.size))
  let prg := image.extract header.prgStart header.chrStart
  let chr := image.extract header.chrStart header.romEnd
  match Board.ofMapper? header.mapper header.mirroring (.mount header prg chr) with
  | none => throw (.unsupportedMapper header.mapper)
  | some board =>
    let sum := checksum (image.extract header.prgStart header.romEnd)
    return { header, id := Hex.padded 8 sum.toNat, board }

def Cartridge.ofImage (image : Array UInt8) : Except LoadError Cartridge :=
  ofImageBy Checksum.crc32 image

end Famiclone
