import Famiclone.Cells

/-!
# Colours

A finished frame holds six-bit colour numbers. Here they become `0xRRGGBB` values, and here it is
decided which of them are bright enough for a light sensor.
-/
namespace Famiclone.Palette

def colours : Vector UInt32 64 := #v[
  0x626262, 0x001FB2, 0x2404C8, 0x5200B2, 0x730076, 0x800024, 0x730B00, 0x522800,
  0x244400, 0x005700, 0x005C00, 0x005324, 0x003C76, 0x000000, 0x000000, 0x000000,
  0xABABAB, 0x0D57FF, 0x4B30FF, 0x8A13FF, 0xBC08D6, 0xD21269, 0xC72E00, 0x9D5400,
  0x607B00, 0x209800, 0x00A300, 0x009942, 0x007DB4, 0x000000, 0x000000, 0x000000,
  0xFFFFFF, 0x53AEFF, 0x9085FF, 0xD365FF, 0xFF57FF, 0xFF5DCF, 0xFF7757, 0xFA9E00,
  0xBDC700, 0x7AE700, 0x43F611, 0x26EF7E, 0x2CD5F6, 0x4E4E4E, 0x000000, 0x000000,
  0xFFFFFF, 0xB6E1FF, 0xCED1FF, 0xE9C3FF, 0xFFBCFF, 0xFFBDF4, 0xFFC6C3, 0xFFD59A,
  0xE9E681, 0xCEF481, 0xB6FB9A, 0xA9FAC3, 0xA9F0F4, 0xB8B8B8, 0x000000, 0x000000]

/-- The colour with the given number; the two highest bits of the number do not matter. -/
def rgb (index : UInt8) : UInt32 := colours.get (.ofNat 64 index.toNat)

/-- A colour triggers a light sensor when its three components add up to at least `0x180`. -/
def isBright (index : UInt8) : Bool :=
  let c := (rgb index).toNat
  decide (0x180 ≤ c / 65536 % 256 + c / 256 % 256 + c % 256)

/-- A frame in `0x00RRGGBB` pixels. -/
def rgbFrame (indices : Array UInt8) : Array UInt32 := indices.map rgb

end Famiclone.Palette
