import Famiclone.Picture.Scroll

/-!
# The background

Tiles are fetched two ahead of the beam. What has been fetched of the next tile waits in latches; the
tiles before it move through shift registers, from whose upper half the fine scroll picks one bit.
-/
namespace Famiclone

/-- One pixel of a layer before it has a colour; pattern zero is transparent. -/
structure Pixel where
  pattern : Fin 4
  palette : Fin 8
  deriving DecidableEq, Repr

def Pixel.transparent : Pixel := ⟨0, 0⟩

/-- The palette cell of a pixel that is not transparent. -/
def Pixel.cell (p : Pixel) : Fin 32 := .ofNat 32 (4 * p.palette.val + p.pattern.val)

def twoBits (high low : Bool) : Fin 4 := .ofNat 4 (2 * high.toNat + low.toNat)

structure Background where
  tile : UInt8
  palette : Fin 4
  /-- The line of the next tile, low bits and high bits. -/
  patternLow : UInt8
  patternHigh : UInt8
  /-- The shift registers of the pattern, low bits and high bits. -/
  shiftLow : UInt16
  shiftHigh : UInt16
  /-- The shift registers of the palette, low bits and high bits. -/
  paletteLow : UInt16
  paletteHigh : UInt16
  deriving DecidableEq, Repr

namespace Background

def initial : Background := ⟨0, 0, 0, 0, 0, 0, 0, 0⟩

/-- Move the shift registers by one pixel. -/
def shift (b : Background) : Background :=
  { b with
    shiftLow := b.shiftLow <<< 1
    shiftHigh := b.shiftHigh <<< 1
    paletteLow := b.paletteLow <<< 1
    paletteHigh := b.paletteHigh <<< 1 }

def spread (b : Bool) : UInt8 := if b then 0xFF else 0

/-- Put the next tile into the lower halves of the shift registers. -/
def load (b : Background) : Background :=
  { b with
    shiftLow := word (highByte b.shiftLow) b.patternLow
    shiftHigh := word (highByte b.shiftHigh) b.patternHigh
    paletteLow := word (highByte b.paletteLow) (spread (b.palette.val.testBit 0))
    paletteHigh := word (highByte b.paletteHigh) (spread (b.palette.val.testBit 1)) }

/-- The address of a line of a tile in a pattern table, low bits; the high bits are eight behind. -/
def patternAddress (table : Bool) (tile : UInt8) (line : Fin 8) : UInt16 :=
  UInt16.ofNat (4096 * table.toNat + 16 * tile.toNat + line.val)

/-- The pixel that the shift registers put out. -/
def pixel (b : Background) (fineX : Fin 8) : Pixel :=
  let out (register : UInt16) : Bool := register.toNat.testBit (15 - fineX.val)
  ⟨twoBits (out b.shiftHigh) (out b.shiftLow),
    .ofNat 8 (twoBits (out b.paletteHigh) (out b.paletteLow)).val⟩

end Background

end Famiclone
