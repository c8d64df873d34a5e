import Famiclone.Flags

/-!
# The control registers of the picture unit
-/
namespace Famiclone

structure Control where
  byte : UInt8
  deriving DecidableEq, Repr

namespace Control

/-- How far the data port moves on after an access. -/
def stride (c : Control) : Nat := if bit c.byte 2 then 32 else 1

/-- Whether small sprites use the second pattern table. -/
def spriteTable (c : Control) : Bool := bit c.byte 3

def backgroundTable (c : Control) : Bool := bit c.byte 4

/-- Whether sprites are sixteen lines high. -/
def tallSprites (c : Control) : Bool := bit c.byte 5

def spriteHeight (c : Control) : Nat := if c.tallSprites then 16 else 8

def nmiEnabled (c : Control) : Bool := bit c.byte 7

/-- The names of the bits, lowest first. -/
def names : List String := ["NAMETABLE_X", "NAMETABLE_Y", "INCREMENT_32", "SPRITE_TABLE",
  "BACKGROUND_TABLE", "SPRITE_16", "MASTER_SLAVE", "NMI_ENABLE"]

end Control

structure Mask where
  byte : UInt8
  deriving DecidableEq, Repr

namespace Mask

/-- Whether colours lose their hue. -/
def grayscale (m : Mask) : Bool := bit m.byte 0

def showsBackground (m : Mask) : Bool := bit m.byte 3

def showsSprites (m : Mask) : Bool := bit m.byte 4

/-- Whether the background is shown in a column; the eight columns on the left can be left out. -/
def backgroundAt (m : Mask) (x : Nat) : Bool := m.showsBackground && (8 ≤ x || bit m.byte 1)

def spritesAt (m : Mask) (x : Nat) : Bool := m.showsSprites && (8 ≤ x || bit m.byte 2)

/-- Whether the unit renders: it does when it shows anything. -/
def renders (m : Mask) : Bool := m.showsBackground || m.showsSprites

/-- The colour that is put out for one of the palette. -/
def tint (m : Mask) (colour : UInt8) : UInt8 := if m.grayscale then colour &&& 0x30 else colour

def names : List String := ["GRAYSCALE", "SHOW_BACKGROUND_LEFT", "SHOW_SPRITES_LEFT",
  "SHOW_BACKGROUND", "SHOW_SPRITES", "EMPHASIZE_RED", "EMPHASIZE_GREEN", "EMPHASIZE_BLUE"]

end Mask

/-- What the status register reports. -/
structure PictureStatus where
  spriteOverflow : Bool
  spriteZeroHit : Bool
  vblank : Bool
  deriving DecidableEq, Repr

namespace PictureStatus

def clear : PictureStatus := ⟨false, false, false⟩

/-- The upper three bits of the status register. -/
def toByte (s : PictureStatus) : UInt8 :=
  UInt8.ofNat (32 * s.spriteOverflow.toNat + 64 * s.spriteZeroHit.toNat + 128 * s.vblank.toNat)

/-- The names of the bits, lowest first; the lower five have none. -/
def names : List String := ["", "", "", "", "", "SPRITE_OVERFLOW", "SPRITE_ZERO_HIT", "VBLANK"]

end PictureStatus

end Famiclone
