import Famiclone.Board.Mirroring
import Famiclone.Region

/-!
# Image headers

A cartridge image begins with sixteen bytes that describe it. There are two layouts of them, the
old one and the extended one ("NES 2.0"). The fields are kept as they stand in the image; what
they mean in their layout is computed from them.
-/
namespace Famiclone

/-- Why an image is not a cartridge. -/
inductive LoadError where
  | shorterThanHeader (size : Nat)
  | missingMagic
  | noProgram
  /-- The image ends before the memory that its header declares. -/
  | truncated (declared held : Nat)
  | unsupportedMapper (number : Nat)
  deriving DecidableEq, Repr

/-- Whether the fault lies in the header or its sizes, and not in the kind of board. -/
def LoadError.isHeaderFault : LoadError → Bool
  | .unsupportedMapper _ => false
  | _ => true

def LoadError.message : LoadError → String
  | .shorterThanHeader size =>
    "invalid ROM header: image is " ++ toString size ++ " bytes, shorter than the header"
  | .missingMagic => "invalid ROM header: missing NES<EOF> magic"
  | .noProgram => "invalid ROM header: no PRG ROM declared"
  | .truncated declared held =>
    "invalid ROM header: header declares " ++ toString declared ++
      " bytes of ROM data, image holds " ++ toString held
  | .unsupportedMapper number => "unsupported mapper " ++ toString number

/-- The description at the start of a cartridge image. -/
structure Header where
  /-- Program memory in units of 16 KiB. -/
  prgUnits : Nat
  /-- Pattern memory in units of 8 KiB. -/
  chrUnits : Nat
  flags6 : UInt8
  /-- The eighth byte, or zero where the old layout carries text in its tail. -/
  flags7 : UInt8
  byte8 : UInt8
  byte9 : UInt8
  byte10 : UInt8
  byte11 : UInt8
  byte12 : UInt8
  deriving DecidableEq, Repr

namespace Header

def size : Nat := 16

/-- Bytes of a trainer, which may stand between the header and the program. -/
def trainerSize : Nat := 512

/-- The first four bytes of every image. -/
def magic : List UInt8 := [0x4E, 0x45, 0x53, 0x1A]

/-- Whether an eighth byte announces the extended layout. -/
def announcesExtended (flags7 : UInt8) : Bool := flags7 &&& 0x0C == 0x08

/-- Read the header of an image. Sizes have twelve bits in the extended layout and eight in the
old one; an old header whose last four bytes are not all zero carries text from its eighth byte on,
which is then ignored. -/
def parse (image : Array UInt8) : Except LoadError Header :=
  if h : image.size < size then
    .error (.shorterThanHeader image.size)
  else
    have h : 16 ≤ image.size := Nat.le_of_not_lt h
    if [image[0], image[1], image[2], image[3]] ≠ magic then
      .error .missingMagic
    else
      let extended := announcesExtended image[7]
      let text := !extended &&
        (image[12] != 0 || image[13] != 0 || image[14] != 0 || image[15] != 0)
      let prgHigh := if extended then image[9].toNat % 16 else 0
      let chrHigh := if extended then image[9].toNat / 16 else 0
      .ok {
        prgUnits := image[4].toNat + 256 * prgHigh
        chrUnits := image[5].toNat + 256 * chrHigh
        flags6 := image[6]
        flags7 := if text then 0 else image[7]
        byte8 := image[8]
        byte9 := image[9]
        byte10 := image[10]
        byte11 := image[11]
        byte12 := image[12] }

def extended (h : Header) : Bool := announcesExtended h.flags7

/-- The number of the board: four bits in each of two flag bytes, and four more in the extended
layout. -/
def mapper (h : Header) : Nat :=
  h.flags6.toNat / 16 + h.flags7.toNat / 16 * 16 +
    if h.extended then h.byte8.toNat % 16 * 256 else 0

/-- The variant of the board, which only the extended layout can name. -/
def submapper (h : Header) : Nat := if h.extended then h.byte8.toNat / 16 else 0

def hasTrainer (h : Header) : Bool := h.flags6 &&& 0x04 != 0

def hasBattery (h : Header) : Bool := h.flags6 &&& 0x02 != 0

def mirroring (h : Header) : Mirroring :=
  if h.flags6 &&& 0x08 != 0 then .fourScreen
  else if h.flags6 &&& 0x01 != 0 then .vertical
  else .horizontal

def prgSize (h : Header) : Nat := h.prgUnits * 0x4000

def chrSize (h : Header) : Nat := h.chrUnits * 0x2000

/-- A size given by its power of two, counted from 64; zero stands for no memory. -/
def shiftSize (shift : Nat) : Nat := if shift = 0 then 0 else 64 <<< shift

/-- Bytes of work RAM: the larger of the two that the extended layout names, and in the old layout
a number of 8 KiB units that counts as one when it is zero. -/
def workRamSize (h : Header) : Nat :=
  if h.extended then
    max (shiftSize (h.byte10.toNat % 16)) (shiftSize (h.byte10.toNat / 16))
  else
    max h.byte8.toNat 1 * 0x2000

def declaredChrRam (h : Header) : Nat :=
  if h.extended then shiftSize (h.byte11.toNat % 16) else 0

/-- Bytes of pattern RAM on a board without pattern ROM; 8 KiB where none is declared. -/
def chrRamSize (h : Header) : Nat := if h.declaredChrRam = 0 then 0x2000 else h.declaredChrRam

/-- The region the cartridge asks for, if it asks for one. -/
def regionHint (h : Header) : Option Region :=
  if (if h.extended then h.byte12 &&& 0x03 == 1 else h.byte9 &&& 0x01 != 0) then some .pal
  else none

def prgStart (h : Header) : Nat := size + if h.hasTrainer then trainerSize else 0

def chrStart (h : Header) : Nat := h.prgStart + h.prgSize

def romEnd (h : Header) : Nat := h.chrStart + h.chrSize

theorem chrRamSize_pos (h : Header) : 0 < h.chrRamSize := by
  unfold chrRamSize; split <;> omega

end Header

end Famiclone
