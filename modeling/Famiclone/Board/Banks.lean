import Famiclone.Cartridge.Header

/-!
# Memory banks

The memory chips of a cartridge and the windows through which the console sees them. The program
shows through four windows of 8 KiB, the pattern memory through eight of 1 KiB. A bank switch of a
larger size moves several windows at once.
-/
namespace Famiclone

def prgWindow : Nat := 0x2000

def chrWindow : Nat := 0x0400

/-- Point the `count` windows from `first` on at consecutive pieces of the bank with number `bank`,
where `size` is the size of a window and `total` that of the memory. Bank numbers are taken modulo
the number of banks, so negative ones count from the end; a bank larger than the memory repeats
it. -/
def selectWindows {n : Nat} (windows : Vector Nat n) (size total first count : Nat) (bank : Int) :
    Vector Nat n :=
  if total = 0 then windows
  else
    let banks := max (total / (size * count)) 1
    let base := (bank % banks).toNat * (size * count)
    Vector.ofFn fun i =>
      if first ≤ i.val ∧ i.val < first + count then (base + (i.val - first) * size) % total
      else windows.get i

/-- The chips of a cartridge with the windows in force. -/
structure Banks where
  prg : Array UInt8
  chr : Array UInt8
  /-- Whether the pattern memory is RAM. -/
  chrWritable : Bool
  /-- Work RAM, possibly none. -/
  workRam : Array UInt8
  battery : Bool
  /-- Offset into the program of each window from `$8000` on. -/
  prgWindows : Vector Nat 4
  /-- Offset into the pattern memory of each window. -/
  chrWindows : Vector Nat 8

namespace Banks

/-- Select an 8 KiB program bank into one of the four windows. -/
def setPrg8 (b : Banks) (slot : Nat) (bank : Int) : Banks :=
  { b with prgWindows := selectWindows b.prgWindows prgWindow b.prg.size slot 1 bank }

def setPrg16 (b : Banks) (slot : Nat) (bank : Int) : Banks :=
  { b with prgWindows := selectWindows b.prgWindows prgWindow b.prg.size (slot * 2) 2 bank }

def setPrg32 (b : Banks) (bank : Int) : Banks :=
  { b with prgWindows := selectWindows b.prgWindows prgWindow b.prg.size 0 4 bank }

/-- Select a 1 KiB pattern bank into one of the eight windows. -/
def setChr1 (b : Banks) (slot : Nat) (bank : Int) : Banks :=
  { b with chrWindows := selectWindows b.chrWindows chrWindow b.chr.size slot 1 bank }

def setChr2 (b : Banks) (slot : Nat) (bank : Int) : Banks :=
  { b with chrWindows := selectWindows b.chrWindows chrWindow b.chr.size (slot * 2) 2 bank }

def setChr4 (b : Banks) (slot : Nat) (bank : Int) : Banks :=
  { b with chrWindows := selectWindows b.chrWindows chrWindow b.chr.size (slot * 4) 4 bank }

def setChr8 (b : Banks) (bank : Int) : Banks :=
  { b with chrWindows := selectWindows b.chrWindows chrWindow b.chr.size 0 8 bank }

/-- Mount the memory of an image. A board without pattern ROM carries pattern RAM instead. -/
def mount (h : Header) (prg chr : Array UInt8) : Banks :=
  let b : Banks := {
    prg
    chr := if chr.isEmpty then Array.replicate h.chrRamSize 0 else chr
    chrWritable := chr.isEmpty
    workRam := Array.replicate h.workRamSize 0
    battery := h.hasBattery
    prgWindows := Vector.replicate 4 0
    chrWindows := Vector.replicate 8 0 }
  (b.setPrg32 0).setChr8 0

def prgBanks16 (b : Banks) : Nat := b.prg.size / 0x4000

/-- The place in the program that shows at an address from `$8000` on. -/
def prgOffset (b : Banks) (address : UInt16) : Nat :=
  b.prgWindows[address.toNat / prgWindow % 4] + address.toNat % prgWindow

/-- Read the program through its windows; outside the memory there is zero. -/
def readPrg (b : Banks) (address : UInt16) : UInt8 := b.prg.getD (b.prgOffset address) 0

/-- The place in the pattern memory that shows at an address; the lowest thirteen bits count. -/
def chrOffset (b : Banks) (address : UInt16) : Nat :=
  b.chrWindows[address.toNat / chrWindow % 8] + address.toNat % chrWindow

/-- Read the pattern memory through its windows; outside the memory there is zero. -/
def readChr (b : Banks) (address : UInt16) : UInt8 := b.chr.getD (b.chrOffset address) 0

/-- Write the pattern memory; a ROM, or a place outside the memory, keeps what it holds. -/
def writeChr (b : Banks) (address : UInt16) (value : UInt8) : Banks :=
  if b.chrWritable then { b with chr := b.chr.setIfInBounds (b.chrOffset address) value } else b

/-- The place in work RAM that shows at an address from `$6000` on; a smaller memory repeats. -/
def workOffset (b : Banks) (address : UInt16) : Nat :=
  (address.toNat - 0x6000) % b.workRam.size

def readWork (b : Banks) (address : UInt16) : Option UInt8 := b.workRam[b.workOffset address]?

def writeWork (b : Banks) (address : UInt16) (value : UInt8) : Banks :=
  { b with workRam := b.workRam.setIfInBounds (b.workOffset address) value }

def describe (b : Banks) : String :=
  let offsets {n : Nat} (v : Vector Nat n) := ", ".intercalate (v.toList.map toString)
  "Banks \x7b prg_rom: " ++ toString b.prg.size ++ ", chr: " ++ toString b.chr.size ++
    ", chr_writable: " ++ toString b.chrWritable ++ ", prg_ram: " ++ toString b.workRam.size ++
    ", prg_slots: [" ++ offsets b.prgWindows ++ "], chr_slots: [" ++ offsets b.chrWindows ++ "] \x7d"

end Banks

end Famiclone
