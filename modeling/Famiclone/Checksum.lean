/-!
# Checksum

The 32-bit cyclic redundancy check with the reflected polynomial `0xEDB88320`, all ones at the
start and complemented at the end. Cartridges are identified by it.
-/
namespace Famiclone.Checksum

/-- Divide out one bit, lowest first. -/
def shiftBit (c : UInt32) : UInt32 :=
  if c &&& 1 = 1 then (c >>> 1) ^^^ 0xEDB88320 else c >>> 1

/-- The effect of eight bits at once, indexed by the low byte. -/
def table : Vector UInt32 256 :=
  Vector.ofFn fun i => Nat.repeat shiftBit 8 (UInt32.ofNat i)

def absorb (c : UInt32) (b : UInt8) : UInt32 :=
  table[((c ^^^ b.toUInt32).toNat % 256 : Nat)] ^^^ (c >>> 8)

def crc32 (bytes : Array UInt8) : UInt32 :=
  bytes.foldl absorb 0xFFFFFFFF ^^^ 0xFFFFFFFF

end Famiclone.Checksum
