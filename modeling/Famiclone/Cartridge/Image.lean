import Famiclone.Word

/-!
# Images around a program

The image of a plain cartridge that holds a given program, for running the program in a console.
-/
namespace Famiclone.Cartridge

/-- The header of the image: 32 KiB of program, 8 KiB of patterns and work RAM with a battery. -/
def plainHeader : List UInt8 :=
  [0x4E, 0x45, 0x53, 0x1A, 2, 1, 0x02, 0, 0, 0, 0, 0, 0, 0, 0, 0]

def programSize : Nat := 0x8000

def patternSize : Nat := 0x2000

/-- The place of the handler that returns at once. -/
def idleHandler : Nat := 0x7FF0

/-- Put bytes in a row into a memory, around whose end they wrap. -/
def place (memory : Array UInt8) (start : Nat) (bytes : List UInt8) : Array UInt8 :=
  bytes.zipIdx.foldl (fun m e => m.setIfInBounds ((start + e.2) % memory.size) e.1) memory

/-- A word as it stands in memory. -/
def wordBytes (w : UInt16) : List UInt8 := [lowByte w, highByte w]

/-- The program memory with a program at an address, at which it starts. The other two vectors lead
to the idle handler. -/
def programMemory (program : List UInt8) (origin : UInt16) : Array UInt8 :=
  let idle : UInt16 := UInt16.ofNat (0x8000 + idleHandler)
  let filled := place (.replicate programSize 0xEA) (origin.toNat % programSize) program
  place (place filled idleHandler [0x40]) (programSize - 6)
    (wordBytes idle ++ wordBytes origin ++ wordBytes idle)

def imageOfProgram (program : List UInt8) (origin : UInt16) : Array UInt8 :=
  plainHeader.toArray ++ programMemory program origin ++ Array.replicate patternSize 0

end Famiclone.Cartridge
