import Famiclone.Region
import Famiclone.Sound.Envelope

/-!
# The noise channel

A shift register of fifteen bits, fed back from two of them, makes a sequence that sounds like
noise.
-/
namespace Famiclone

structure Noise where
  region : Region
  /-- Whether the feedback is taken from a near bit, which makes a short sequence. -/
  shortMode : Bool
  period : Nat
  timer : Nat
  shift : Nat
  envelope : Envelope
  length : LengthCounter
  deriving DecidableEq, Repr

namespace Noise

/-- Processor cycles between two shifts. -/
def periods : Region → Vector Nat 16
  | .ntsc => #v[4, 8, 16, 32, 64, 96, 128, 160, 202, 254, 380, 508, 762, 1016, 2034, 4068]
  | .pal => #v[4, 8, 14, 30, 60, 88, 118, 148, 188, 236, 354, 472, 708, 944, 1890, 3778]

def initial (region : Region) : Noise where
  region
  shortMode := false
  period := (periods region).get 0 - 1
  timer := 0
  shift := 1
  envelope := .initial
  length := .initial

def write (c : Noise) (register : Fin 4) (value : UInt8) : Noise :=
  match register with
  | 0 =>
    { c with
      length := { c.length with halt := bit value 5 }
      envelope := c.envelope.write value }
  | 1 => c
  | 2 =>
    { c with
      shortMode := bit value 7
      period := (periods c.region).get (.ofNat 16 value.toNat) - 1 }
  | 3 =>
    { c with
      length := c.length.load value
      envelope := { c.envelope with start := true } }

/-- One shift: the exclusive or of two bits enters at the top. -/
def advance (shortMode : Bool) (shift : Nat) : Nat :=
  let tap := if shortMode then 6 else 1
  shift / 2 + if shift.testBit 0 != shift.testBit tap then 0x4000 else 0

/-- A timer clock, every processor cycle. -/
def clockTimer (c : Noise) : Noise :=
  if c.timer = 0 then { c with timer := c.period, shift := advance c.shortMode c.shift }
  else { c with timer := c.timer - 1 }

/-- The level now, at most fifteen. -/
def output (c : Noise) : Nat :=
  if c.shift % 2 = 1 ∨ ¬ c.length.active then 0 else c.envelope.output

end Noise

end Famiclone
