import Famiclone.Cells
import Famiclone.Word

/-!
# Envelopes and length counters

The two units that pulse and noise channels share, and of which the triangle has one. An envelope
lets the volume fall; a length counter ends the note.
-/
namespace Famiclone

/-- A volume that is constant, or falls from fifteen to zero. -/
structure Envelope where
  /-- Start again with the next clock. -/
  start : Bool
  looping : Bool
  constant : Bool
  /-- The constant volume, and the period of the fall. -/
  volume : Nat
  divider : Nat
  decay : Nat
  deriving DecidableEq, Repr

namespace Envelope

def initial : Envelope := ⟨false, false, false, 0, 0, 0⟩

/-- Take the bits of a control register that belong to the envelope. -/
def write (e : Envelope) (value : UInt8) : Envelope :=
  { e with looping := bit value 5, constant := bit value 4, volume := value.toNat % 16 }

/-- A quarter-frame clock. -/
def clock (e : Envelope) : Envelope :=
  if e.start then { e with start := false, decay := 15, divider := e.volume }
  else if e.divider = 0 then
    { e with
      divider := e.volume
      decay := if 0 < e.decay then e.decay - 1 else if e.looping then 15 else 0 }
  else { e with divider := e.divider - 1 }

def output (e : Envelope) : Nat := if e.constant then e.volume else e.decay

end Envelope

def noteLengths : Vector Nat 32 := #v[
  10, 254, 20, 2, 40, 4, 80, 6, 160, 8, 60, 10, 14, 12, 26, 14,
  12, 16, 24, 18, 48, 20, 96, 22, 192, 24, 72, 26, 16, 28, 32, 30]

/-- The length of the note that a channel's fourth register starts. -/
def noteLength (value : UInt8) : Nat := noteLengths.get (.ofNat 32 (value.toNat / 8))

/-- What is left of a note. -/
structure LengthCounter where
  enabled : Bool
  halt : Bool
  value : Nat
  deriving DecidableEq, Repr

namespace LengthCounter

def initial : LengthCounter := ⟨false, false, 0⟩

/-- Start a note; a disabled channel starts none. -/
def load (c : LengthCounter) (value : UInt8) : LengthCounter :=
  if c.enabled then { c with value := noteLength value } else c

/-- Enable the channel, or disable it and end its note. -/
def setEnabled (c : LengthCounter) (enabled : Bool) : LengthCounter :=
  { c with enabled, value := if enabled then c.value else 0 }

/-- A half-frame clock. -/
def clock (c : LengthCounter) : LengthCounter :=
  if c.halt then c else { c with value := c.value - 1 }

def active (c : LengthCounter) : Bool := decide (0 < c.value)

end LengthCounter

end Famiclone
