import Famiclone.Sound.Pulse

/-!
# The triangle channel

A fixed wave of thirty-two steps, which stands still when either of two counters has run out.
-/
namespace Famiclone

structure Triangle where
  period : Nat
  timer : Nat
  step : Fin 32
  length : LengthCounter
  /-- Holds both counters. -/
  control : Bool
  linearPeriod : Nat
  linear : Nat
  linearReload : Bool
  deriving DecidableEq, Repr

namespace Triangle

def initial : Triangle := ⟨0, 0, 0, .initial, false, 0, 0, false⟩

def write (c : Triangle) (register : Fin 4) (value : UInt8) : Triangle :=
  match register with
  | 0 =>
    { c with
      control := bit value 7
      length := { c.length with halt := bit value 7 }
      linearPeriod := value.toNat % 128 }
  | 1 => c
  | 2 => { c with period := setPeriodLow c.period value }
  | 3 =>
    { c with
      period := setPeriodHigh c.period value
      length := c.length.load value
      linearReload := true }

/-- A timer clock, every processor cycle. -/
def clockTimer (c : Triangle) : Triangle :=
  if c.timer = 0 then
    { c with
      timer := c.period
      step := if c.length.active ∧ 0 < c.linear then c.step + 1 else c.step }
  else { c with timer := c.timer - 1 }

/-- A quarter-frame clock. -/
def clockLinear (c : Triangle) : Triangle :=
  { c with
    linear := if c.linearReload then c.linearPeriod else c.linear - 1
    linearReload := c.linearReload && c.control }

/-- The level now: it falls from fifteen to zero and rises again. -/
def output (c : Triangle) : Nat := if c.step < 16 then 15 - c.step.val else c.step.val - 16

end Triangle

end Famiclone
