import Famiclone.Sound.Envelope

/-!
# Pulse channels

A square wave with four duty cycles, an envelope, a length counter and a sweep that bends the
period. The two channels differ in how a downward sweep subtracts.
-/
namespace Famiclone

/-- Replace the low eight of eleven bits of a period. -/
def setPeriodLow (period : Nat) (value : UInt8) : Nat := period / 256 % 8 * 256 + value.toNat

/-- Replace the high three of eleven bits of a period. -/
def setPeriodHigh (period : Nat) (value : UInt8) : Nat := period % 256 + value.toNat % 8 * 256

structure Pulse where
  /-- Whether a downward sweep takes off one more. -/
  onesComplement : Bool
  duty : Fin 4
  step : Fin 8
  period : Nat
  timer : Nat
  envelope : Envelope
  length : LengthCounter
  sweepEnabled : Bool
  sweepPeriod : Nat
  sweepNegate : Bool
  sweepShift : Nat
  sweepReload : Bool
  sweepDivider : Nat
  deriving DecidableEq, Repr

namespace Pulse

def initial (onesComplement : Bool) : Pulse where
  onesComplement
  duty := 0
  step := 0
  period := 0
  timer := 0
  envelope := .initial
  length := .initial
  sweepEnabled := false
  sweepPeriod := 0
  sweepNegate := false
  sweepShift := 0
  sweepReload := false
  sweepDivider := 0

/-- Whether the wave is high, for each duty cycle and step. -/
def wave (duty : Fin 4) (step : Fin 8) : Bool :=
  match duty with
  | 0 => step = 1
  | 1 => step = 1 ∨ step = 2
  | 2 => 1 ≤ step ∧ step ≤ 4
  | 3 => ¬ (step = 1 ∨ step = 2)

def write (c : Pulse) (register : Fin 4) (value : UInt8) : Pulse :=
  match register with
  | 0 =>
    { c with
      duty := .ofNat 4 (value.toNat / 64)
      length := { c.length with halt := bit value 5 }
      envelope := c.envelope.write value }
  | 1 =>
    { c with
      sweepEnabled := bit value 7
      sweepPeriod := value.toNat / 16 % 8
      sweepNegate := bit value 3
      sweepShift := value.toNat % 8
      sweepReload := true }
  | 2 => { c with period := setPeriodLow c.period value }
  | 3 =>
    { c with
      period := setPeriodHigh c.period value
      length := c.length.load value
      step := 0
      envelope := { c.envelope with start := true } }

/-- The period that the sweep would set. -/
def sweepTarget (c : Pulse) : Nat :=
  let change := c.period >>> c.sweepShift
  if c.sweepNegate then
    if c.onesComplement then c.period - change - 1 else c.period - change
  else c.period + change

/-- A channel is silent while its period is too short or the sweep would make it too long. -/
def muted (c : Pulse) : Bool := decide (c.period < 8 ∨ 0x7FF < c.sweepTarget)

/-- A timer clock, every other processor cycle. -/
def clockTimer (c : Pulse) : Pulse :=
  if c.timer = 0 then { c with timer := c.period, step := c.step + 1 }
  else { c with timer := c.timer - 1 }

def clockSweep (c : Pulse) : Pulse :=
  let bends := c.sweepDivider = 0 ∧ c.sweepEnabled ∧ 0 < c.sweepShift ∧ ¬ c.muted
  let period := if bends then c.sweepTarget else c.period
  if c.sweepDivider = 0 ∨ c.sweepReload then
    { c with period, sweepDivider := c.sweepPeriod, sweepReload := false }
  else { c with period, sweepDivider := c.sweepDivider - 1 }

/-- The level now, at most fifteen. -/
def output (c : Pulse) : Nat :=
  if c.muted ∨ ¬ c.length.active ∨ ¬ wave c.duty c.step then 0 else c.envelope.output

end Pulse

end Famiclone
