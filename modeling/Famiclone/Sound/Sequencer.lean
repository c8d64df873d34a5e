import Famiclone.Region
import Famiclone.Word

/-!
# The frame sequencer

It divides a frame into steps at which the slow parts of the channels are clocked, and raises an
interrupt at the end of the shorter of its two modes. A write to its register takes effect a few
cycles later, always on a cycle of the same parity.
-/
namespace Famiclone

/-- The cycles of a period at which the sequencer acts. -/
structure Schedule where
  first : Nat
  second : Nat
  third : Nat
  fourth : Nat
  fifth : Nat
  /-- Where the period ends. -/
  last : Nat
  deriving DecidableEq, Repr

def Schedule.of : Region → (fiveStep : Bool) → Schedule
  | .ntsc, false => ⟨7457, 14913, 22371, 29828, 29829, 29830⟩
  | .ntsc, true => ⟨7457, 14913, 22371, 29829, 37281, 37282⟩
  | .pal, false => ⟨8313, 16627, 24939, 33252, 33253, 33254⟩
  | .pal, true => ⟨8313, 16627, 24939, 33253, 41565, 41566⟩

/-- What the sequencer does in one cycle. -/
structure FrameEvent where
  /-- Clock envelopes and the linear counter. -/
  quarter : Bool
  /-- Clock length counters and sweeps. -/
  half : Bool
  /-- Raise the interrupt, unless it is inhibited. -/
  irq : Bool
  deriving DecidableEq, Repr

/-- What happens at a cycle of the period. -/
def Schedule.event (s : Schedule) (fiveStep : Bool) (cycle : Nat) : FrameEvent :=
  if cycle = s.first ∨ cycle = s.third then ⟨true, false, false⟩
  else if cycle = s.second then ⟨true, true, false⟩
  else if cycle = s.fourth then ⟨false, false, !fiveStep⟩
  else if cycle = s.fifth then ⟨true, true, !fiveStep⟩
  else if cycle = s.last then ⟨false, false, !fiveStep⟩
  else ⟨false, false, false⟩

structure Sequencer where
  region : Region
  fiveStep : Bool
  /-- The mode that the next restart sets. -/
  nextFiveStep : Bool
  inhibit : Bool
  irqFlag : Bool
  /-- Cycles since the start of the period. -/
  cycle : Nat
  /-- Cycles until a restart, zero when none is due. -/
  restartIn : Nat
  deriving DecidableEq, Repr

namespace Sequencer

def initial (region : Region) : Sequencer := ⟨region, false, false, false, false, 0, 0⟩

/-- Write the register; `odd` tells the parity of the cycles that have elapsed. -/
def write (s : Sequencer) (value : UInt8) (odd : Bool) : Sequencer :=
  { s with
    nextFiveStep := bit value 7
    inhibit := bit value 6
    irqFlag := s.irqFlag && !bit value 6
    restartIn := if odd then 4 else 3 }

/-- The sequence starts again, with a clock of its own in the longer mode. -/
def restart (s : Sequencer) : FrameEvent × Sequencer :=
  (⟨s.nextFiveStep, s.nextFiveStep, false⟩,
    { s with cycle := 0, fiveStep := s.nextFiveStep, restartIn := 0 })

/-- One cycle of the sequence. -/
def advance (s : Sequencer) : FrameEvent × Sequencer :=
  let schedule := Schedule.of s.region s.fiveStep
  let event := schedule.event s.fiveStep (s.cycle + 1)
  (event, { s with
    cycle := if s.cycle + 1 = schedule.last then 0 else s.cycle + 1
    irqFlag := s.irqFlag || (event.irq && !s.inhibit) })

def tick (s : Sequencer) : FrameEvent × Sequencer :=
  if s.restartIn = 1 then s.restart
  else { s with restartIn := s.restartIn - 1 }.advance

end Sequencer

end Famiclone
