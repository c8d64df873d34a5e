import Famiclone.Region

/-!
# Audio output

The channels' levels are mixed by the non-linear curves of the output stage and averaged down to the
sample rate of the host. Nothing here acts back on the channels.
-/
namespace Famiclone

structure ChannelSwitches where
  pulse1 : Bool := true
  pulse2 : Bool := true
  triangle : Bool := true
  noise : Bool := true
  delta : Bool := true
  deriving DecidableEq, Repr

/-- How sound is delivered to the host. -/
structure AudioSettings where
  /-- Whether samples are produced at all. -/
  enabled : Bool := true
  /-- Samples in a second. -/
  sampleRate : Nat := 44100
  volume : Float32 := 1.0
  channels : ChannelSwitches := {}
  deriving BEq

structure Levels where
  pulse1 : Nat
  pulse2 : Nat
  triangle : Nat
  noise : Nat
  delta : Nat

namespace Levels

/-- Silence the channels that are switched off. -/
def gate (l : Levels) (s : ChannelSwitches) : Levels where
  pulse1 := if s.pulse1 then l.pulse1 else 0
  pulse2 := if s.pulse2 then l.pulse2 else 0
  triangle := if s.triangle then l.triangle else 0
  noise := if s.noise then l.noise else 0
  delta := if s.delta then l.delta else 0

/-- The output of the stage for the two pulse channels, by the sum of their levels. -/
def pulseCurve : Array Float32 :=
  (Array.range 31).map fun n => if n = 0 then 0 else 95.52 / (8128.0 / Float32.ofNat n + 100.0)

/-- The output of the stage for the other channels, by the weighted sum of their levels. -/
def restCurve : Array Float32 :=
  (Array.range 203).map fun n =>
    if n = 0 then 0 else 163.67 / (24329.0 / Float32.ofNat n + 100.0)

def mix (l : Levels) : Float32 :=
  pulseCurve.getD (l.pulse1 + l.pulse2) 0 +
    restCurve.getD (3 * l.triangle + 2 * l.noise + l.delta) 0

end Levels

/-- The bits of a sample. Silence at an infinite volume is no number, and such a sample has its sign
set. -/
def sampleBits (x : Float32) : UInt32 := if x.isNaN then 0xFFC00000 else x.toBits

/-- The averaging of mixed output into samples. -/
structure Sampler where
  settings : AudioSettings
  /-- Processor cycles for each sample. -/
  period : Float
  /-- Cycles since the last sample. -/
  clock : Float
  sum : Float32
  count : Nat
  /-- Samples not taken by the host yet. -/
  samples : Array Float32

namespace Sampler

/-- Processor cycles for each sample; a rate of zero counts as one. -/
def periodOf (region : Region) (settings : AudioSettings) : Float :=
  Float.ofNat region.clockRate / Float.ofNat (max settings.sampleRate 1)

def initial (region : Region) (settings : AudioSettings) : Sampler where
  settings
  period := periodOf region settings
  clock := 0
  sum := 0
  count := 0
  samples := #[]

/-- Take new settings and go on. -/
def setSettings (s : Sampler) (region : Region) (settings : AudioSettings) : Sampler :=
  { s with settings, period := periodOf region settings }

/-- Take in the levels of one cycle, and give out their average when a sample is due. -/
def absorb (s : Sampler) (levels : Levels) : Sampler :=
  let sum := s.sum + (levels.gate s.settings.channels).mix
  let count := s.count + 1
  let clock := s.clock + 1
  if s.period ≤ clock then
    let average := sum / Float32.ofNat count
    { s with
      clock := clock - s.period
      sum := 0
      count := 0
      samples := s.samples.push (average * s.settings.volume) }
  else { s with clock, sum, count }

end Sampler

end Famiclone
