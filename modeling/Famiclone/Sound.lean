import Famiclone.Sound.Delta
import Famiclone.Sound.Noise
import Famiclone.Sound.Sampler
import Famiclone.Sound.Sequencer
import Famiclone.Sound.Triangle

/-!
# The sound unit

Five channels driven by the frame sequencer and clocked once in each processor cycle, and the
sampler that listens to them.
-/
namespace Famiclone

/-- The channels and their sequencer. -/
structure SoundChip where
  pulse1 : Pulse
  pulse2 : Pulse
  triangle : Triangle
  noise : Noise
  delta : Delta
  sequencer : Sequencer
  /-- The last value written to the sequencer, which a reset writes again. -/
  sequencerValue : UInt8
  /-- Processor cycles since power-on. -/
  cycles : Nat

namespace SoundChip

def initial (region : Region) : SoundChip where
  pulse1 := .initial true
  pulse2 := .initial false
  triangle := .initial
  noise := .initial region
  delta := .initial region
  sequencer := .initial region
  sequencerValue := 0
  cycles := 0

/-- Whether an odd number of cycles has elapsed. -/
def odd (c : SoundChip) : Bool := c.cycles % 2 == 1

/-- Write the status register: enable or disable each channel, and acknowledge the sample
interrupt. -/
def writeStatus (c : SoundChip) (value : UInt8) : SoundChip :=
  { c with
    pulse1 := { c.pulse1 with length := c.pulse1.length.setEnabled (bit value 0) }
    pulse2 := { c.pulse2 with length := c.pulse2.length.setEnabled (bit value 1) }
    triangle := { c.triangle with length := c.triangle.length.setEnabled (bit value 2) }
    noise := { c.noise with length := c.noise.length.setEnabled (bit value 3) }
    delta := { c.delta.setEnabled (bit value 4) with irqFlag := false } }

def writeSequencer (c : SoundChip) (value : UInt8) : SoundChip :=
  { c with sequencerValue := value, sequencer := c.sequencer.write value c.odd }

/-- Write a register at `$4000-$4017`. -/
def write (c : SoundChip) (address : UInt16) (value : UInt8) : SoundChip :=
  let register : Fin 4 := .ofNat 4 address.toNat
  if 0x4000 ≤ address ∧ address ≤ 0x4013 then
    match (address.toNat - 0x4000) / 4 with
    | 0 => { c with pulse1 := c.pulse1.write register value }
    | 1 => { c with pulse2 := c.pulse2.write register value }
    | 2 => { c with triangle := c.triangle.write register value }
    | 3 => { c with noise := c.noise.write register value }
    | _ => { c with delta := c.delta.write register value }
  else if address = 0x4015 then c.writeStatus value
  else if address = 0x4017 then c.writeSequencer value
  else c

/-- The status register: which channels play, and the two interrupt flags. -/
def status (c : SoundChip) : UInt8 :=
  UInt8.ofNat (c.pulse1.length.active.toNat + 2 * c.pulse2.length.active.toNat +
    4 * c.triangle.length.active.toNat + 8 * c.noise.length.active.toNat +
    16 * (decide (0 < c.delta.remaining)).toNat + 64 * c.sequencer.irqFlag.toNat +
    128 * c.delta.irqFlag.toNat)

/-- Reading the status acknowledges the frame interrupt. -/
def readStatus (c : SoundChip) : UInt8 × SoundChip :=
  (c.status, { c with sequencer := { c.sequencer with irqFlag := false } })

/-- The reset line silences the channels and writes the sequencer's last value again. -/
def reset (c : SoundChip) : SoundChip :=
  let c := c.writeStatus 0
  let c := { c with
    delta := { c.delta with level := c.delta.level % 2 }
    sequencer := { c.sequencer with irqFlag := false } }
  { c with sequencer := c.sequencer.write c.sequencerValue c.odd }

def clockQuarter (c : SoundChip) : SoundChip :=
  { c with
    pulse1 := { c.pulse1 with envelope := c.pulse1.envelope.clock }
    pulse2 := { c.pulse2 with envelope := c.pulse2.envelope.clock }
    noise := { c.noise with envelope := c.noise.envelope.clock }
    triangle := c.triangle.clockLinear }

def clockHalf (c : SoundChip) : SoundChip :=
  { c with
    pulse1 := { c.pulse1 with length := c.pulse1.length.clock }.clockSweep
    pulse2 := { c.pulse2 with length := c.pulse2.length.clock }.clockSweep
    triangle := { c.triangle with length := c.triangle.length.clock }
    noise := { c.noise with length := c.noise.length.clock } }

/-- The channels' timers; those of the pulses run at half speed. -/
def clockTimers (c : SoundChip) : SoundChip :=
  { c with
    pulse1 := if c.odd then c.pulse1 else c.pulse1.clockTimer
    pulse2 := if c.odd then c.pulse2 else c.pulse2.clockTimer
    triangle := c.triangle.clockTimer
    noise := c.noise.clockTimer
    delta := c.delta.clockTimer }

def tick (c : SoundChip) : SoundChip :=
  let (event, sequencer) := c.sequencer.tick
  let c := { c with cycles := c.cycles + 1, sequencer }
  let c := if event.quarter then c.clockQuarter else c
  let c := if event.half then c.clockHalf else c
  c.clockTimers

def levels (c : SoundChip) : Levels where
  pulse1 := c.pulse1.output
  pulse2 := c.pulse2.output
  triangle := c.triangle.output
  noise := c.noise.output
  delta := c.delta.level

end SoundChip

structure Sound where
  region : Region
  chip : SoundChip
  sampler : Sampler

namespace Sound

def initial (region : Region) (settings : AudioSettings) : Sound where
  region
  chip := .initial region
  sampler := .initial region settings

/-- Back to the state at power-on; the settings stay. -/
def powerOn (s : Sound) : Sound := initial s.region s.sampler.settings

def reset (s : Sound) : Sound := { s with chip := s.chip.reset }

def setSettings (s : Sound) (settings : AudioSettings) : Sound :=
  { s with sampler := s.sampler.setSettings s.region settings }

def write (s : Sound) (address : UInt16) (value : UInt8) : Sound :=
  { s with chip := s.chip.write address value }

def readStatus (s : Sound) : UInt8 × Sound :=
  let (value, chip) := s.chip.readStatus
  (value, { s with chip })

def tick (s : Sound) : Sound :=
  let chip := s.chip.tick
  if s.sampler.settings.enabled then { s with chip, sampler := s.sampler.absorb chip.levels }
  else { s with chip }

/-- Hand over the byte that the sample channel asked for. -/
def deliver (s : Sound) (value : UInt8) : Sound :=
  { s with chip := { s.chip with delta := s.chip.delta.fill value } }

def takeSamples (s : Sound) : Array Float32 × Sound :=
  (s.sampler.samples, { s with sampler := { s.sampler with samples := #[] } })

end Sound

end Famiclone
