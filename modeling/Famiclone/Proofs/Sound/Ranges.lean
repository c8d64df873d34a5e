import Famiclone.Proofs.Sound.Averaging
import Famiclone.Proofs.Sound.Channels

/-!
# The sound unit in its ranges

The sound unit goes through ticks, writes, reads of its status, bytes handed to the sample channel,
resets and changes of its settings in any order. What holds of its parts at all times lets each of them
pass the checks of the checked operations.
-/
namespace Famiclone

open Checked (long? minus? below? long?_eq minus?_eq below?_eq)

/-! ## The sequencer -/

namespace Sequencer

structure InRange (s : Sequencer) : Prop where
  cycle : s.cycle < (Schedule.of s.region s.fiveStep).last

/-- One cycle of the sequence. -/
def advance? (s : Sequencer) : Option (FrameEvent × Sequencer) := do
  let schedule := Schedule.of s.region s.fiveStep
  let cycle ← long? (s.cycle + 1)
  let event := schedule.event s.fiveStep cycle
  return (event, { s with
    cycle := if cycle = schedule.last then 0 else cycle
    irqFlag := s.irqFlag || (event.irq && !s.inhibit) })

def tick? (s : Sequencer) : Option (FrameEvent × Sequencer) :=
  if s.restartIn = 0 then s.advance?
  else do
    let restartIn ← minus? s.restartIn 1
    if restartIn = 0 then return s.restart else advance? { s with restartIn }

variable {s : Sequencer}

theorem last_bounds (region : Region) (fiveStep : Bool) :
    0 < (Schedule.of region fiveStep).last ∧ (Schedule.of region fiveStep).last < 0x100000000 := by
  cases region <;> cases fiveStep <;> decide

theorem InRange.advance?_eq (h : s.InRange) : s.advance? = some s.advance := by
  have cycle := h.cycle
  have last := last_bounds s.region s.fiveStep
  unfold advance?
  rw [long?_eq (by omega)]
  rfl

theorem InRange.tick?_eq (h : s.InRange) : s.tick? = some s.tick := by
  unfold tick? tick
  by_cases none : s.restartIn = 0
  · have stays : s.restartIn - 1 = s.restartIn := by omega
    rw [if_pos none, if_neg (by omega), stays]
    exact h.advance?_eq
  · rw [if_neg none, minus?_eq (by omega)]
    by_cases due : s.restartIn = 1
    · rw [if_pos due, due]
      rfl
    · have waiting : { s with restartIn := s.restartIn - 1 }.InRange := ⟨h.cycle⟩
      rw [if_neg due]
      exact (if_neg (by omega)).trans waiting.advance?_eq

theorem initial_inRange (region : Region) : (initial region).InRange :=
  ⟨(last_bounds region false).1⟩

theorem InRange.write (h : s.InRange) (value : UInt8) (odd : Bool) : (s.write value odd).InRange :=
  ⟨h.cycle⟩

theorem InRange.advance (h : s.InRange) : s.advance.2.InRange := by
  have cycle := h.cycle
  have last := last_bounds s.region s.fiveStep
  refine ⟨?_⟩
  unfold Sequencer.advance
  dsimp only
  split <;> omega

theorem InRange.tick (h : s.InRange) : s.tick.2.InRange := by
  have waiting : { s with restartIn := s.restartIn - 1 }.InRange := ⟨h.cycle⟩
  unfold Sequencer.tick
  split
  · exact ⟨(last_bounds s.region s.nextFiveStep).1⟩
  · exact waiting.advance

theorem tick_region (s : Sequencer) : s.tick.2.region = s.region := by
  unfold tick
  split <;> rfl

end Sequencer

/-! ## The chip -/

def Pulse.clockHalf? (c : Pulse) : Option Pulse := do
  let length ← c.length.clock?
  clockSweep? { c with length }

namespace SoundChip

structure InRange (c : SoundChip) : Prop where
  pulse1 : c.pulse1.InRange
  pulse2 : c.pulse2.InRange
  triangle : c.triangle.InRange
  noise : c.noise.InRange
  delta : c.delta.InRange
  sequencer : c.sequencer.InRange

def initial? (region : Region) : Option SoundChip := do
  return { initial region with noise := ← Noise.initial? region, delta := ← Delta.initial? region }

def write? (c : SoundChip) (address : UInt16) (value : UInt8) : Option SoundChip := do
  let register ← below? 4 (address.toNat % 4)
  if 0x4000 ≤ address ∧ address ≤ 0x4013 then
    match (address.toNat - 0x4000) / 4 with
    | 0 => return { c with pulse1 := ← c.pulse1.write? register value }
    | 1 => return { c with pulse2 := ← c.pulse2.write? register value }
    | 2 => return { c with triangle := ← c.triangle.write? register value }
    | 3 => return { c with noise := ← c.noise.write? register value }
    | _ => return { c with delta := ← c.delta.write? register value }
  else if address = 0x4015 then return c.writeStatus value
  else if address = 0x4017 then return c.writeSequencer value
  else return c

def clockQuarter? (c : SoundChip) : Option SoundChip := do
  let pulse1 := { c.pulse1 with envelope := ← c.pulse1.envelope.clock? }
  let pulse2 := { c.pulse2 with envelope := ← c.pulse2.envelope.clock? }
  let noise := { c.noise with envelope := ← c.noise.envelope.clock? }
  let triangle ← c.triangle.clockLinear?
  return { c with pulse1, pulse2, noise, triangle }

def clockHalf? (c : SoundChip) : Option SoundChip := do
  let pulse1 ← c.pulse1.clockHalf?
  let pulse2 ← c.pulse2.clockHalf?
  let triangle := { c.triangle with length := ← c.triangle.length.clock? }
  let noise := { c.noise with length := ← c.noise.length.clock? }
  return { c with pulse1, pulse2, triangle, noise }

def clockTimers? (c : SoundChip) : Option SoundChip := do
  let pulse1 ← (if c.odd then some c.pulse1 else c.pulse1.clockTimer?)
  let pulse2 ← (if c.odd then some c.pulse2 else c.pulse2.clockTimer?)
  let triangle ← c.triangle.clockTimer?
  let noise ← c.noise.clockTimer?
  let delta ← c.delta.clockTimer?
  return { c with pulse1, pulse2, triangle, noise, delta }

def tick? (c : SoundChip) : Option SoundChip := do
  let due ← c.sequencer.tick?
  let c := { c with cycles := c.cycles + 1, sequencer := due.2 }
  let c ← (if due.1.quarter then c.clockQuarter? else some c)
  let c ← (if due.1.half then c.clockHalf? else some c)
  c.clockTimers?

def levels? (c : SoundChip) : Option Levels := do
  return {
    pulse1 := ← c.pulse1.output?
    pulse2 := ← c.pulse2.output?
    triangle := ← c.triangle.output?
    noise := c.noise.output
    delta := c.delta.level }

variable {c : SoundChip}

theorem initial?_eq (region : Region) : initial? region = some (initial region) := by
  unfold initial?
  rw [Noise.initial?_eq, Delta.initial?_eq]
  rfl

theorem write?_eq (c : SoundChip) (address : UInt16) (value : UInt8) :
    c.write? address value = some (c.write address value) := by
  have register : below? 4 (address.toNat % 4) = some (Fin.ofNat 4 address.toNat) :=
    below?_eq (Nat.mod_lt _ (by decide))
  unfold write? write
  rw [register]
  simp only [Option.bind_eq_bind, Option.bind_some, Pulse.write?_eq, Triangle.write?_eq,
    Noise.write?_eq, Delta.write?_eq, Option.pure_def]
  split_ifs
  · generalize (address.toNat - 0x4000) / 4 = unit
    rcases unit with _ | _ | _ | _ | _ <;> rfl
  · rfl
  · rfl
  · rfl

theorem clockQuarter?_eq (c : SoundChip) : c.clockQuarter? = some c.clockQuarter := by
  unfold clockQuarter?
  simp only [Envelope.clock?_eq, Triangle.clockLinear?_eq, Option.bind_eq_bind, Option.bind_some]
  rfl

theorem InRange.clockHalf?_eq (h : c.InRange) : c.clockHalf? = some c.clockHalf := by
  have first : { c.pulse1 with length := c.pulse1.length.clock }.InRange :=
    ⟨h.pulse1.period, h.pulse1.sweepShift, h.pulse1.envelope, h.pulse1.length.clock⟩
  have second : { c.pulse2 with length := c.pulse2.length.clock }.InRange :=
    ⟨h.pulse2.period, h.pulse2.sweepShift, h.pulse2.envelope, h.pulse2.length.clock⟩
  unfold clockHalf? Pulse.clockHalf?
  simp only [LengthCounter.clock?_eq, Option.bind_eq_bind, Option.bind_some, first.clockSweep?_eq,
    second.clockSweep?_eq]
  rfl

theorem InRange.clockTimers?_eq (h : c.InRange) : c.clockTimers? = some c.clockTimers := by
  have ticked (odd : Bool) (p : Pulse) : (if odd then some p else p.clockTimer?) =
      some (if odd then p else p.clockTimer) := by
    rw [Pulse.clockTimer?_eq, apply_ite some]
  unfold clockTimers?
  simp only [ticked, Triangle.clockTimer?_eq, h.noise.clockTimer?_eq, h.delta.clockTimer?_eq,
    Option.bind_eq_bind, Option.bind_some]
  rfl

theorem InRange.levels?_eq (h : c.InRange) : c.levels? = some c.levels := by
  unfold levels?
  rw [h.pulse1.output?_eq, h.pulse2.output?_eq, Triangle.output?_eq]
  rfl

theorem InRange.levels (h : c.InRange) : c.levels.InRange :=
  ⟨h.pulse1.output_le, h.pulse2.output_le, c.triangle.output_le, h.noise.output_le, h.delta.level⟩

theorem initial_inRange (region : Region) : (initial region).InRange :=
  ⟨Pulse.initial_inRange true, Pulse.initial_inRange false, Triangle.initial_inRange,
    Noise.initial_inRange region, Delta.initial_inRange region, Sequencer.initial_inRange region⟩

theorem InRange.writeStatus (h : c.InRange) (value : UInt8) : (c.writeStatus value).InRange where
  pulse1 := ⟨h.pulse1.period, h.pulse1.sweepShift, h.pulse1.envelope,
    c.pulse1.length.setEnabled_inRange _⟩
  pulse2 := ⟨h.pulse2.period, h.pulse2.sweepShift, h.pulse2.envelope,
    c.pulse2.length.setEnabled_inRange _⟩
  triangle := ⟨h.triangle.period, c.triangle.length.setEnabled_inRange _⟩
  noise := ⟨h.noise.shift_pos, h.noise.shift_le, h.noise.envelope,
    c.noise.length.setEnabled_inRange _⟩
  delta :=
    have enabled := h.delta.setEnabled (bit value 4)
    ⟨enabled.level, enabled.bits_pos, enabled.bits_le⟩
  sequencer := h.sequencer

theorem InRange.write (h : c.InRange) (address : UInt16) (value : UInt8) :
    (c.write address value).InRange := by
  unfold SoundChip.write
  dsimp only
  split_ifs
  · split
    · exact { h with pulse1 := h.pulse1.write _ _ }
    · exact { h with pulse2 := h.pulse2.write _ _ }
    · exact { h with triangle := h.triangle.write _ _ }
    · exact { h with noise := h.noise.write _ _ }
    · exact { h with delta := h.delta.write _ _ }
  · exact h.writeStatus value
  · exact { h with sequencer := h.sequencer.write _ _ }
  · exact h

theorem InRange.readStatus (h : c.InRange) : c.readStatus.2.InRange :=
  { h with sequencer := ⟨h.sequencer.cycle⟩ }

theorem InRange.reset (h : c.InRange) : c.reset.InRange := by
  have silent := h.writeStatus 0
  have level : (c.writeStatus 0).delta.level % 2 ≤ 127 :=
    Nat.le_trans (Nat.mod_le _ _) silent.delta.level
  exact { silent with
    delta := ⟨level, silent.delta.bits_pos, silent.delta.bits_le⟩
    sequencer := ⟨silent.sequencer.cycle⟩ }

theorem InRange.clockQuarter (h : c.InRange) : c.clockQuarter.InRange where
  pulse1 := { h.pulse1 with envelope := h.pulse1.envelope.clock }
  pulse2 := { h.pulse2 with envelope := h.pulse2.envelope.clock }
  triangle := h.triangle.clockLinear
  noise := { h.noise with envelope := h.noise.envelope.clock }
  delta := h.delta
  sequencer := h.sequencer

theorem InRange.clockHalf (h : c.InRange) : c.clockHalf.InRange where
  pulse1 := Pulse.InRange.clockSweep { h.pulse1 with length := h.pulse1.length.clock }
  pulse2 := Pulse.InRange.clockSweep { h.pulse2 with length := h.pulse2.length.clock }
  triangle := { h.triangle with length := h.triangle.length.clock }
  noise := { h.noise with length := h.noise.length.clock }
  delta := h.delta
  sequencer := h.sequencer

theorem InRange.clockTimers (h : c.InRange) : c.clockTimers.InRange := by
  have ticked (odd : Bool) {p : Pulse} (range : p.InRange) :
      (if odd then p else p.clockTimer).InRange := by
    split
    · exact range
    · exact range.clockTimer
  exact ⟨ticked c.odd h.pulse1, ticked c.odd h.pulse2, h.triangle.clockTimer, h.noise.clockTimer,
    h.delta.clockTimer, h.sequencer⟩

/-! ### A tick in its stages -/

/-- The cycle has been counted, and the sequencer has moved. -/
def counted (c : SoundChip) : SoundChip :=
  { c with cycles := c.cycles + 1, sequencer := c.sequencer.tick.2 }

/-- The envelopes have been clocked, if that is due. -/
def afterQuarter (c : SoundChip) : SoundChip :=
  if c.sequencer.tick.1.quarter then c.counted.clockQuarter else c.counted

/-- The length counters and the sweeps have been clocked, if that is due. -/
def afterHalf (c : SoundChip) : SoundChip :=
  if c.sequencer.tick.1.half then c.afterQuarter.clockHalf else c.afterQuarter

theorem tick_eq (c : SoundChip) : c.tick = c.afterHalf.clockTimers := rfl

theorem InRange.counted (h : c.InRange) : c.counted.InRange :=
  { h with sequencer := h.sequencer.tick }

theorem InRange.afterQuarter (h : c.InRange) : c.afterQuarter.InRange := by
  unfold SoundChip.afterQuarter
  split
  · exact h.counted.clockQuarter
  · exact h.counted

theorem InRange.afterHalf (h : c.InRange) : c.afterHalf.InRange := by
  unfold SoundChip.afterHalf
  split
  · exact h.afterQuarter.clockHalf
  · exact h.afterQuarter

theorem InRange.tick (h : c.InRange) : c.tick.InRange := by
  rw [tick_eq]
  exact h.afterHalf.clockTimers

theorem tick_sequencer (c : SoundChip) : c.tick.sequencer = c.sequencer.tick.2 := by
  have quarter : c.afterQuarter.sequencer = c.sequencer.tick.2 := by
    unfold afterQuarter
    split <;> rfl
  show c.afterHalf.sequencer = _
  unfold afterHalf
  split <;> exact quarter

theorem write_region (c : SoundChip) (address : UInt16) (value : UInt8) :
    (c.write address value).sequencer.region = c.sequencer.region := by
  unfold write
  dsimp only
  split_ifs
  · split <;> rfl
  · rfl
  · rfl
  · rfl

theorem InRange.tick?_eq (h : c.InRange) : c.tick? = some c.tick := by
  have quarter : (if c.sequencer.tick.1.quarter then c.counted.clockQuarter? else some c.counted) =
      some c.afterQuarter := by
    rw [clockQuarter?_eq, SoundChip.afterQuarter, apply_ite some]
  have half : (if c.sequencer.tick.1.half then c.afterQuarter.clockHalf? else some c.afterQuarter) =
      some c.afterHalf := by
    rw [h.afterQuarter.clockHalf?_eq, SoundChip.afterHalf, apply_ite some]
  unfold tick?
  rw [h.sequencer.tick?_eq]
  simp only [Option.bind_eq_bind, Option.bind_some]
  rw [← SoundChip.counted, quarter, Option.bind_some, half, Option.bind_some,
    h.afterHalf.clockTimers?_eq, tick_eq]

/-! ### The pulse channels -/

/-- One of the two pulse channels. -/
def pulse (c : SoundChip) : (second : Bool) → Pulse
  | false => c.pulse1
  | true => c.pulse2

theorem InRange.pulse (h : c.InRange) (second : Bool) : (c.pulse second).InRange := by
  cases second
  · exact h.pulse1
  · exact h.pulse2

theorem clockQuarter_tuning (c : SoundChip) (second : Bool) :
    (c.clockQuarter.pulse second).tuning = (c.pulse second).tuning := by
  cases second <;> rfl

theorem clockHalf_tuning {second : Bool} (silent : (c.pulse second).muted) :
    (c.clockHalf.pulse second).tuning = (c.pulse second).tuning := by
  cases second <;> exact Pulse.clockSweep_tuning silent

theorem clockTimers_tuning (c : SoundChip) (second : Bool) :
    (c.clockTimers.pulse second).tuning = (c.pulse second).tuning := by
  have ticked (odd : Bool) (p : Pulse) : (if odd then p else p.clockTimer).tuning = p.tuning := by
    split
    · rfl
    · exact p.clockTimer_tuning
  cases second <;> exact ticked _ _

theorem tick_tuning {second : Bool} (silent : (c.pulse second).muted) :
    (c.tick.pulse second).tuning = (c.pulse second).tuning := by
  have counted : (c.counted.pulse second).tuning = (c.pulse second).tuning := by
    cases second <;> rfl
  have quarter : (c.afterQuarter.pulse second).tuning = (c.pulse second).tuning := by
    unfold afterQuarter
    split
    · exact (c.counted.clockQuarter_tuning second).trans counted
    · exact counted
  have half : (c.afterHalf.pulse second).tuning = (c.pulse second).tuning := by
    unfold afterHalf
    split
    · exact (clockHalf_tuning ((Pulse.muted_of_tuning quarter).trans silent)).trans quarter
    · exact quarter
  exact (c.afterHalf.clockTimers_tuning second).trans half

/-- Whether a write goes to a register of one of the pulse channels. -/
def Tunes (second : Bool) (address : UInt16) : Prop :=
  (address.toNat - 0x4000) / 4 = second.toNat ∧ 0x4000 ≤ address

theorem write_tuning {second : Bool} {address : UInt16} (other : ¬ Tunes second address)
    (value : UInt8) : ((c.write address value).pulse second).tuning = (c.pulse second).tuning := by
  unfold Tunes at other
  unfold write
  dsimp only
  split_ifs with channels
  · generalize (address.toNat - 0x4000) / 4 = unit at other ⊢
    cases second with
    | false =>
      rcases unit with _ | _ | _ | _ | _
      · exact absurd ⟨rfl, channels.1⟩ other
      all_goals rfl
    | true =>
      rcases unit with _ | _ | _ | _ | _
      · rfl
      · exact absurd ⟨rfl, channels.1⟩ other
      all_goals rfl
  · cases second <;> rfl
  · cases second <;> rfl
  · rfl

end SoundChip

/-! ## The unit -/

namespace Sound

/-- What can happen to the unit. -/
inductive Event where
  | tick
  | write (address : UInt16) (value : UInt8)
  | readStatus
  | deliver (value : UInt8)
  | takeSamples
  | reset
  | powerOn
  | setSettings (settings : AudioSettings)

def happen (s : Sound) : Event → Sound
  | .tick => s.tick
  | .write address value => s.write address value
  | .readStatus => s.readStatus.2
  | .deliver value => s.deliver value
  | .takeSamples => s.takeSamples.2
  | .reset => s.reset
  | .powerOn => s.powerOn
  | .setSettings settings => s.setSettings settings

def behind (s : Sound) (events : List Event) : Sound := events.foldl happen s

def initial? (region : Region) (settings : AudioSettings) : Option Sound := do
  return { initial region settings with chip := ← SoundChip.initial? region }

def tick? (s : Sound) : Option Sound := do
  let chip ← s.chip.tick?
  if s.sampler.settings.enabled then
    return { s with chip, sampler := ← s.sampler.absorb? (← chip.levels?) }
  else return { s with chip }

/-- The unit behind an event, with checks. The other events compute with single bits. -/
def happen? (s : Sound) : Event → Option Sound
  | .tick => s.tick?
  | .write address value => do return { s with chip := ← s.chip.write? address value }
  | .deliver value => do
    return { s with chip := { s.chip with delta := ← s.chip.delta.fill? value } }
  | .powerOn => initial? s.region s.sampler.settings
  | event => some (s.happen event)

def behind? (s : Sound) (events : List Event) : Option Sound := events.foldlM happen? s

/-- What holds of the unit at all times. -/
structure InRange (s : Sound) : Prop where
  chip : s.chip.InRange
  sampler : s.sampler.InRange
  region : s.chip.sequencer.region = s.region

variable {s : Sound}

theorem initial?_eq (region : Region) (settings : AudioSettings) :
    initial? region settings = some (initial region settings) := by
  unfold initial?
  rw [SoundChip.initial?_eq]
  rfl

theorem InRange.tick?_eq (h : s.InRange) : s.tick? = some s.tick := by
  unfold tick? tick
  rw [h.chip.tick?_eq]
  simp only [Option.bind_eq_bind, Option.bind_some, h.chip.tick.levels?_eq,
    h.sampler.absorb?_eq h.chip.tick.levels]
  split <;> rfl

theorem InRange.happen?_eq (h : s.InRange) (event : Event) :
    s.happen? event = some (s.happen event) := by
  cases event with
  | tick => exact h.tick?_eq
  | write address value =>
    show (do return { s with chip := ← s.chip.write? address value }) = _
    rw [SoundChip.write?_eq]
    rfl
  | deliver value =>
    show (do return { s with chip := { s.chip with delta := ← s.chip.delta.fill? value } }) = _
    rw [Delta.fill?_eq]
    rfl
  | powerOn => exact initial?_eq s.region s.sampler.settings
  | readStatus | takeSamples | reset | setSettings => rfl

theorem initial_inRange (region : Region) (settings : AudioSettings) :
    (initial region settings).InRange :=
  ⟨SoundChip.initial_inRange region, Sampler.initial_inRange region settings, rfl⟩

theorem tick_chip (s : Sound) : s.tick.chip = s.chip.tick := by
  unfold tick
  split <;> rfl

theorem InRange.tick (h : s.InRange) : s.tick.InRange := by
  have region : s.chip.tick.sequencer.region = s.region := by
    rw [SoundChip.tick_sequencer, Sequencer.tick_region]
    exact h.region
  unfold Sound.tick
  dsimp only
  split
  · exact ⟨h.chip.tick, h.sampler.absorb _, region⟩
  · exact ⟨h.chip.tick, h.sampler, region⟩

/-- What one event preserves. -/
theorem InRange.happen (h : s.InRange) (event : Event) : (s.happen event).InRange := by
  cases event with
  | tick => exact h.tick
  | write address value =>
    exact ⟨h.chip.write address value, h.sampler, (s.chip.write_region _ _).trans h.region⟩
  | readStatus => exact ⟨h.chip.readStatus, h.sampler, h.region⟩
  | deliver value => exact ⟨{ h.chip with delta := h.chip.delta.fill value }, h.sampler, h.region⟩
  | takeSamples => exact ⟨h.chip, ⟨h.sampler.period, h.sampler.clock, h.sampler.count⟩, h.region⟩
  | reset => exact ⟨h.chip.reset, h.sampler, h.region⟩
  | powerOn => exact initial_inRange _ _
  | setSettings settings => exact ⟨h.chip, h.sampler.setSettings _ _, h.region⟩

theorem happen_region (s : Sound) (event : Event) : (s.happen event).region = s.region := by
  cases event with
  | tick =>
    show s.tick.region = _
    unfold tick
    split <;> rfl
  | write | readStatus | deliver | takeSamples | reset | powerOn | setSettings => rfl

/-- What a row of events preserves. -/
theorem InRange.behind?_eq (h : s.InRange) (events : List Event) :
    s.behind? events = some (s.behind events) ∧ (s.behind events).InRange ∧
      (s.behind events).region = s.region := by
  induction events generalizing s with
  | nil => exact ⟨rfl, h, rfl⟩
  | cons event rest ih =>
    obtain ⟨checked, range, region⟩ := ih (h.happen event)
    refine ⟨?_, range, region.trans (s.happen_region event)⟩
    unfold behind?
    rw [List.foldlM_cons, h.happen?_eq event]
    exact checked

/-! ## Silence because of a period -/

/-- The events that can change the period of a pulse channel that is silent because of it: a write to
one of its registers, and the return of the power, which clears them. -/
def Event.Tunes (second : Bool) : Event → Prop
  | .write address _ => SoundChip.Tunes second address
  | .powerOn => True
  | _ => False

theorem happen_tuning {second : Bool} {event : Event} (other : ¬ event.Tunes second)
    (silent : (s.chip.pulse second).muted) :
    ((s.happen event).chip.pulse second).tuning = (s.chip.pulse second).tuning := by
  cases event with
  | tick =>
    show (s.tick.chip.pulse second).tuning = _
    rw [tick_chip]
    exact SoundChip.tick_tuning silent
  | write address value => exact SoundChip.write_tuning other value
  | powerOn => exact absurd trivial other
  | readStatus | deliver | takeSamples | reset | setSettings => cases second <;> rfl

theorem behind_tuning {second : Bool} {events : List Event}
    (others : ∀ event ∈ events, ¬ event.Tunes second) (silent : (s.chip.pulse second).muted) :
    ((s.behind events).chip.pulse second).tuning = (s.chip.pulse second).tuning := by
  induction events generalizing s with
  | nil => rfl
  | cons event rest ih =>
    have first := happen_tuning (others event List.mem_cons_self) silent
    have later := ih (fun event member => others event (List.mem_cons_of_mem _ member))
      ((Pulse.muted_of_tuning first).trans silent)
    exact later.trans first

/-- In any row of events no check fails, from the return of the power on, and what the unit holds is in
its range. A pulse channel that is silent because of its period keeps it, and stays silent, until one of
its registers is written. -/
theorem remains_in_range (region : Region) (settings : AudioSettings) (events : List Event) :
    let s := (initial region settings).behind events
    (initial? region settings).bind (behind? · events) = some s ∧
      (∀ second, (s.chip.pulse second).period ≤ 2047) ∧ s.chip.triangle.period ≤ 2047 ∧
      (∀ second, (s.chip.pulse second).muted → ∀ more : List Event,
        (∀ event ∈ more, ¬ event.Tunes second) →
          ((s.behind more).chip.pulse second).muted ∧
            ((s.behind more).chip.pulse second).period = (s.chip.pulse second).period) ∧
      (∀ e ∈ [s.chip.pulse1.envelope, s.chip.pulse2.envelope, s.chip.noise.envelope],
        e.volume ≤ 15 ∧ e.decay ≤ 15) ∧
      (∀ c ∈ [s.chip.pulse1.length, s.chip.pulse2.length, s.chip.triangle.length, s.chip.noise.length],
        c.enabled = false → c.value = 0) ∧
      (1 ≤ s.chip.noise.shift ∧ s.chip.noise.shift ≤ 32767) ∧
      s.chip.delta.level ≤ 127 ∧ (1 ≤ s.chip.delta.bits ∧ s.chip.delta.bits ≤ 8) ∧
      s.chip.sequencer.cycle < (Schedule.of region s.chip.sequencer.fiveStep).last ∧
      ∀ switches, (s.chip.levels.gate switches).pulsePlace < 31 ∧
        (s.chip.levels.gate switches).restPlace < 203 := by
  have start := initial_inRange region settings
  obtain ⟨checked, range, same⟩ := start.behind?_eq events
  have region_eq : ((initial region settings).behind events).chip.sequencer.region = region :=
    range.region.trans same
  have cycle := range.chip.sequencer.cycle
  rw [region_eq] at cycle
  dsimp only
  generalize (initial region settings).behind events = s at checked range cycle ⊢
  obtain ⟨pulse1, pulse2, triangle, noise, delta, -⟩ := range.chip
  refine ⟨?_, fun second => (range.chip.pulse second).period, triangle.period, ?_, ?_, ?_,
    ⟨noise.shift_pos, noise.shift_le⟩, delta.level, ⟨delta.bits_pos, delta.bits_le⟩, cycle,
    fun switches => (range.chip.levels.gate switches).places⟩
  · rw [initial?_eq]
    exact checked
  · intro second silent more others
    have tuning := behind_tuning others silent
    exact ⟨(Pulse.muted_of_tuning tuning).trans silent, congrArg Prod.fst tuning⟩
  · simp only [List.forall_mem_cons, List.not_mem_nil, false_imp_iff, implies_true, and_true]
    exact ⟨⟨pulse1.envelope.volume, pulse1.envelope.decay⟩,
      ⟨pulse2.envelope.volume, pulse2.envelope.decay⟩, noise.envelope.volume, noise.envelope.decay⟩
  · simp only [List.forall_mem_cons, List.not_mem_nil, false_imp_iff, implies_true, and_true]
    exact ⟨pulse1.length.disabled, pulse2.length.disabled, triangle.length.disabled,
      noise.length.disabled⟩

end Sound

end Famiclone
