import Famiclone.Proofs.Checked
import Famiclone.Sound
import Mathlib.Tactic.SplitIfs

/-!
# The channels in their ranges

What holds of each channel at all times, and the operations of the channels with checks on every sum,
every difference and every place in a table. In its range a channel passes all checks. Operations on
single bits and differences that stop at zero cannot fail and are taken over.
-/
namespace Famiclone

open Checked (byte? word? minus? shift? below? byte?_eq word?_eq minus?_eq shift?_eq below?_eq
  getElem?_fin)

/-! ## Envelopes -/

namespace Envelope

/-- What holds of an envelope at all times. -/
structure InRange (e : Envelope) : Prop where
  volume : e.volume ≤ 15
  decay : e.decay ≤ 15

def clock? (e : Envelope) : Option Envelope :=
  if e.start then some { e with start := false, decay := 15, divider := e.volume }
  else if e.divider = 0 then do
    let decay ← if 0 < e.decay then minus? e.decay 1 else some (if e.looping then 15 else 0)
    return { e with divider := e.volume, decay }
  else do return { e with divider := ← minus? e.divider 1 }

variable {e : Envelope}

theorem clock?_eq (e : Envelope) : e.clock? = some e.clock := by
  unfold clock? clock
  split
  · rfl
  · split
    · split
      · rw [minus?_eq ‹_›]
        rfl
      · rfl
    · rw [minus?_eq (by omega)]
      rfl

theorem initial_inRange : initial.InRange := ⟨by decide, by decide⟩

theorem InRange.write (h : e.InRange) (value : UInt8) : (e.write value).InRange :=
  ⟨Nat.le_of_lt_succ (Nat.mod_lt _ (by decide)), h.decay⟩

theorem InRange.clock (h : e.InRange) : e.clock.InRange := by
  have decay := h.decay
  unfold Envelope.clock
  split
  · exact ⟨h.volume, Nat.le_refl _⟩
  · split
    · refine ⟨h.volume, ?_⟩
      dsimp only
      split_ifs <;> omega
    · exact ⟨h.volume, decay⟩

theorem InRange.output_le (h : e.InRange) : e.output ≤ 15 := by
  unfold output
  split
  · exact h.volume
  · exact h.decay

end Envelope

/-! ## Length counters -/

namespace LengthCounter

structure InRange (c : LengthCounter) : Prop where
  disabled : c.enabled = false → c.value = 0

def load? (c : LengthCounter) (value : UInt8) : Option LengthCounter :=
  if c.enabled then do
    let place ← shift? 8 value.toNat 3
    return { c with value := ← noteLengths[place % 32]? }
  else some c

def clock? (c : LengthCounter) : Option LengthCounter :=
  if c.halt = false ∧ 0 < c.value then do return { c with value := ← minus? c.value 1 } else some c

variable {c : LengthCounter}

theorem load?_eq (c : LengthCounter) (value : UInt8) : c.load? value = some (c.load value) := by
  unfold load? load
  split
  · have place : (value.toNat >>> 3) % 32 = (Fin.ofNat 32 (value.toNat / 8)).val := by
      rw [Nat.shiftRight_eq_div_pow]
      rfl
    rw [shift?_eq (by decide)]
    simp only [Option.bind_eq_bind, Option.bind_some, getElem?_fin noteLengths place]
    rfl
  · rfl

theorem clock?_eq (c : LengthCounter) : c.clock? = some c.clock := by
  unfold clock? clock
  cases halt : c.halt with
  | true => rfl
  | false =>
    by_cases running : 0 < c.value
    · rw [if_pos ⟨rfl, running⟩, minus?_eq running]
      rfl
    · have stays : c.value - 1 = c.value := by omega
      rw [if_neg (fun both => running both.2), stays, ← halt]
      exact congrArg some (ite_self c).symm

theorem initial_inRange : initial.InRange := ⟨fun _ => rfl⟩

theorem InRange.load (h : c.InRange) (value : UInt8) : (c.load value).InRange := by
  unfold LengthCounter.load
  split
  · exact ⟨fun off => absurd off (by simp [*])⟩
  · exact h

theorem setEnabled_inRange (c : LengthCounter) (enabled : Bool) : (c.setEnabled enabled).InRange :=
  ⟨fun off => if_neg (ne_true_of_eq_false off)⟩

theorem InRange.clock (h : c.InRange) : c.clock.InRange := by
  unfold LengthCounter.clock
  split
  · exact h
  · exact ⟨fun off => by simp only [h.disabled off]⟩

end LengthCounter

/-! ## Periods and waves -/

/-- A period in a table, less the cycle in which the timer is set. -/
def tablePeriod? (periods : Vector Nat 16) (place : Nat) : Option Nat := do
  minus? (← periods[place]?) 1

/-- The step of a wave after one; the last is followed by the first. -/
def nextStep? {n : Nat} (step : Fin n) : Option (Fin n) := do
  below? n ((← byte? (step.val + 1)) % n)

theorem tablePeriod?_eq {periods : Vector Nat 16} (h : ∀ place : Fin 16, 1 ≤ periods.get place)
    (place : Fin 16) : tablePeriod? periods place.val = some (periods.get place - 1) := by
  unfold tablePeriod?
  rw [getElem?_fin periods rfl]
  exact minus?_eq (h place)

theorem nextStep?_eq {n : Nat} (h : n < 0x100) {step next : Fin n}
    (follows : next.val = (step.val + 1) % n) : nextStep? step = some next := by
  have bound := step.isLt
  have fits : (step.val + 1) % n < n := follows ▸ next.isLt
  have same : (⟨(step.val + 1) % n, fits⟩ : Fin n) = next := Fin.ext follows.symm
  unfold nextStep?
  rw [byte?_eq (by omega), ← same]
  exact below?_eq fits

theorem setPeriodLow_le (period : Nat) (value : UInt8) : setPeriodLow period value ≤ 2047 := by
  have byte := value.toNat_lt
  unfold setPeriodLow
  omega

theorem setPeriodHigh_le (period : Nat) (value : UInt8) : setPeriodHigh period value ≤ 2047 := by
  unfold setPeriodHigh
  omega

/-! ## Pulse channels -/

namespace Pulse

structure InRange (c : Pulse) : Prop where
  period : c.period ≤ 2047
  sweepShift : c.sweepShift < 8
  envelope : c.envelope.InRange
  length : c.length.InRange

def write? (c : Pulse) (register : Fin 4) (value : UInt8) : Option Pulse :=
  match register with
  | 0 => do
    let duty ← below? 4 (← shift? 8 value.toNat 6)
    return { c with
      duty
      length := { c.length with halt := bit value 5 }
      envelope := c.envelope.write value }
  | 1 => some (c.write 1 value)
  | 2 => some (c.write 2 value)
  | 3 => do
    let length ← c.length.load? value
    return { c with
      period := setPeriodHigh c.period value
      length
      step := 0
      envelope := { c.envelope with start := true } }

/-- The period that the sweep would set. -/
def sweepTarget? (c : Pulse) : Option Nat := do
  let change ← shift? 16 c.period c.sweepShift
  if c.sweepNegate then
    return if c.onesComplement then c.period - change - 1 else c.period - change
  else word? (c.period + change)

def muted? (c : Pulse) : Option Bool :=
  if c.period < 8 then some true else do return decide (0x7FF < (← c.sweepTarget?))

def clockTimer? (c : Pulse) : Option Pulse :=
  if c.timer = 0 then do return { c with timer := c.period, step := ← nextStep? c.step }
  else do return { c with timer := ← minus? c.timer 1 }

/-- The period after a half-frame clock of the sweep. -/
def bent? (c : Pulse) : Option Nat :=
  if c.sweepDivider = 0 ∧ c.sweepEnabled ∧ 0 < c.sweepShift then do
    if ← c.muted? then return c.period else c.sweepTarget?
  else some c.period

def clockSweep? (c : Pulse) : Option Pulse := do
  let period ← c.bent?
  if c.sweepDivider = 0 ∨ c.sweepReload then
    return { c with period, sweepDivider := c.sweepPeriod, sweepReload := false }
  else return { c with period, sweepDivider := ← minus? c.sweepDivider 1 }

def output? (c : Pulse) : Option Nat := do
  if ← c.muted? then return 0
  else if ¬ c.length.active ∨ ¬ wave c.duty c.step then return 0
  else return c.envelope.output

variable {c : Pulse}

theorem write?_eq (c : Pulse) (register : Fin 4) (value : UInt8) :
    c.write? register value = some (c.write register value) := by
  have byte := value.toNat_lt
  match register with
  | 0 =>
    have duty : value.toNat >>> 6 = value.toNat / 64 := Nat.shiftRight_eq_div_pow _ 6
    have fits : value.toNat / 64 < 4 := by omega
    have place : Fin.ofNat 4 (value.toNat / 64) = ⟨value.toNat / 64, fits⟩ :=
      Fin.ext (Nat.mod_eq_of_lt fits)
    unfold write? write
    dsimp only
    rw [shift?_eq (by decide), duty, place]
    simp only [Option.bind_eq_bind, Option.bind_some, below?_eq fits]
    rfl
  | 1 | 2 => rfl
  | 3 =>
    unfold write?
    dsimp only
    rw [LengthCounter.load?_eq]
    rfl

theorem InRange.sweepTarget?_eq (h : c.InRange) : c.sweepTarget? = some c.sweepTarget := by
  have period := h.period
  have less : c.period >>> c.sweepShift ≤ c.period := Nat.shiftRight_le _ _
  unfold sweepTarget? sweepTarget
  rw [shift?_eq (Nat.lt_trans h.sweepShift (by decide))]
  simp only [Option.bind_eq_bind, Option.bind_some]
  split
  · rfl
  · exact word?_eq (by omega)

theorem InRange.muted?_eq (h : c.InRange) : c.muted? = some c.muted := by
  unfold muted? muted
  rw [h.sweepTarget?_eq]
  split
  · simp [*]
  · simp [*]

theorem clockTimer?_eq (c : Pulse) : c.clockTimer? = some c.clockTimer := by
  have next : nextStep? c.step = some (c.step + 1) := nextStep?_eq (by decide) rfl
  unfold clockTimer? clockTimer
  rw [next]
  split
  · rfl
  · rw [minus?_eq (by omega)]
    rfl

theorem InRange.bent?_eq (h : c.InRange) :
    c.bent? = some (if c.sweepDivider = 0 ∧ c.sweepEnabled ∧ 0 < c.sweepShift ∧ ¬ c.muted
      then c.sweepTarget else c.period) := by
  unfold bent?
  rw [h.muted?_eq, h.sweepTarget?_eq]
  cases c.muted with
  | true =>
    have stays : ¬ (c.sweepDivider = 0 ∧ c.sweepEnabled ∧ 0 < c.sweepShift ∧ ¬ true) :=
      fun bends => bends.2.2.2 rfl
    rw [if_neg stays]
    exact ite_self (some c.period)
  | false =>
    simp only [Bool.false_eq_true, not_false_eq_true, and_true, apply_ite some]
    rfl

theorem InRange.clockSweep?_eq (h : c.InRange) : c.clockSweep? = some c.clockSweep := by
  unfold clockSweep? clockSweep
  rw [h.bent?_eq]
  simp only [Option.bind_eq_bind, Option.bind_some]
  split
  · rfl
  · rw [minus?_eq (by omega)]
    rfl

theorem InRange.output?_eq (h : c.InRange) : c.output? = some c.output := by
  unfold output? output
  rw [h.muted?_eq]
  cases c.muted with
  | true => rfl
  | false =>
    simp only [Option.bind_eq_bind, Option.bind_some, Bool.false_eq_true, false_or, if_false,
      Option.pure_def, apply_ite some]

theorem initial_inRange (onesComplement : Bool) : (initial onesComplement).InRange :=
  ⟨Nat.zero_le _, Nat.zero_lt_succ _, Envelope.initial_inRange, LengthCounter.initial_inRange⟩

theorem InRange.write (h : c.InRange) (register : Fin 4) (value : UInt8) :
    (c.write register value).InRange := by
  match register with
  | 0 => exact ⟨h.period, h.sweepShift, h.envelope.write value, ⟨h.length.disabled⟩⟩
  | 1 => exact ⟨h.period, Nat.mod_lt _ (by decide), h.envelope, h.length⟩
  | 2 => exact ⟨setPeriodLow_le _ _, h.sweepShift, h.envelope, h.length⟩
  | 3 =>
    exact ⟨setPeriodHigh_le _ _, h.sweepShift, ⟨h.envelope.volume, h.envelope.decay⟩,
      h.length.load value⟩

theorem InRange.clockTimer (h : c.InRange) : c.clockTimer.InRange := by
  unfold Pulse.clockTimer
  split <;> exact ⟨h.period, h.sweepShift, h.envelope, h.length⟩

/-- The sweep sets only periods that do not mute the channel. -/
theorem clockSweep_period (c : Pulse) : c.clockSweep.period =
    if c.sweepDivider = 0 ∧ c.sweepEnabled ∧ 0 < c.sweepShift ∧ ¬ c.muted
      then c.sweepTarget else c.period := by
  unfold clockSweep
  dsimp only
  split <;> rfl

theorem sweepTarget_le_of_not_muted (sounds : ¬ c.muted) : c.sweepTarget ≤ 2047 := by
  unfold muted at sounds
  rw [decide_eq_true_iff] at sounds
  omega

/-- What the sweep leaves alone. -/
theorem clockSweep_others (c : Pulse) : c.clockSweep.sweepShift = c.sweepShift ∧
    c.clockSweep.envelope = c.envelope ∧ c.clockSweep.length = c.length := by
  unfold clockSweep
  dsimp only
  split <;> exact ⟨rfl, rfl, rfl⟩

theorem InRange.clockSweep (h : c.InRange) : c.clockSweep.InRange := by
  obtain ⟨shift, envelope, length⟩ := c.clockSweep_others
  refine ⟨?_, shift ▸ h.sweepShift, envelope ▸ h.envelope, length ▸ h.length⟩
  rw [clockSweep_period]
  split
  · have bends : _ ∧ _ ∧ _ ∧ ¬ c.muted := ‹_›
    exact sweepTarget_le_of_not_muted bends.2.2.2
  · exact h.period

/-- What the sweep and the muting of a channel depend on. -/
def tuning (c : Pulse) : Nat × Bool × Bool × Nat :=
  (c.period, c.onesComplement, c.sweepNegate, c.sweepShift)

theorem muted_of_tuning {d : Pulse} (h : c.tuning = d.tuning) : c.muted = d.muted := by
  unfold tuning at h
  simp only [Prod.mk.injEq] at h
  obtain ⟨period, onesComplement, sweepNegate, sweepShift⟩ := h
  unfold muted sweepTarget
  rw [period, onesComplement, sweepNegate, sweepShift]

/-- The sweep does not bend a channel that is silent because of its period. -/
theorem clockSweep_tuning (silent : c.muted) : c.clockSweep.tuning = c.tuning := by
  have period : c.clockSweep.period = c.period := by
    rw [clockSweep_period]
    exact if_neg fun bends => bends.2.2.2 silent
  unfold tuning
  rw [period]
  unfold clockSweep
  dsimp only
  split <;> rfl

theorem clockTimer_tuning (c : Pulse) : c.clockTimer.tuning = c.tuning := by
  unfold clockTimer
  split <;> rfl

theorem InRange.output_le (h : c.InRange) : c.output ≤ 15 := by
  unfold output
  split
  · exact Nat.zero_le _
  · exact h.envelope.output_le

end Pulse

/-! ## The triangle channel -/

namespace Triangle

structure InRange (c : Triangle) : Prop where
  period : c.period ≤ 2047
  length : c.length.InRange

def write? (c : Triangle) (register : Fin 4) (value : UInt8) : Option Triangle :=
  match register with
  | 0 => some (c.write 0 value)
  | 1 => some (c.write 1 value)
  | 2 => some (c.write 2 value)
  | 3 => do
    let length ← c.length.load? value
    return { c with period := setPeriodHigh c.period value, length, linearReload := true }

def clockTimer? (c : Triangle) : Option Triangle :=
  if c.timer = 0 then do
    let step ← if c.length.active ∧ 0 < c.linear then nextStep? c.step else some c.step
    return { c with timer := c.period, step }
  else do return { c with timer := ← minus? c.timer 1 }

def clockLinear? (c : Triangle) : Option Triangle := do
  let linear ←
    if c.linearReload then some c.linearPeriod
    else if 0 < c.linear then minus? c.linear 1
    else some c.linear
  return { c with linear, linearReload := c.linearReload && c.control }

def output? (c : Triangle) : Option Nat :=
  if c.step < 16 then minus? 15 c.step.val else minus? c.step.val 16

variable {c : Triangle}

theorem write?_eq (c : Triangle) (register : Fin 4) (value : UInt8) :
    c.write? register value = some (c.write register value) := by
  match register with
  | 0 | 1 | 2 => rfl
  | 3 =>
    unfold write?
    dsimp only
    rw [LengthCounter.load?_eq]
    rfl

theorem clockTimer?_eq (c : Triangle) : c.clockTimer? = some c.clockTimer := by
  have next : nextStep? c.step = some (c.step + 1) := nextStep?_eq (by decide) rfl
  unfold clockTimer? clockTimer
  rw [next]
  split
  · split <;> rfl
  · rw [minus?_eq (by omega)]
    rfl

theorem clockLinear?_eq (c : Triangle) : c.clockLinear? = some c.clockLinear := by
  unfold clockLinear? clockLinear
  split
  · rfl
  · split
    · rw [minus?_eq ‹_›]
      rfl
    · have stays : c.linear = c.linear - 1 := by omega
      rw [← stays]
      rfl

theorem output?_eq (c : Triangle) : c.output? = some c.output := by
  have step := c.step.isLt
  unfold output? output
  split
  · have low : c.step.val < 16 := ‹c.step < 16›
    exact minus?_eq (by omega)
  · have high : ¬ c.step.val < 16 := ‹¬ c.step < 16›
    exact minus?_eq (by omega)

theorem initial_inRange : initial.InRange := ⟨Nat.zero_le _, LengthCounter.initial_inRange⟩

theorem InRange.write (h : c.InRange) (register : Fin 4) (value : UInt8) :
    (c.write register value).InRange := by
  match register with
  | 0 => exact ⟨h.period, ⟨h.length.disabled⟩⟩
  | 1 => exact h
  | 2 => exact ⟨setPeriodLow_le _ _, h.length⟩
  | 3 => exact ⟨setPeriodHigh_le _ _, h.length.load value⟩

theorem InRange.clockTimer (h : c.InRange) : c.clockTimer.InRange := by
  unfold Triangle.clockTimer
  split <;> exact ⟨h.period, h.length⟩

theorem InRange.clockLinear (h : c.InRange) : c.clockLinear.InRange := ⟨h.period, h.length⟩

theorem output_le (c : Triangle) : c.output ≤ 15 := by
  have step := c.step.isLt
  unfold output
  split <;> omega

end Triangle

/-! ## The noise channel -/

namespace Noise

structure InRange (c : Noise) : Prop where
  shift_pos : 1 ≤ c.shift
  shift_le : c.shift ≤ 32767
  envelope : c.envelope.InRange
  length : c.length.InRange

def initial? (region : Region) : Option Noise := do
  return { initial region with period := ← tablePeriod? (periods region) 0 }

def write? (c : Noise) (register : Fin 4) (value : UInt8) : Option Noise :=
  match register with
  | 0 => some (c.write 0 value)
  | 1 => some (c.write 1 value)
  | 2 => do
    let period ← tablePeriod? (periods c.region) (value.toNat % 16)
    return { c with shortMode := bit value 7, period }
  | 3 => do
    let length ← c.length.load? value
    return { c with length, envelope := { c.envelope with start := true } }

/-- One shift. -/
def advance? (shortMode : Bool) (shift : Nat) : Option Nat := do
  let tap := if shortMode then 6 else 1
  let other ← shift? 16 shift tap
  word? (shift / 2 + if shift.testBit 0 != other.testBit 0 then 0x4000 else 0)

def clockTimer? (c : Noise) : Option Noise :=
  if c.timer = 0 then do return { c with timer := c.period, shift := ← advance? c.shortMode c.shift }
  else do return { c with timer := ← minus? c.timer 1 }

variable {c : Noise}

theorem periods_pos (region : Region) : ∀ place : Fin 16, 1 ≤ (periods region).get place := by
  cases region <;> decide

theorem period?_eq (region : Region) (place : Fin 16) :
    tablePeriod? (periods region) place.val = some ((periods region).get place - 1) :=
  tablePeriod?_eq (periods_pos region) place

theorem initial?_eq (region : Region) : initial? region = some (initial region) := by
  have first : tablePeriod? (periods region) 0 = _ := period?_eq region 0
  unfold initial?
  rw [first]
  rfl

theorem write?_eq (c : Noise) (register : Fin 4) (value : UInt8) :
    c.write? register value = some (c.write register value) := by
  match register with
  | 0 | 1 => rfl
  | 2 =>
    have period : tablePeriod? (periods c.region) (value.toNat % 16) = _ :=
      period?_eq c.region (.ofNat 16 value.toNat)
    unfold write?
    dsimp only
    rw [period]
    rfl
  | 3 =>
    unfold write?
    dsimp only
    rw [LengthCounter.load?_eq]
    rfl

/-- The bit that is fed back is the highest of fifteen. -/
theorem fedBack_le (differs : Bool) : (if differs then 0x4000 else 0) ≤ 0x4000 := by
  cases differs <;> decide

theorem advance_range (shortMode : Bool) {shift : Nat} (positive : 1 ≤ shift) (le : shift ≤ 32767) :
    1 ≤ advance shortMode shift ∧ advance shortMode shift ≤ 32767 := by
  have added := fedBack_le (shift.testBit 0 != shift.testBit (if shortMode then 6 else 1))
  unfold advance
  dsimp only
  by_cases one : shift = 1
  · subst one
    cases shortMode <;> decide
  · omega

theorem advance?_eq (shortMode : Bool) {shift : Nat} (le : shift ≤ 32767) :
    advance? shortMode shift = some (advance shortMode shift) := by
  have bound : (if shortMode then 6 else 1) < 16 := by cases shortMode <;> decide
  have added := fedBack_le (shift.testBit 0 != shift.testBit (if shortMode then 6 else 1))
  unfold advance? advance
  dsimp only
  rw [shift?_eq bound]
  simp only [Option.bind_eq_bind, Option.bind_some, Nat.testBit_shiftRight, Nat.add_zero]
  exact word?_eq (by omega)

theorem InRange.clockTimer?_eq (h : c.InRange) : c.clockTimer? = some c.clockTimer := by
  unfold clockTimer? clockTimer
  split
  · rw [advance?_eq _ h.shift_le]
    rfl
  · rw [minus?_eq (by omega)]
    rfl

theorem initial_inRange (region : Region) : (initial region).InRange :=
  ⟨Nat.le_refl 1, Nat.le_add_left 1 _, Envelope.initial_inRange, LengthCounter.initial_inRange⟩

theorem InRange.write (h : c.InRange) (register : Fin 4) (value : UInt8) :
    (c.write register value).InRange := by
  match register with
  | 0 => exact ⟨h.shift_pos, h.shift_le, h.envelope.write value, ⟨h.length.disabled⟩⟩
  | 1 => exact h
  | 2 => exact ⟨h.shift_pos, h.shift_le, h.envelope, h.length⟩
  | 3 =>
    exact ⟨h.shift_pos, h.shift_le, ⟨h.envelope.volume, h.envelope.decay⟩, h.length.load value⟩

theorem InRange.clockTimer (h : c.InRange) : c.clockTimer.InRange := by
  unfold Noise.clockTimer
  split
  · obtain ⟨positive, le⟩ := advance_range c.shortMode h.shift_pos h.shift_le
    exact ⟨positive, le, h.envelope, h.length⟩
  · exact ⟨h.shift_pos, h.shift_le, h.envelope, h.length⟩

theorem InRange.output_le (h : c.InRange) : c.output ≤ 15 := by
  unfold output
  split
  · exact Nat.zero_le _
  · exact h.envelope.output_le

end Noise

/-! ## The delta modulation channel -/

namespace Delta

structure InRange (c : Delta) : Prop where
  level : c.level ≤ 127
  bits_pos : 1 ≤ c.bits
  bits_le : c.bits ≤ 8

def initial? (region : Region) : Option Delta := do
  return { initial region with period := ← tablePeriod? (periods region) 0 }

def write? (c : Delta) (register : Fin 4) (value : UInt8) : Option Delta :=
  match register with
  | 0 => do
    let period ← tablePeriod? (periods c.region) (value.toNat % 16)
    return { c with
      irqEnabled := bit value 7
      irqFlag := c.irqFlag && bit value 7
      looping := bit value 6
      period }
  | 1 => some (c.write 1 value)
  | 2 => do
    let sampleAddress ← word? (0xC000 + value.toNat * 64)
    return { c with sampleAddress := UInt16.ofNat sampleAddress }
  | 3 => do return { c with sampleLength := ← word? (value.toNat * 16 + 1) }

def next? (address : UInt16) : Option UInt16 :=
  if address = 0xFFFF then some 0x8000
  else do return UInt16.ofNat (← word? (address.toNat + 1))

def fill? (c : Delta) (value : UInt8) : Option Delta := do
  let address ← next? c.address
  let c := { c with buffer := some value, address, remaining := c.remaining - 1 }
  if c.remaining = 0 then
    return if c.looping then c.restart else { c with irqFlag := c.irqFlag || c.irqEnabled }
  else return c

def moved? (level : Nat) (up : Bool) : Option Nat :=
  if up then (if level ≤ 125 then byte? (level + 2) else some level)
  else (if 2 ≤ level then minus? level 2 else some level)

/-- The level after the next bit. -/
def level? (c : Delta) : Option Nat :=
  if c.silent then some c.level else moved? c.level (c.shift % 2 = 1)

def play? (c : Delta) : Option Delta := do
  let level ← c.level?
  let bits ← minus? c.bits 1
  let c := { c with level, shift := c.shift / 2, bits }
  if c.bits = 0 then
    match c.buffer with
    | some byte => return { c with bits := 8, buffer := none, shift := byte.toNat, silent := false }
    | none => return { c with bits := 8, silent := true }
  else return c

def clockTimer? (c : Delta) : Option Delta :=
  if c.timer = 0 then { c with timer := c.period }.play?
  else do return { c with timer := ← minus? c.timer 1 }

variable {c : Delta}

theorem periods_pos (region : Region) : ∀ place : Fin 16, 1 ≤ (periods region).get place := by
  cases region <;> decide

theorem period?_eq (region : Region) (place : Fin 16) :
    tablePeriod? (periods region) place.val = some ((periods region).get place - 1) :=
  tablePeriod?_eq (periods_pos region) place

theorem initial?_eq (region : Region) : initial? region = some (initial region) := by
  have first : tablePeriod? (periods region) 0 = _ := period?_eq region 0
  unfold initial?
  rw [first]
  rfl

theorem write?_eq (c : Delta) (register : Fin 4) (value : UInt8) :
    c.write? register value = some (c.write register value) := by
  have byte := value.toNat_lt
  match register with
  | 0 =>
    have period : tablePeriod? (periods c.region) (value.toNat % 16) = _ :=
      period?_eq c.region (.ofNat 16 value.toNat)
    unfold write?
    dsimp only
    rw [period]
    rfl
  | 1 => rfl
  | 2 =>
    unfold write?
    dsimp only
    rw [word?_eq (by omega)]
    rfl
  | 3 =>
    unfold write?
    dsimp only
    rw [word?_eq (by omega)]
    rfl

theorem next?_eq (address : UInt16) : next? address = some (next address) := by
  unfold next? next
  split
  · rfl
  · have bound := address.toNat_lt
    have inner : address.toNat ≠ 0xFFFF := fun last => absurd (UInt16.toNat_inj.mp last) ‹_›
    have whole : UInt16.ofNat (address.toNat + 1) = address + 1 := by
      rw [UInt16.ofNat_add, UInt16.ofNat_toNat]
      rfl
    rw [word?_eq (by omega)]
    exact congrArg some whole

theorem fill?_eq (c : Delta) (value : UInt8) : c.fill? value = some (c.fill value) := by
  unfold fill? fill
  rw [next?_eq]
  simp only [Option.bind_eq_bind, Option.bind_some]
  split
  · split <;> rfl
  · rfl

theorem moved?_eq {level : Nat} (h : level ≤ 127) (up : Bool) : moved? level up = some (moved level up) := by
  unfold moved? moved
  split
  · split
    · exact byte?_eq (by omega)
    · rfl
  · split
    · exact minus?_eq ‹_›
    · rfl

theorem moved_le {level : Nat} (h : level ≤ 127) (up : Bool) : moved level up ≤ 127 := by
  unfold moved
  split_ifs <;> omega

theorem InRange.play?_eq (h : c.InRange) : c.play? = some c.play := by
  have level : c.level? = some (if c.silent then c.level else moved c.level (c.shift % 2 = 1)) := by
    rw [level?, moved?_eq h.level, apply_ite some]
  unfold play? play
  rw [level, minus?_eq h.bits_pos]
  simp only [Option.bind_eq_bind, Option.bind_some]
  split
  · cases c.buffer <;> rfl
  · rfl

theorem InRange.clockTimer?_eq (h : c.InRange) : c.clockTimer? = some c.clockTimer := by
  unfold clockTimer? clockTimer
  split
  · have started : { c with timer := c.period }.InRange := ⟨h.level, h.bits_pos, h.bits_le⟩
    exact started.play?_eq
  · rw [minus?_eq (by omega)]
    rfl

theorem initial_inRange (region : Region) : (initial region).InRange :=
  ⟨Nat.zero_le _, Nat.le_add_left 1 _, Nat.le_refl 8⟩

theorem InRange.write (h : c.InRange) (register : Fin 4) (value : UInt8) :
    (c.write register value).InRange := by
  match register with
  | 1 => exact ⟨Nat.le_of_lt_succ (Nat.mod_lt _ (by decide)), h.bits_pos, h.bits_le⟩
  | 0 | 2 | 3 => exact ⟨h.level, h.bits_pos, h.bits_le⟩

theorem InRange.setEnabled (h : c.InRange) (enabled : Bool) : (c.setEnabled enabled).InRange := by
  unfold Delta.setEnabled
  split_ifs <;> exact ⟨h.level, h.bits_pos, h.bits_le⟩

theorem InRange.fill (h : c.InRange) (value : UInt8) : (c.fill value).InRange := by
  unfold Delta.fill
  dsimp only
  split_ifs <;> exact ⟨h.level, h.bits_pos, h.bits_le⟩

theorem InRange.play (h : c.InRange) : c.play.InRange := by
  have bits_pos := h.bits_pos
  have bits_le := h.bits_le
  have level : (if c.silent then c.level else moved c.level (c.shift % 2 = 1)) ≤ 127 := by
    split
    · exact h.level
    · exact moved_le h.level _
  unfold Delta.play
  dsimp only
  split
  · split <;> exact ⟨level, Nat.le_add_left 1 _, Nat.le_refl 8⟩
  · refine ⟨level, ?_, ?_⟩ <;> dsimp only <;> omega

theorem InRange.clockTimer (h : c.InRange) : c.clockTimer.InRange := by
  unfold Delta.clockTimer
  split
  · have started : { c with timer := c.period }.InRange := ⟨h.level, h.bits_pos, h.bits_le⟩
    exact started.play
  · exact ⟨h.level, h.bits_pos, h.bits_le⟩

end Delta

end Famiclone
