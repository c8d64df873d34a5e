import Famiclone.Proofs.Checked
import Famiclone.Proofs.Sound.Rounding
import Famiclone.Sound.Sampler

/-!
# Averaging in range

The mixer looks up its two curves by sums of levels, and the sampler counts the cycles that it has
averaged. The count ends with each sample, which comes as soon as the clock has reached the period; so
that it stays small because the clock, a double-precision number, is never behind it.
-/
namespace Famiclone

open Checked (byte? word? long? byte?_eq word?_eq long?_eq)
open Rounding (AtLeast Short)

/-! ## The mixer -/

namespace Levels

/-- The levels that channels can have. -/
structure InRange (l : Levels) : Prop where
  pulse1 : l.pulse1 ≤ 15
  pulse2 : l.pulse2 ≤ 15
  triangle : l.triangle ≤ 15
  noise : l.noise ≤ 15
  delta : l.delta ≤ 127

/-- The place in the curve of the pulse channels. -/
def pulsePlace (l : Levels) : Nat := l.pulse1 + l.pulse2

/-- The place in the curve of the other channels. -/
def restPlace (l : Levels) : Nat := 3 * l.triangle + 2 * l.noise + l.delta

def mix? (l : Levels) : Option Float32 := do
  let pulse ← pulseCurve[← byte? l.pulsePlace]?
  let rest ← restCurve[← word? l.restPlace]?
  return pulse + rest

variable {l : Levels}

theorem InRange.gate (h : l.InRange) (s : ChannelSwitches) : (l.gate s).InRange := by
  have switched (on : Bool) {level bound : Nat} (le : level ≤ bound) :
      (if on then level else 0) ≤ bound := by
    split
    · exact le
    · exact Nat.zero_le _
  exact ⟨switched _ h.pulse1, switched _ h.pulse2, switched _ h.triangle, switched _ h.noise,
    switched _ h.delta⟩

theorem InRange.places (h : l.InRange) : l.pulsePlace < 31 ∧ l.restPlace < 203 := by
  obtain ⟨pulse1, pulse2, triangle, noise, delta⟩ := h
  unfold pulsePlace restPlace
  omega

theorem pulseCurve_size : pulseCurve.size = 31 := by rw [pulseCurve, Array.size_map, Array.size_range]

theorem restCurve_size : restCurve.size = 203 := by rw [restCurve, Array.size_map, Array.size_range]

theorem curve?_eq {curve : Array Float32} {place : Nat} (h : place < curve.size) :
    curve[place]? = some (curve.getD place 0) := by
  rw [Array.getElem?_eq_getElem h, Array.getD, dif_pos h]
  rfl

theorem InRange.mix?_eq (h : l.InRange) : l.mix? = some l.mix := by
  obtain ⟨pulse, rest⟩ := h.places
  unfold mix?
  rw [byte?_eq (Nat.lt_trans pulse (by decide)), word?_eq (Nat.lt_trans rest (by decide))]
  simp only [Option.bind_eq_bind, Option.bind_some, curve?_eq (pulseCurve_size.symm ▸ pulse),
    curve?_eq (restCurve_size.symm ▸ rest)]
  rfl

end Levels

/-! ## The sampler -/

namespace Sampler

/-- What holds of a sampler at all times. -/
structure InRange (s : Sampler) : Prop where
  period : Short s.period.toModel.unpack
  clock : AtLeast s.count s.clock.toModel.unpack
  count : s.count < 2 ^ 24

def average? (sum : Float32) (count : Nat) : Option Float32 :=
  if count = 0 then none else some (sum / Float32.ofNat count)

def absorb? (s : Sampler) (levels : Levels) : Option Sampler := do
  let sum := s.sum + (← (levels.gate s.settings.channels).mix?)
  let count ← long? (s.count + 1)
  let clock := s.clock + 1
  if s.period ≤ clock then
    let average ← average? sum count
    return { s with
      clock := clock - s.period
      sum := 0
      count := 0
      samples := s.samples.push (average * s.settings.volume) }
  else return { s with clock, sum, count }

theorem unpack_div (x y : Float) : (x / y).toModel.unpack =
    (Float.Model.pack (.div .binary64 x.toModel.unpack y.toModel.unpack)).unpack := rfl

theorem periodOf_short (region : Region) (settings : AudioSettings) :
    Short (periodOf region settings).toModel.unpack := by
  have rate : 0 < max settings.sampleRate 1 := Nat.lt_of_lt_of_le one_pos (le_max_right _ _)
  have divisor := Rounding.atLeast_ofNat rate
  have ntsc : (Float.ofNat 1789773).toModel.unpack =
      .finite .positive (1789773 * 2 ^ 32) (-32) (by decide) := rfl
  have pal : (Float.ofNat 1662607).toModel.unpack =
      .finite .positive (1662607 * 2 ^ 32) (-32) (by decide) := rfl
  unfold periodOf
  rw [unpack_div]
  cases region with
  | ntsc =>
    rw [Region.clockRate, ntsc]
    exact (Short.div _ (by decide) divisor).pack
  | pal =>
    rw [Region.clockRate, pal]
    exact (Short.div _ (by decide) divisor).pack

theorem initial_inRange (region : Region) (settings : AudioSettings) :
    (initial region settings).InRange :=
  ⟨periodOf_short region settings, Rounding.atLeast_zero, Nat.two_pow_pos 24⟩

variable {s : Sampler}

theorem InRange.setSettings (h : s.InRange) (region : Region) (settings : AudioSettings) :
    (s.setSettings region settings).InRange :=
  ⟨periodOf_short region settings, h.clock, h.count⟩

theorem InRange.absorb?_eq (h : s.InRange) {levels : Levels} (range : levels.InRange) :
    s.absorb? levels = some (s.absorb levels) := by
  have count := h.count
  unfold absorb? absorb
  rw [(range.gate _).mix?_eq, long?_eq (by omega)]
  simp only [Option.bind_eq_bind, Option.bind_some, average?]
  split <;> rfl

theorem InRange.absorb (h : s.InRange) (levels : Levels) : (s.absorb levels).InRange := by
  have clock := Rounding.atLeast_add_one h.clock (Nat.lt_trans h.count (by decide))
  unfold Sampler.absorb
  dsimp only
  split
  · exact ⟨h.period, Rounding.atLeast_sub clock h.period ‹_›, Nat.two_pow_pos 24⟩
  · exact ⟨h.period, clock, Rounding.lt_of_not_le clock h.period ‹_›⟩

end Sampler

end Famiclone
