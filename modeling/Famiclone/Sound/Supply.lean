import Famiclone.Sound.Delta

/-!
# The supply of samples

A history of the delta modulation channel: how the output unit has found its buffer. Nothing reads
it, and the channel plays as it would without.
-/
namespace Famiclone

/-- A look at the buffer that finds no byte, though the pass under way has begun to play and has bytes
left. -/
structure Miss where
  /-- Processor cycles since the look before. -/
  cycles : Nat
  shortest : Nat
  sprites : Option Nat
  deriving DecidableEq, Repr

/-- How the output unit has been supplied with bytes. -/
structure Supply where
  /-- Processor cycles since the output unit looked at the buffer. -/
  since : Nat
  /-- The shortest bit since then, in cycles. -/
  shortest : Nat
  /-- Whether the output unit has taken a byte of the pass under way. A pass that repeats itself is
  one pass. -/
  begun : Bool
  /-- Whether the byte in the buffer is left over from the pass before. -/
  stale : Bool
  /-- Cycles since the last transfer of sprites began, if there was one. -/
  sprites : Option Nat
  /-- The looks that have missed a byte, the latest one first. -/
  misses : List Miss
  deriving DecidableEq, Repr

namespace Supply

def initial : Supply := ⟨0, 0, false, false, none, []⟩

def look (s : Supply) (c : Delta) : Supply :=
  let looked := { s with since := 0, shortest := c.period + 1 }
  if c.buffer.isSome then { looked with begun := s.begun || !s.stale, stale := false }
  else if s.begun ∧ 0 < c.remaining then
    { looked with misses := ⟨s.since, s.shortest, s.sprites⟩ :: s.misses }
  else looked

def clock (s : Supply) (c : Delta) : Supply :=
  let s := { s with since := s.since + 1, sprites := s.sprites.map (· + 1) }
  if c.timer ≠ 0 then s
  else if 1 < c.bits then { s with shortest := min s.shortest (c.period + 1) }
  else s.look c

/-- A register of the sound unit is written. What enables a channel that has no bytes left begins a
pass. -/
def write (s : Supply) (c : Delta) (address : UInt16) (value : UInt8) : Supply :=
  if address = 0x4015 ∧ bit value 4 ∧ c.remaining = 0 then
    { s with begun := false, stale := c.buffer.isSome }
  else s

def transfer (s : Supply) : Supply := { s with sprites := some 0 }

end Supply

end Famiclone
