import Famiclone.Proofs.Console.Clocks
import Famiclone.Proofs.Sound.Ranges

/-!
# The past of the sound unit

What the sound unit does next depends on what has happened to it since the power came back. A past lists
that, the newest event first, so that what has happened since something else stands at its front. Cycles
are counted in it, and what was last written to a register is found in it. The reset line counts as a write
to the register of the sequencer, since it writes the last value again.
-/
namespace Famiclone.Sound

/-- What has happened to a unit, the newest event first. -/
abbrev Past := List Event

def aged (s : Sound) : Past → Sound
  | [] => s
  | event :: before => (s.aged before).happen event

@[simp] theorem aged_nil (s : Sound) : s.aged [] = s := rfl

@[simp] theorem aged_cons (s : Sound) (event : Event) (before : Past) :
    s.aged (event :: before) = (s.aged before).happen event := rfl

theorem aged_append (s : Sound) (later earlier : Past) :
    s.aged (later ++ earlier) = (s.aged earlier).aged later := by
  induction later with
  | nil => rfl
  | cons event later ih => rw [List.cons_append, aged_cons, aged_cons, ih]

@[simp] theorem aged_region (s : Sound) (past : Past) : (s.aged past).region = s.region := by
  induction past with
  | nil => rfl
  | cons event before ih => exact ((s.aged before).happen_region event).trans ih

theorem InRange.aged {s : Sound} (h : s.InRange) (past : Past) : (s.aged past).InRange := by
  induction past with
  | nil => exact h
  | cons event before ih => exact ih.happen event

namespace Past

/-- The cycles since power-on. -/
def cycles : Past → Nat
  | [] => 0
  | .powerOn :: _ => 0
  | .tick :: before => cycles before + 1
  | _ :: before => cycles before

/-- The value that was last written to a register; the return of the power counts as a zero. -/
def last (register : UInt16) : Past → UInt8
  | [] => 0
  | .powerOn :: _ => 0
  | .write address value :: before => if address = register then value else last register before
  | _ :: before => last register before

/-- The value that an event behind a past writes to the register of the sequencer, if it does. -/
def order? (before : Past) : Event → Option UInt8
  | .write address value => if address = 0x4017 then some value else none
  | .reset => some (before.last 0x4017)
  | _ => none

end Past

end Famiclone.Sound
