/-!
# Counters that stop

A counter that has reached its largest value stays there, where a number of the same width would begin
again at zero.
-/
namespace Famiclone

/-- A counter with a largest value. -/
abbrev Counter (last : Nat) := Fin (last + 1)

namespace Counter

variable {last : Nat}

/-- A counter that some more has been counted with. -/
def advance (c : Counter last) (count : Nat) : Counter last :=
  ⟨min (c.val + count) last, Nat.lt_succ_of_le (Nat.min_le_right _ _)⟩

@[simp] theorem val_advance (c : Counter last) (count : Nat) :
    (c.advance count).val = min (c.val + count) last := rfl

@[simp] theorem advance_zero (c : Counter last) : c.advance 0 = c :=
  Fin.ext (Nat.min_eq_left (Nat.le_of_lt_succ c.isLt))

/-- It does not matter whether it is counted in one go. -/
theorem advance_advance (c : Counter last) (m n : Nat) :
    (c.advance m).advance n = c.advance (m + n) := by
  apply Fin.ext
  simp only [val_advance]
  omega

end Counter

end Famiclone
