/-!
# Cells

Memories and register files have a fixed number of cells. A place among them is a number below
that number; of a larger number only the remainder counts, as if the upper lines of an address were
not connected. The sizes are not zero, so that places can be written as numerals.
-/
namespace Famiclone

instance size4 : @NeZero Nat Zero.ofOfNat0 4 := ⟨Nat.succ_ne_zero 3⟩
instance size8 : @NeZero Nat Zero.ofOfNat0 8 := ⟨Nat.succ_ne_zero 7⟩
instance size16 : @NeZero Nat Zero.ofOfNat0 16 := ⟨Nat.succ_ne_zero 15⟩
instance size32 : @NeZero Nat Zero.ofOfNat0 32 := ⟨Nat.succ_ne_zero 31⟩
instance size64 : @NeZero Nat Zero.ofOfNat0 64 := ⟨Nat.succ_ne_zero 63⟩
instance size2048 : @NeZero Nat Zero.ofOfNat0 2048 := ⟨Nat.succ_ne_zero 2047⟩
instance size8192 : @NeZero Nat Zero.ofOfNat0 8192 := ⟨Nat.succ_ne_zero 8191⟩

def put {α : Type} {n : Nat} (cells : Vector α n) (i : Fin n) (value : α) : Vector α n :=
  cells.set i value

variable {α : Type} {n : Nat}

/-- A cell holds what has been put into it, and the other cells stay as they are. -/
theorem get_put (cells : Vector α n) (i j : Fin n) (value : α) :
    (put cells i value).get j = if i = j then value else cells.get j := by
  show (cells.set i value)[j.val] = if i = j then value else cells[j.val]
  rw [Vector.getElem_set]
  congr 1
  exact propext Fin.ext_iff.symm

end Famiclone
