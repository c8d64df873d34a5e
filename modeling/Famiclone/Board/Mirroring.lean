import Famiclone.Cells

/-!
# Nametable arrangement

The picture unit addresses four nametables of a kilobyte each. The board decides which of them
are the same memory.
-/
namespace Famiclone

/-- How the four nametables share memory. -/
inductive Mirroring where
  /-- The two on the left are the same as the two on the right. -/
  | horizontal
  /-- The upper two are the same as the lower two. -/
  | vertical
  /-- All four are the first kilobyte. -/
  | singleLower
  /-- All four are the second kilobyte. -/
  | singleUpper
  | fourScreen
  deriving DecidableEq, Repr, Inhabited

namespace Mirroring

/-- The kilobyte of nametable memory that stands behind one of the four tables. -/
def page : Mirroring → Fin 4 → Fin 4
  | horizontal, t => if t < 2 then 0 else 1
  | vertical, t => if t = 0 ∨ t = 2 then 0 else 1
  | singleLower, _ => 0
  | singleUpper, _ => 1
  | fourScreen, t => t

/-- The nametable cell at a picture address; of the address the lowest twelve bits count. -/
def cell (m : Mirroring) (address : Nat) : Fin 4096 :=
  let p := m.page (.ofNat 4 (address / 1024))
  ⟨p.val * 1024 + address % 1024, by omega⟩

/-- Mirroring moves whole tables: the place within the kilobyte stays. -/
theorem cell_mod (m : Mirroring) (address : Nat) :
    (m.cell address).val % 1024 = address % 1024 := by
  simp only [cell]; omega

def name : Mirroring → String
  | horizontal => "Horizontal"
  | vertical => "Vertical"
  | singleLower => "SingleScreenLower"
  | singleUpper => "SingleScreenUpper"
  | fourScreen => "FourScreen"

end Mirroring

end Famiclone
