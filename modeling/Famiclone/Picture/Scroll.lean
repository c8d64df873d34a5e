import Famiclone.Cells
import Famiclone.Word

/-!
# Scroll positions

A position in the background of two by two nametables. The picture unit keeps it in fifteen bits,
which serve as an address of its bus as well: from the lowest, five bits for the column of tiles,
five for the row, one each for the table to the right and the table below, and three for the line
within the tile.
-/
namespace Famiclone

/-- A position in the background. -/
structure Scroll where
  column : Fin 32
  /-- The row of tiles within a nametable. The last two of the thirty-two hold no tiles. -/
  row : Fin 32
  right : Bool
  lower : Bool
  line : Fin 8
  deriving DecidableEq, Repr

namespace Scroll

def zero : Scroll := ⟨0, 0, false, false, 0⟩

/-- The fifteen bits of a position. -/
def toNat (s : Scroll) : Nat :=
  s.column.val + 32 * s.row.val + 1024 * s.right.toNat + 2048 * s.lower.toNat + 4096 * s.line.val

/-- The position with the given bits; of a larger number the lowest fifteen count. -/
def ofNat (n : Nat) : Scroll where
  column := .ofNat 32 n
  row := .ofNat 32 (n / 32)
  right := n / 1024 % 2 == 1
  lower := n / 2048 % 2 == 1
  line := .ofNat 8 (n / 4096)

theorem toNat_lt (s : Scroll) : s.toNat < 0x8000 := by
  have := s.column.isLt; have := s.row.isLt; have := s.line.isLt
  have := Bool.toNat_lt s.right; have := Bool.toNat_lt s.lower
  simp only [toNat]; omega

/-- Reading out the bits and putting them together again gives them back. -/
@[simp] theorem toNat_ofNat (n : Nat) : (ofNat n).toNat = n % 0x8000 := by
  have bool (k : Nat) (h : k < 2) : (k == 1).toNat = k := by
    match k, h with
    | 0, _ => rfl
    | 1, _ => rfl
  simp only [toNat, ofNat, Fin.val_ofNat, bool _ (Nat.mod_lt _ (by decide : 0 < 2))]; omega

/-- A position is what its bits say. -/
@[simp] theorem ofNat_toNat (s : Scroll) : ofNat s.toNat = s := by
  obtain ⟨⟨c, hc⟩, ⟨r, hr⟩, right, lower, ⟨l, hl⟩⟩ := s
  cases right <;> cases lower <;>
    simp only [ofNat, toNat, Fin.ofNat, Bool.toNat_true, Bool.toNat_false, mk.injEq, Fin.mk.injEq] <;>
    refine ⟨by omega, by omega, ?_, ?_, by omega⟩ <;> (rw [Bool.eq_iff_iff]; simp; try omega)

def toWord (s : Scroll) : UInt16 := UInt16.ofNat s.toNat

def ofWord (w : UInt16) : Scroll := ofNat w.toNat

/-- The position as an address of the picture bus, which has fourteen bits. -/
def address (s : Scroll) : UInt16 := UInt16.ofNat (s.toNat % 0x4000)

def add (s : Scroll) (n : Nat) : Scroll := ofNat (s.toNat + n)

def tileAddress (s : Scroll) : UInt16 := UInt16.ofNat (0x2000 + s.toNat % 0x1000)

/-- The address of the attributes of the tile here, which sixteen tiles share. -/
def attributeAddress (s : Scroll) : UInt16 :=
  UInt16.ofNat (0x23C0 + 1024 * s.right.toNat + 2048 * s.lower.toNat + 8 * (s.row.val / 4) +
    s.column.val / 4)

/-- Which two bits of the attributes belong to the tile here, by the number of bits below them. -/
def attributeShift (s : Scroll) : Nat := 4 * (s.row.val / 2 % 2) + 2 * (s.column.val / 2 % 2)

/-- One tile to the right, which may lead into the next nametable. -/
def nextTile (s : Scroll) : Scroll :=
  { s with
    column := s.column + 1
    right := if s.column = 31 then !s.right else s.right }

/-- The row of tiles below. The last row with tiles leads into the next nametable. -/
def nextRow (s : Scroll) : Scroll :=
  { s with
    row := if s.row = 29 then 0 else s.row + 1
    lower := if s.row = 29 then !s.lower else s.lower }

def nextLine (s : Scroll) : Scroll :=
  let below := if s.line = 7 then s.nextRow else s
  { below with line := s.line + 1 }

/-- Go to the column of another position. -/
def toColumnOf (s t : Scroll) : Scroll := { s with column := t.column, right := t.right }

/-- Go to the line of another position. -/
def toLineOf (s t : Scroll) : Scroll := { s with row := t.row, lower := t.lower, line := t.line }

end Scroll

end Famiclone
