import Famiclone.Proofs.Picture.Pipeline

/-!
# The map of the background

The four nametables make a map of 512 by 480 pixels. What a place of the map shows is read straight
from the memories, with no cursor and no registers. A position of the cursor stands for eight places
in a row, and what is fetched there is what the map shows.
-/
namespace Famiclone

/-! ## The map -/

/-- Which of the four nametables holds a place. -/
def tableOf (x y : Nat) : Nat := x / 256 + 2 * (y / 240)

namespace VideoMemory

variable {β : Type} [PictureBus β]

/-- A byte of a nametable, as the board arranges them. -/
def nametableByte (m : VideoMemory) (board : β) (table offset : Nat) : UInt8 :=
  m.nametables.get ((PictureBus.mirroring board).cell (0x2000 + 1024 * table + offset))

def mapTile (m : VideoMemory) (board : β) (x y : Nat) : UInt8 :=
  m.nametableByte board (tableOf x y) (32 * (y % 240 / 8) + x % 256 / 8)

/-- The palette at a place: two bits of a byte for four by four tiles. -/
def mapPalette (m : VideoMemory) (board : β) (x y : Nat) : Nat :=
  let attributes := m.nametableByte board (tableOf x y) (960 + 8 * (y % 240 / 32) + x % 256 / 32)
  attributes.toNat / 4 ^ (2 * (y % 240 / 16 % 2) + x % 256 / 16 % 2) % 4

/-- The pattern at a place: a bit from each of two bytes of pattern memory. -/
def mapPattern (m : VideoMemory) (board : β) (table : Bool) (x y : Nat) : Nat :=
  let low := 4096 * table.toNat + 16 * (m.mapTile board x y).toNat + y % 240 % 8
  let read (address : Nat) := PictureBus.readChr board (UInt16.ofNat address)
  2 * (bit (read (low + 8)) (7 - x % 8)).toNat + (bit (read low) (7 - x % 8)).toNat

/-- The entry of the palette at a place. Pattern zero shows the backdrop. -/
def mapCell (m : VideoMemory) (board : β) (table : Bool) (x y : Nat) : Fin 32 :=
  let pattern := m.mapPattern board table x y
  .ofNat 32 (if pattern = 0 then 0 else 4 * m.mapPalette board x y + pattern)

end VideoMemory

/-! ## Places of the cursor -/

namespace Scroll

/-- The column of the map at the left of a position. -/
def mapX (s : Scroll) : Nat := 256 * s.right.toNat + 8 * s.column.val

/-- The line of the map at a position. -/
def mapY (s : Scroll) : Nat := 240 * s.lower.toNat + 8 * s.row.val + s.line.val

theorem mapX_lt (s : Scroll) : s.mapX < 512 := by
  have := Bool.toNat_lt s.right
  have := s.column.isLt
  unfold mapX
  omega

theorem mapY_lt (s : Scroll) (h : s.row.val < 30) : s.mapY < 480 := by
  have := Bool.toNat_lt s.lower
  have := s.line.isLt
  unfold mapY
  omega

theorem mapX_div (s : Scroll) {i : Nat} (hi : i < 8) : (s.mapX + i) / 256 = s.right.toNat := by
  have := Bool.toNat_lt s.right
  have := s.column.isLt
  unfold mapX
  omega

theorem mapX_mod (s : Scroll) {i : Nat} (hi : i < 8) :
    (s.mapX + i) % 256 = 8 * s.column.val + i := by
  have := Bool.toNat_lt s.right
  have := s.column.isLt
  unfold mapX
  omega

theorem mapY_div (s : Scroll) (h : s.row.val < 30) : s.mapY / 240 = s.lower.toNat := by
  have := Bool.toNat_lt s.lower
  have := s.line.isLt
  unfold mapY
  omega

theorem mapY_mod (s : Scroll) (h : s.row.val < 30) :
    s.mapY % 240 = 8 * s.row.val + s.line.val := by
  have := Bool.toNat_lt s.lower
  have := s.line.isLt
  unfold mapY
  omega

theorem nextTile_mapX (s : Scroll) : s.nextTile.mapX = (s.mapX + 8) % 512 := by
  have right := Bool.toNat_lt s.right
  have column : (s.column + 1).val = (s.column.val + 1) % 32 := Fin.val_add _ _
  unfold mapX nextTile
  dsimp only
  by_cases last : s.column = 31
  · have opposite : (!s.right).toNat = 1 - s.right.toNat := by cases s.right <;> rfl
    have val : s.column.val = 31 := congrArg Fin.val last
    rw [if_pos last, opposite]
    omega
  · have ne : s.column.val ≠ 31 := fun eq => last (Fin.ext eq)
    rw [if_neg last]
    omega

theorem nextTile_mapY (s : Scroll) : s.nextTile.mapY = s.mapY := rfl

theorem tilesOn_mapX (s : Scroll) (k : Nat) : (s.tilesOn k).mapX = (s.mapX + 8 * k) % 512 := by
  have range := s.mapX_lt
  induction k with
  | zero =>
    show s.mapX = _
    omega
  | succ k ih =>
    rw [tilesOn_succ, nextTile_mapX, ih]
    omega

theorem tilesOn_mapY (s : Scroll) (k : Nat) : (s.tilesOn k).mapY = s.mapY := by
  induction k with
  | zero => rfl
  | succ k ih => rw [tilesOn_succ, nextTile_mapY, ih]

theorem tilesOn_row (s : Scroll) (k : Nat) : (s.tilesOn k).row = s.row := by
  induction k with
  | zero => rfl
  | succ k ih => rw [tilesOn_succ, ← ih]; rfl

theorem nextLine_row (s : Scroll) :
    s.nextLine.row = if s.line = 7 then (if s.row = 29 then 0 else s.row + 1) else s.row := by
  unfold nextLine
  dsimp only
  split <;> rfl

theorem nextLine_lower (s : Scroll) :
    s.nextLine.lower = if s.line = 7 ∧ s.row = 29 then !s.lower else s.lower := by
  unfold nextLine nextRow
  dsimp only
  by_cases last : s.line = 7
  · simp only [last, if_true, true_and]
  · simp only [last, if_false, false_and]

theorem nextLine_line (s : Scroll) : s.nextLine.line = s.line + 1 := rfl

theorem nextLine_mapX (s : Scroll) : s.nextLine.mapX = s.mapX := by
  unfold mapX nextLine
  dsimp only
  split <;> rfl

/-- The two rows without tiles are not entered from above. -/
theorem nextLine_row_lt (s : Scroll) (h : s.row.val < 30) : s.nextLine.row.val < 30 := by
  rw [nextLine_row]
  split
  · split
    · decide
    · have ne : s.row.val ≠ 29 := fun eq => ‹¬ s.row = 29› (Fin.ext eq)
      have val : (s.row + 1).val = (s.row.val + 1) % 32 := Fin.val_add _ _
      omega
  · exact h

theorem nextLine_mapY (s : Scroll) (h : s.row.val < 30) :
    s.nextLine.mapY = (s.mapY + 1) % 480 := by
  have lower := Bool.toNat_lt s.lower
  have line : (s.line + 1).val = (s.line.val + 1) % 8 := Fin.val_add _ _
  have row : (s.row + 1).val = (s.row.val + 1) % 32 := Fin.val_add _ _
  unfold mapY
  rw [nextLine_row, nextLine_lower, nextLine_line]
  by_cases last : s.line = 7
  · have val : s.line.val = 7 := congrArg Fin.val last
    by_cases bottom : s.row = 29
    · have opposite : (!s.lower).toNat = 1 - s.lower.toNat := by cases s.lower <;> rfl
      have height : s.row.val = 29 := congrArg Fin.val bottom
      rw [if_pos last, if_pos bottom, if_pos ⟨last, bottom⟩, opposite, line]
      show 240 * (1 - s.lower.toNat) + 8 * 0 + _ = _
      omega
    · have ne : s.row.val ≠ 29 := fun eq => bottom (Fin.ext eq)
      rw [if_pos last, if_neg bottom, if_neg fun both => bottom both.2]
      omega
  · have ne : s.line.val ≠ 7 := fun eq => last (Fin.ext eq)
    rw [if_neg last, if_neg fun both => last both.1]
    omega

/-- The position some lines further down. -/
def linesOn (s : Scroll) (k : Nat) : Scroll := nextLine^[k] s

theorem linesOn_succ (s : Scroll) (k : Nat) : s.linesOn (k + 1) = (s.linesOn k).nextLine :=
  Function.iterate_succ_apply' _ _ _

theorem linesOn_mapX (s : Scroll) (k : Nat) : (s.linesOn k).mapX = s.mapX := by
  induction k with
  | zero => rfl
  | succ k ih => rw [linesOn_succ, nextLine_mapX, ih]

theorem linesOn_row_lt (s : Scroll) (h : s.row.val < 30) (k : Nat) :
    (s.linesOn k).row.val < 30 := by
  induction k with
  | zero => exact h
  | succ k ih =>
    rw [linesOn_succ]
    exact nextLine_row_lt _ ih

theorem linesOn_mapY (s : Scroll) (h : s.row.val < 30) (k : Nat) :
    (s.linesOn k).mapY = (s.mapY + k) % 480 := by
  have range := s.mapY_lt h
  induction k with
  | zero =>
    show s.mapY = _
    omega
  | succ k ih =>
    rw [linesOn_succ, nextLine_mapY _ (linesOn_row_lt s h k), ih]
    omega

theorem linesOn_toColumnOf (s : Scroll) (k : Nat) : (s.linesOn k).toColumnOf s = s.linesOn k := by
  induction k with
  | zero => rfl
  | succ k ih => rw [linesOn_succ, nextLine_toColumnOf, ih]

end Scroll

/-! ## What is fetched is what the map shows -/

namespace VideoMemory

variable {β : Type} [PictureBus β] (m : VideoMemory) (board : β)

theorem peek_pattern {address : Nat} (h : address < 0x2000) :
    m.peek board (UInt16.ofNat address) = PictureBus.readChr board (UInt16.ofNat address) := by
  have value : (UInt16.ofNat address).toNat % 0x4000 = address := by
    rw [UInt16.toNat_ofNat']
    omega
  unfold peek
  dsimp only
  rw [value, if_pos h]

theorem peek_nametable {address : Nat} (low : 0x2000 ≤ address) (high : address < 0x3F00) :
    m.peek board (UInt16.ofNat address) =
      m.nametables.get ((PictureBus.mirroring board).cell address) := by
  have value : (UInt16.ofNat address).toNat % 0x4000 = address := by
    rw [UInt16.toNat_ofNat']
    omega
  unfold peek
  dsimp only
  rw [value, if_neg (Nat.not_lt.mpr low), if_pos high]

end VideoMemory

namespace Picture.Setup

variable {β : Type} [PictureBus β] (s : Setup) (board : β) (c : Scroll)

theorem tileAt_eq (h : c.row.val < 30) {i : Nat} (hi : i < 8) :
    s.tileAt board c = s.memory.mapTile board (c.mapX + i) c.mapY := by
  have column := c.column.isLt
  have line := c.line.isLt
  have right := Bool.toNat_lt c.right
  have lower := Bool.toNat_lt c.lower
  have address : 0x2000 + c.toNat % 0x1000 =
      0x2000 + 1024 * tableOf (c.mapX + i) c.mapY +
        (32 * (c.mapY % 240 / 8) + (c.mapX + i) % 256 / 8) := by
    have row : (8 * c.row.val + c.line.val) / 8 = c.row.val := by omega
    have tile : (8 * c.column.val + i) / 8 = c.column.val := by omega
    unfold Scroll.toNat tableOf
    rw [c.mapX_div hi, c.mapX_mod hi, c.mapY_div h, c.mapY_mod h, row, tile]
    omega
  unfold tileAt Scroll.tileAddress
  rw [VideoMemory.peek_nametable _ _ (by omega) (by omega), address]
  rfl

theorem paletteAt_eq (h : c.row.val < 30) {i : Nat} (hi : i < 8) :
    (s.paletteAt board c).val = s.memory.mapPalette board (c.mapX + i) c.mapY := by
  have column := c.column.isLt
  have line := c.line.isLt
  have right := Bool.toNat_lt c.right
  have lower := Bool.toNat_lt c.lower
  have address : 0x23C0 + 1024 * c.right.toNat + 2048 * c.lower.toNat + 8 * (c.row.val / 4) +
      c.column.val / 4 =
      0x2000 + 1024 * tableOf (c.mapX + i) c.mapY +
        (960 + 8 * (c.mapY % 240 / 32) + (c.mapX + i) % 256 / 32) := by
    have row : (8 * c.row.val + c.line.val) / 32 = c.row.val / 4 := by omega
    have tile : (8 * c.column.val + i) / 32 = c.column.val / 4 := by omega
    unfold tableOf
    rw [c.mapX_div hi, c.mapX_mod hi, c.mapY_div h, c.mapY_mod h, row, tile]
    omega
  have place : c.attributeShift =
      2 * (2 * (c.mapY % 240 / 16 % 2) + (c.mapX + i) % 256 / 16 % 2) := by
    have row : (8 * c.row.val + c.line.val) / 16 = c.row.val / 2 := by omega
    have tile : (8 * c.column.val + i) / 16 = c.column.val / 2 := by omega
    unfold Scroll.attributeShift
    rw [c.mapX_mod hi, c.mapY_mod h, row, tile]
    omega
  unfold paletteAt Scroll.attributeAddress
  rw [VideoMemory.peek_nametable _ _ (by omega) (by omega), address, place, Fin.val_ofNat,
    Nat.shiftRight_eq_div_pow, Nat.pow_mul]
  rfl

theorem lowAt_eq (h : c.row.val < 30) {i : Nat} (hi : i < 8) :
    s.lowAt board c = PictureBus.readChr board (UInt16.ofNat
      (4096 * s.control.backgroundTable.toNat +
        16 * (s.memory.mapTile board (c.mapX + i) c.mapY).toNat + c.mapY % 240 % 8)) := by
  have table := Bool.toNat_lt s.control.backgroundTable
  have tile := (s.memory.mapTile board (c.mapX + i) c.mapY).toNat_lt
  have line : c.mapY % 240 % 8 = c.line.val := by
    have := c.line.isLt
    rw [c.mapY_mod h]
    omega
  unfold lowAt patternAddressAt Background.patternAddress
  rw [s.tileAt_eq board c h hi, line, VideoMemory.peek_pattern _ _ (by omega)]

theorem highAt_eq (h : c.row.val < 30) {i : Nat} (hi : i < 8) :
    s.highAt board c = PictureBus.readChr board (UInt16.ofNat
      (4096 * s.control.backgroundTable.toNat +
        16 * (s.memory.mapTile board (c.mapX + i) c.mapY).toNat + c.mapY % 240 % 8 + 8)) := by
  have table := Bool.toNat_lt s.control.backgroundTable
  have tile := (s.memory.mapTile board (c.mapX + i) c.mapY).toNat_lt
  have line : c.mapY % 240 % 8 = c.line.val := by
    have := c.line.isLt
    rw [c.mapY_mod h]
    omega
  unfold highAt patternAddressAt Background.patternAddress
  rw [s.tileAt_eq board c h hi, line, show (8 : UInt16) = UInt16.ofNat 8 from rfl,
    ← UInt16.ofNat_add, VideoMemory.peek_pattern _ _ (by omega)]

theorem planesAt_pattern (h : c.row.val < 30) {i : Nat} (hi : i < 8) :
    ((s.planesAt board c).pixel i).pattern.val =
      s.memory.mapPattern board s.control.backgroundTable (c.mapX + i) c.mapY := by
  have column : (c.mapX + i) % 8 = i := by
    unfold Scroll.mapX
    omega
  have val (high low : Bool) : (twoBits high low).val = 2 * high.toNat + low.toNat := by
    cases high <;> cases low <;> rfl
  show (twoBits (bit (s.highAt board c) (7 - i)) (bit (s.lowAt board c) (7 - i))).val = _
  rw [val, s.highAt_eq board c h hi, s.lowAt_eq board c h hi]
  unfold VideoMemory.mapPattern
  rw [column]

theorem planesAt_palette (h : c.row.val < 30) {i : Nat} (hi : i < 8) :
    ((s.planesAt board c).pixel i).palette.val =
      s.memory.mapPalette board (c.mapX + i) c.mapY := by
  have spread (b : Bool) : ∀ k : Fin 8, bit (Background.spread b) k.val = b := by
    cases b <;> decide
  have whole : ∀ p : Fin 4,
      (Fin.ofNat 8 (twoBits (p.val.testBit 1) (p.val.testBit 0)).val).val = p.val := by
    decide
  show (Fin.ofNat 8 (twoBits (bit (Background.spread _) (7 - i))
    (bit (Background.spread _) (7 - i))).val).val = _
  rw [spread _ ⟨7 - i, by omega⟩, spread _ ⟨7 - i, by omega⟩, whole, s.paletteAt_eq board c h hi]

/-- A fetched tile shows in each of its columns what the map shows there. -/
theorem planesAt_pixel (h : c.row.val < 30) {i : Nat} (hi : i < 8) :
    backdropCell ((s.planesAt board c).pixel i) =
      s.memory.mapCell board s.control.backgroundTable (c.mapX + i) c.mapY := by
  have pattern := s.planesAt_pattern board c h hi
  have palette := s.planesAt_palette board c h hi
  unfold backdropCell Pixel.cell VideoMemory.mapCell
  rw [← pattern, ← palette]
  by_cases backdrop : ((s.planesAt board c).pixel i).pattern = 0
  · rw [if_pos backdrop, backdrop]
    rfl
  · have val : ((s.planesAt board c).pixel i).pattern.val ≠ 0 := fun eq => backdrop (Fin.ext eq)
    dsimp only
    rw [if_neg backdrop, if_neg val]

end Picture.Setup

end Famiclone
