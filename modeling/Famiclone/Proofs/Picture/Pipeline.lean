import Famiclone.Proofs.Picture.Dot

/-!
# The pipeline of the background

Each of the four shift registers holds a byte of the tile that is shown and a byte of the next one,
moved up by the dots that have passed since the last load. The latches take in the tile behind these
two. A fetch has eight steps, and `Fetching` says what they have brought in after a number of them;
it holds however the registers were filled before.
-/
namespace Famiclone

/-! ## Two bytes that move -/

/-- Two bytes in a register that has been moved up `n` times. -/
def slide (a b : UInt8) (n : Nat) : UInt16 := UInt16.ofNat ((a.toNat * 256 + b.toNat) * 2 ^ n)

theorem slide_zero (a b : UInt8) : slide a b 0 = word a b := by
  unfold slide word
  rw [Nat.pow_zero, Nat.mul_one]

theorem slide_shift (a b : UInt8) (n : Nat) : slide a b n <<< 1 = slide a b (n + 1) := by
  have double : (a.toNat * 256 + b.toNat) * 2 ^ (n + 1) =
      (a.toNat * 256 + b.toNat) * 2 ^ n * 2 := by
    rw [Nat.pow_succ, Nat.mul_assoc]
  unfold slide
  rw [double]
  generalize (a.toNat * 256 + b.toNat) * 2 ^ n = k
  apply UInt16.toNat_inj.1
  rw [UInt16.toNat_shiftLeft, UInt16.toNat_ofNat', UInt16.toNat_ofNat', Nat.shiftLeft_eq]
  show k % 65536 * 2 % 65536 = k * 2 % 65536
  omega

/-- After eight moves the lower byte has become the upper one. -/
theorem highByte_slide (a b : UInt8) : highByte (slide a b 8) = b := by
  apply UInt8.toNat_inj.1
  have := b.toNat_lt
  simp only [highByte, slide, UInt8.toNat_ofNat', UInt16.toNat_ofNat']
  omega

/-- The moves bring the bits of both bytes to the upper end one after the other. -/
theorem testBit_slide (a b : UInt8) (n f : Nat) (h : f + n < 16) :
    (slide a b n).toNat.testBit (15 - f) =
      if f + n < 8 then bit a (7 - (f + n)) else bit b (7 - (f + n - 8)) := by
  have place : 15 - f - n = 15 - (f + n) := by omega
  have within : n ≤ 15 - f := by omega
  have low : 15 - f < 16 := by omega
  unfold slide bit
  rw [UInt16.toNat_ofNat', Nat.testBit_mod_two_pow, Nat.testBit_mul_two_pow, place,
    Nat.mul_comm a.toNat 256, show (256 : Nat) = 2 ^ 8 from rfl,
    Nat.testBit_two_pow_mul_add a.toNat b.toNat_lt]
  simp only [low, within, decide_true, Bool.true_and]
  split
  · rw [if_neg (by omega), show 7 - (f + n - 8) = 15 - (f + n) by omega]
  · rw [if_pos (by omega), show 7 - (f + n) = 15 - (f + n) - 8 by omega]

/-! ## Tiles in the registers -/

/-- The bytes that a line of a tile puts into the four registers. -/
structure Planes where
  low : UInt8
  high : UInt8
  paletteLow : UInt8
  paletteHigh : UInt8

/-- The pixel in one of the eight columns of the line. -/
def Planes.pixel (p : Planes) (i : Nat) : Pixel :=
  ⟨twoBits (bit p.high (7 - i)) (bit p.low (7 - i)),
    .ofNat 8 (twoBits (bit p.paletteHigh (7 - i)) (bit p.paletteLow (7 - i))).val⟩

namespace Background

def planes (g : Background) : Planes :=
  ⟨g.patternLow, g.patternHigh, spread (g.palette.val.testBit 0), spread (g.palette.val.testBit 1)⟩

def upper (g : Background) : Planes :=
  ⟨highByte g.shiftLow, highByte g.shiftHigh, highByte g.paletteLow, highByte g.paletteHigh⟩

/-- The registers hold the lines of two tiles, moved up `n` times. -/
structure Holds (g : Background) (a b : Planes) (n : Nat) : Prop where
  low : g.shiftLow = slide a.low b.low n
  high : g.shiftHigh = slide a.high b.high n
  paletteLow : g.paletteLow = slide a.paletteLow b.paletteLow n
  paletteHigh : g.paletteHigh = slide a.paletteHigh b.paletteHigh n

variable {g : Background} {a b : Planes} {n : Nat}

theorem Holds.shift (h : g.Holds a b n) : g.shift.Holds a b (n + 1) := by
  refine ⟨?_, ?_, ?_, ?_⟩
  · rw [← slide_shift, ← h.low]; rfl
  · rw [← slide_shift, ← h.high]; rfl
  · rw [← slide_shift, ← h.paletteLow]; rfl
  · rw [← slide_shift, ← h.paletteHigh]; rfl

theorem Holds.upper (h : g.Holds a b 8) : g.upper = b := by
  unfold Background.upper
  rw [h.low, h.high, h.paletteLow, h.paletteHigh]
  simp only [highByte_slide]

/-- A load keeps the upper bytes and takes the lower ones from the latches. -/
theorem load_holds (g : Background) : g.load.Holds g.upper g.planes 0 := by
  refine ⟨?_, ?_, ?_, ?_⟩ <;> exact (slide_zero _ _).symm

/-- What the registers put out is a pixel of one of the two tiles. -/
theorem Holds.pixel (h : g.Holds a b n) (fineX : Fin 8) (hn : n < 8) :
    g.pixel fineX =
      if fineX.val + n < 8 then a.pixel (fineX.val + n) else b.pixel (fineX.val + n - 8) := by
  have width : fineX.val + n < 16 := by omega
  unfold Background.pixel Planes.pixel
  simp only [h.low, h.high, h.paletteLow, h.paletteHigh, testBit_slide _ _ n fineX.val width]
  split <;> rfl

end Background

/-! ## Rows of tiles -/

namespace Scroll

/-- The position some tiles further on. -/
def tilesOn (s : Scroll) (k : Nat) : Scroll := nextTile^[k] s

theorem tilesOn_succ (s : Scroll) (k : Nat) : s.tilesOn (k + 1) = (s.tilesOn k).nextTile :=
  Function.iterate_succ_apply' _ _ _

theorem nextTile_toColumnOf (s t : Scroll) : s.nextTile.toColumnOf t = s.toColumnOf t := rfl

theorem nextLine_toColumnOf (s t : Scroll) :
    s.nextLine.toColumnOf t = (s.toColumnOf t).nextLine := by
  have line : (s.toColumnOf t).line = s.line := rfl
  unfold nextLine
  rw [line]
  by_cases last : s.line = 7
  · rw [if_pos last, if_pos last]
    rfl
  · rw [if_neg last, if_neg last]
    rfl

theorem tilesOn_toColumnOf (s t : Scroll) (k : Nat) :
    (s.tilesOn k).toColumnOf t = s.toColumnOf t := by
  induction k with
  | zero => rfl
  | succ k ih => rw [tilesOn_succ, nextTile_toColumnOf, ih]

end Scroll

/-! ## Fetches -/

namespace Picture.Setup

variable {β : Type} [PictureBus β]

def tileAt (s : Setup) (board : β) (c : Scroll) : UInt8 := s.memory.peek board c.tileAddress

def paletteAt (s : Setup) (board : β) (c : Scroll) : Fin 4 :=
  .ofNat 4 ((s.memory.peek board c.attributeAddress).toNat >>> c.attributeShift)

def patternAddressAt (s : Setup) (board : β) (c : Scroll) : UInt16 :=
  Background.patternAddress s.control.backgroundTable (s.tileAt board c) c.line

def lowAt (s : Setup) (board : β) (c : Scroll) : UInt8 :=
  s.memory.peek board (s.patternAddressAt board c)

def highAt (s : Setup) (board : β) (c : Scroll) : UInt8 :=
  s.memory.peek board (s.patternAddressAt board c + 8)

/-- What the tile at a position puts into the registers. -/
def planesAt (s : Setup) (board : β) (c : Scroll) : Planes :=
  ⟨s.lowAt board c, s.highAt board c, Background.spread ((s.paletteAt board c).val.testBit 0),
    Background.spread ((s.paletteAt board c).val.testBit 1)⟩

section Steps

variable (s : Setup) (board : β) (cursor : Scroll) (g : Background)

theorem fetched_tile {step : Nat} (h : step ≠ 0) :
    (s.fetched step board cursor g).tile = g.tile := by
  unfold fetched
  split
  · contradiction
  all_goals rfl

theorem fetched_palette (step : Nat) :
    (s.fetched step board cursor g).palette =
      if step = 2 then s.paletteAt board cursor else g.palette := by
  unfold fetched
  split
  · rfl
  · rfl
  · rfl
  · rfl
  · rw [if_neg ‹_›]

theorem fetched_patternLow {step : Nat} (tile : g.tile = s.tileAt board cursor) :
    (s.fetched step board cursor g).patternLow =
      if step = 4 then s.lowAt board cursor else g.patternLow := by
  unfold fetched lowAt patternAddressAt
  rw [tile]
  split
  · rfl
  · rfl
  · rfl
  · rfl
  · rw [if_neg ‹_›]

theorem fetched_patternHigh {step : Nat} (tile : g.tile = s.tileAt board cursor) :
    (s.fetched step board cursor g).patternHigh =
      if step = 6 then s.highAt board cursor else g.patternHigh := by
  unfold fetched highAt patternAddressAt
  rw [tile]
  split
  · rfl
  · rfl
  · rfl
  · rfl
  · rw [if_neg ‹_›]

theorem fetched_holds {step : Nat} {a b : Planes} {n : Nat} (h : step ≠ 0) (holds : g.Holds a b n) :
    (s.fetched step board cursor g).Holds a b n := by
  unfold fetched
  split
  · contradiction
  all_goals exact ⟨holds.low, holds.high, holds.paletteLow, holds.paletteHigh⟩

end Steps

/-- Tile `t` of a row is being fetched, and `step` steps have been made behind the first. The
registers hold the two tiles before it as far as there are any. -/
structure Fetching (s : Setup) (board : β) (row : Scroll) (t step : Nat) (cursor : Scroll)
    (g : Background) : Prop where
  cursor : cursor = row.tilesOn (if step = 7 then t + 1 else t)
  tile : g.tile = s.tileAt board (row.tilesOn t)
  palette : 2 ≤ step → g.palette = s.paletteAt board (row.tilesOn t)
  low : 4 ≤ step → g.patternLow = s.lowAt board (row.tilesOn t)
  high : 6 ≤ step → g.patternHigh = s.highAt board (row.tilesOn t)
  before : 1 ≤ t → ∃ older, (2 ≤ t → older = s.planesAt board (row.tilesOn (t - 2))) ∧
    g.Holds older (s.planesAt board (row.tilesOn (t - 1))) step

variable {s : Setup} {board : β} {row cursor : Scroll} {t step : Nat} {g : Background}

/-- The next step of a fetch. -/
theorem Fetching.next (h : s.Fetching board row t step cursor g) (hs : step < 7) :
    s.Fetching board row t (step + 1) (if step + 1 = 7 then cursor.nextTile else cursor)
      (s.fetched (step + 1) board cursor g.shift) := by
  have here : cursor = row.tilesOn t := by
    rw [h.cursor, if_neg (by omega)]
  have tile : g.shift.tile = s.tileAt board cursor := by
    rw [here]
    exact h.tile
  have later : step + 1 ≠ 0 := Nat.succ_ne_zero step
  refine ⟨?_, ?_, ?_, ?_, ?_, ?_⟩
  · split
    · rw [here, Scroll.tilesOn_succ]
    · exact here
  · rw [fetched_tile _ _ _ _ later]
    exact h.tile
  · intro due
    rw [fetched_palette]
    split
    · rw [here]
    · exact h.palette (by omega)
  · intro due
    rw [fetched_patternLow _ _ _ _ tile]
    split
    · rw [here]
    · exact h.low (by omega)
  · intro due
    rw [fetched_patternHigh _ _ _ _ tile]
    split
    · rw [here]
    · exact h.high (by omega)
  · intro second
    obtain ⟨older, oldest, holds⟩ := h.before second
    exact ⟨older, oldest, fetched_holds _ _ _ _ later holds.shift⟩

/-- The first step of the fetch of the next tile loads the one that has been fetched. -/
theorem Fetching.wrap (h : s.Fetching board row t 7 cursor g) :
    s.Fetching board row (t + 1) 0 cursor (s.fetched 0 board cursor g.shift) := by
  have here : cursor = row.tilesOn (t + 1) := h.cursor
  have latches : g.shift.planes = s.planesAt board (row.tilesOn t) := by
    show g.planes = _
    unfold Background.planes planesAt
    rw [h.palette (by decide), h.low (by decide), h.high (by decide)]
  have loaded := Background.load_holds g.shift
  rw [latches] at loaded
  refine ⟨here, ?_, ?_, ?_, ?_, ?_⟩
  · rw [← here]
    rfl
  · intro due
    contradiction
  · intro due
    contradiction
  · intro due
    contradiction
  · intro _
    refine ⟨g.shift.upper, ?_, loaded.low, loaded.high, loaded.paletteLow, loaded.paletteHigh⟩
    intro third
    obtain ⟨older, _, holds⟩ := h.before (by omega)
    exact holds.shift.upper

end Picture.Setup

end Famiclone
