import Famiclone.Proofs.Picture.TileMap

/-!
# The scene of a frame

What a frame should show is read straight from the memories. At each pixel there are the map of the
background and the first eight sprites that reach the line, in the order of sprite memory. The first of
these that is not transparent there is in front of the other sprites, and its priority decides between it
and the background. Sprites are seen one line below their places, so none reaches the first line.
-/
namespace Famiclone

namespace Picture

/-! ## Sprites of a line -/

section Lines

variable (p : Picture)

/-- A sprite at a place reaches a line of the screen. -/
def Reaches (place : UInt8) (y : Nat) : Prop :=
  0 ≤ (y : Int) - 1 - place.toNat ∧ (y : Int) - 1 - place.toNat < p.control.spriteHeight

instance (place : UInt8) (y : Nat) : Decidable (p.Reaches place y) :=
  inferInstanceAs (Decidable (_ ∧ _))

/-- The sprites of a line of the screen. -/
def spritesOn (y : Nat) : List (Fin 64) :=
  ((List.finRange 64).filter fun i => p.Reaches (Sprite.get p.sprites i).y y).take 8

/-- The search behind the eighth sprite finds one more for the line below `y`. With each sprite that
does not reach the line it also goes on to the next byte of the four. -/
def Overfull (y : Nat) : Prop :=
  (p.spritesOn (y + 1)).length = 8 ∧ ∃ last i : Fin 64,
    (p.spritesOn (y + 1)).getLast? = some last ∧ last < i ∧
      p.Reaches p.sprites[4 * i.val + (i.val - last.val - 1) % 4] (y + 1)

theorem not_reaches_zero (place : UInt8) : ¬ p.Reaches place 0 := by
  unfold Reaches
  omega

theorem reaches_succ (place : UInt8) (line : Nat) :
    p.Reaches place (line + 1) ↔ Sprite.covers p.control.spriteHeight line place = true := by
  simp only [Reaches, Sprite.covers, Bool.and_eq_true, decide_eq_true_eq]
  omega

@[simp] theorem spritesOn_zero : p.spritesOn 0 = [] := by
  simp [spritesOn, not_reaches_zero]

/-- What is chosen at the end of a line are the sprites of the next one. -/
theorem spritesOn_succ (line : Nat) :
    p.spritesOn (line + 1) = Sprite.choose p.sprites p.control.spriteHeight line := by
  simp only [spritesOn, Sprite.choose, reaches_succ, Bool.decide_eq_true]

theorem overfull_iff (line : Nat) : p.Overfull line ↔
    Sprite.overflows p.sprites p.control.spriteHeight line
      (Sprite.choose p.sprites p.control.spriteHeight line) = true := by
  rw [Overfull, spritesOn_succ, Sprite.overflows]
  cases (Sprite.choose p.sprites p.control.spriteHeight line).getLast? with
  | none => simp
  | some last => simp [reaches_succ]

theorem length_spritesOn_le (y : Nat) : (p.spritesOn y).length ≤ 8 := List.length_take_le _ _

theorem spritesOn_pairwise (y : Nat) : (p.spritesOn y).Pairwise (· < ·) :=
  ((List.pairwise_lt_finRange 64).filter _).sublist (List.take_sublist _ _)

theorem reaches_of_mem {y : Nat} {i : Fin 64} (h : i ∈ p.spritesOn y) :
    p.Reaches (Sprite.get p.sprites i).y y := by
  have found := List.mem_of_mem_take h
  simpa using found

end Lines

/-! ## Pixels -/

section Pixels

variable {β : Type} [PictureBus β] (p : Picture) (board : β)

/-- The column of the map that is seen in a column of the screen. -/
def mapColumn (x : Nat) : Nat := (p.origin.mapX + p.fineX.val + x) % 512

/-- The line of the map that is seen on a line of the screen. -/
def mapLine (y : Nat) : Nat := (p.origin.mapY + y) % 480

/-- The pattern of the background at a pixel; the columns on the left can be left out. -/
def groundPattern (x y : Nat) : Nat :=
  if x < 8 ∧ bit p.mask.byte 1 = false then 0
  else p.memory.mapPattern board p.control.backgroundTable (p.mapColumn x) (p.mapLine y)

/-- The entry of the palette for the background at a pixel. -/
def groundCell (x y : Nat) : Fin 32 :=
  let pattern := p.groundPattern board x y
  .ofNat 32 (if pattern = 0 then 0
    else 4 * p.memory.mapPalette board (p.mapColumn x) (p.mapLine y) + pattern)

def spriteLine (s : Sprite) (y : Nat) : Nat :=
  let down := y - 1 - s.y.toNat
  if bit s.attributes 7 then p.control.spriteHeight - 1 - down else down

/-- Where the low bits of a line of a sprite's pattern are. A tall sprite has its two tiles one behind
the other, in the table that the lowest bit of their number tells. -/
def spritePlace (s : Sprite) (line : Nat) : Nat :=
  if p.control.tallSprites then
    4096 * (s.tile.toNat % 2) + 16 * (s.tile.toNat / 2 * 2 + line / 8) + line % 8
  else 4096 * p.control.spriteTable.toNat + 16 * s.tile.toNat + line

/-- The pattern of a sprite at a pixel of a line that it reaches. -/
def spritePattern (i : Fin 64) (x y : Nat) : Nat :=
  let s := Sprite.get p.sprites i
  let low := p.spritePlace s (p.spriteLine s y)
  let right := x - s.x.toNat
  let place := if bit s.attributes 6 then right else 7 - right
  let read (address : Nat) := PictureBus.readChr board (UInt16.ofNat address)
  if s.x.toNat ≤ x ∧ x < s.x.toNat + 8 then
    2 * (bit (read (low + 8)) place).toNat + (bit (read low) place).toNat
  else 0

/-- The sprite that is in front of the others at a pixel; the columns on the left can be left out. -/
def frontSprite (x y : Nat) : Option (Fin 64) :=
  if x < 8 ∧ bit p.mask.byte 2 = false then none
  else (p.spritesOn y).find? fun i => p.spritePattern board i x y ≠ 0

/-- The entry of the palette that is seen at a pixel. -/
def sceneCell (x y : Nat) : Fin 32 :=
  match p.frontSprite board x y with
  | none => p.groundCell board x y
  | some i =>
    let attributes := (Sprite.get p.sprites i).attributes
    if p.groundPattern board x y = 0 ∨ bit attributes 5 = false then
      .ofNat 32 (16 + 4 * (attributes.toNat % 4) + p.spritePattern board i x y)
    else p.groundCell board x y

/-- The colour that is seen at a pixel. -/
def sceneColour (x y : Nat) : UInt8 :=
  let colour := p.memory.palette.get (p.sceneCell board x y)
  if p.mask.grayscale then colour &&& 0x30 else colour

/-- Sprite zero meets the background at a pixel. The last column does not count. -/
def Meets (x y : Nat) : Prop :=
  x < 255 ∧ p.frontSprite board x y = some 0 ∧ p.groundPattern board x y ≠ 0

end Pixels

end Picture

end Famiclone
