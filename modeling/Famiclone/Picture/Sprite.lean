import Famiclone.Picture.Background
import Famiclone.Picture.Control

/-!
# Sprites

Sprite memory describes sixty-four sprites. At the end of a line the first eight that are on the
next line are chosen, and their patterns are fetched into eight slots.
-/
namespace Famiclone

/-- A sprite as sprite memory describes it. It is seen one line below its place. -/
structure Sprite where
  y : UInt8
  tile : UInt8
  attributes : UInt8
  x : UInt8
  deriving DecidableEq, Repr

abbrev SpriteMemory := Vector UInt8 256

namespace Sprite

def get (memory : SpriteMemory) (i : Fin 64) : Sprite where
  y := memory[4 * i.val]
  tile := memory[4 * i.val + 1]
  attributes := memory[4 * i.val + 2]
  x := memory[4 * i.val + 3]

/-- What is fetched for a slot without a sprite. -/
def absent : Sprite := ⟨0xFF, 0xFF, 0xFF, 0xFF⟩

/-- Whether something at place `y` with a given height reaches a line. -/
def covers (height line : Nat) (y : UInt8) : Bool := y.toNat ≤ line && line < y.toNat + height

/-- The sprites that reach a line, in order, at most eight of them. -/
def choose (memory : SpriteMemory) (height line : Nat) : List (Fin 64) :=
  ((List.finRange 64).filter fun i => covers height line (get memory i).y).take 8

/-- The search for a ninth sprite stays inside the memory. -/
theorem searched_lt (last i : Fin 64) : 4 * i.val + (i.val - last.val - 1) % 4 < 256 :=
  calc 4 * i.val + (i.val - last.val - 1) % 4
    _ < 4 * i.val + 4 := Nat.add_lt_add_left (Nat.mod_lt _ (by decide)) _
    _ ≤ 4 * 64 := Nat.mul_le_mul_left 4 i.isLt

/-- Whether more than eight sprites are found. The search goes on behind the eighth, but with each
sprite that it passes over it also moves on to the next of the four bytes. -/
def overflows (memory : SpriteMemory) (height line : Nat) (chosen : List (Fin 64)) : Bool :=
  match chosen.getLast? with
  | none => false
  | some last =>
    chosen.length = 8 && (List.finRange 64).any fun i =>
      decide (last < i) && covers height line
        (getElem memory (4 * i.val + (i.val - last.val - 1) % 4) (searched_lt last i))

def flipsVertically (s : Sprite) : Bool := bit s.attributes 7

/-- Which line of a sprite is seen on the line after a given one. -/
def lineOf (s : Sprite) (height line : Nat) : Nat :=
  let down := (line + 256 - s.y.toNat) % height
  if s.flipsVertically then height - 1 - down else down

/-- The address of the low bits of the sprite's pattern. Tall sprites are made of two tiles and
choose the table themselves. -/
def patternAddress (s : Sprite) (control : Control) (line : Nat) : UInt16 :=
  let down := s.lineOf control.spriteHeight line
  if control.tallSprites then
    UInt16.ofNat (4096 * (s.tile.toNat % 2) + 16 * (s.tile.toNat / 2 * 2 + down / 8) + down % 8)
  else UInt16.ofNat (4096 * control.spriteTable.toNat + 16 * s.tile.toNat + down)

end Sprite

/-- A sprite that is ready to be drawn. -/
structure SpriteSlot where
  low : UInt8
  high : UInt8
  attributes : UInt8
  x : UInt8
  deriving DecidableEq, Repr

namespace SpriteSlot

def initial : SpriteSlot := ⟨0, 0, 0, 0⟩

/-- A byte read from its other end. -/
def reversed (b : UInt8) : UInt8 :=
  UInt8.ofNat ((List.range 8).foldl (fun n i => 2 * n + (bit b i).toNat) 0)

def flipsHorizontally (s : SpriteSlot) : Bool := bit s.attributes 6

def behind (s : SpriteSlot) : Bool := bit s.attributes 5

def begin (s : SpriteSlot) (sprite : Sprite) : SpriteSlot :=
  { s with attributes := sprite.attributes, x := sprite.x }

/-- End a fetch. A slot without a sprite becomes transparent. -/
def finish (s : SpriteSlot) (used : Bool) : SpriteSlot :=
  if !used then { s with low := 0, high := 0 }
  else if s.flipsHorizontally then { s with low := reversed s.low, high := reversed s.high }
  else s

def pattern (s : SpriteSlot) (x : Nat) : Fin 4 :=
  if s.x.toNat ≤ x ∧ x < s.x.toNat + 8 then
    let i := 7 - (x - s.x.toNat)
    twoBits (bit s.high i) (bit s.low i)
  else 0

/-- The pixel of the slot in a column; sprites have the second half of the palette. -/
def pixel (s : SpriteSlot) (x : Nat) : Pixel :=
  ⟨s.pattern x, .ofNat 8 (4 + s.attributes.toNat % 4)⟩

/-- The first of the slots in use that is not transparent in a column. -/
def front? (slots : Vector SpriteSlot 8) (used x : Nat) : Option (Fin 8) :=
  (List.finRange 8).find? fun i => i.val < used && (slots.get i).pattern x != 0

end SpriteSlot

end Famiclone
