import Famiclone.Palette
import Famiclone.Picture.Beam
import Famiclone.Picture.Memory
import Famiclone.Picture.Sprite
import Famiclone.Port.Zapper

/-!
# The picture unit

The unit draws one dot at a time. While it renders it fetches the background two tiles ahead of the
beam, chooses the sprites of the next line at the end of each line and fetches them during the
horizontal blank. The cartridge sees every address of these fetches in the order of the hardware.
-/
namespace Famiclone

/-- The colour numbers of the visible pixels, line by line. -/
abbrev Screen := Vector UInt8 61440

def Screen.blank : Screen := .replicate 61440 0

structure Picture where
  region : Region
  control : Control
  mask : Mask
  status : PictureStatus
  beam : Beam
  /-- Whether the next vertical blank goes unreported. -/
  suppressVblank : Bool
  /-- Where the unit is in the background; also the address of the data port. -/
  cursor : Scroll
  /-- Where the upper left corner of the screen is in the background. -/
  origin : Scroll
  /-- The column of the corner within its tile. -/
  fineX : Fin 8
  /-- Whether the next write to a register of two bytes is the second. -/
  secondWrite : Bool
  /-- The byte that the data port gives next. -/
  readBuffer : UInt8
  /-- The last byte that went through a register. -/
  latch : UInt8
  memory : VideoMemory
  sprites : SpriteMemory
  spriteAddress : UInt8
  background : Background
  /-- The sprites of the line that is drawn, or that comes next. -/
  chosen : List (Fin 64)
  slots : Vector SpriteSlot 8
  screen : Screen

namespace Picture

def initial (region : Region) : Picture where
  region
  control := ⟨0⟩
  mask := ⟨0⟩
  status := .clear
  beam := .start
  suppressVblank := false
  cursor := .zero
  origin := .zero
  fineX := 0
  secondWrite := false
  readBuffer := 0
  latch := 0
  memory := .initial
  sprites := .replicate 256 0
  spriteAddress := 0
  background := .initial
  chosen := []
  slots := .replicate 8 .initial
  screen := .blank

/-- The reset line. Memory and the position of the beam stay. -/
def reset (p : Picture) : Picture :=
  { p with
    control := ⟨0⟩
    mask := ⟨0⟩
    secondWrite := false
    fineX := 0
    origin := .zero
    readBuffer := 0
    beam := { p.beam with odd := false }
    suppressVblank := false }

def onRenderLine (p : Picture) : Bool := p.beam.visible || p.beam.line == p.region.preRenderLine

def rendering (p : Picture) : Bool := p.mask.renders && p.onRenderLine

def nmi (p : Picture) : Bool := p.control.nmiEnabled && p.status.vblank

/-! ## Background -/

variable {β : Type} [PictureBus β]

def fetchTile (p : Picture) (board : β) : Picture × β :=
  let (tile, board) := p.memory.fetch board p.cursor.tileAddress
  ({ p with background := { p.background with tile } }, board)

def fetchPalette (p : Picture) (board : β) : Picture × β :=
  let (value, board) := p.memory.fetch board p.cursor.attributeAddress
  let palette := .ofNat 4 (value.toNat >>> p.cursor.attributeShift)
  ({ p with background := { p.background with palette } }, board)

def tilePattern (p : Picture) : UInt16 :=
  Background.patternAddress p.control.backgroundTable p.background.tile p.cursor.line

def fetchLow (p : Picture) (board : β) : Picture × β :=
  let (patternLow, board) := p.memory.fetch board p.tilePattern
  ({ p with background := { p.background with patternLow } }, board)

def fetchHigh (p : Picture) (board : β) : Picture × β :=
  let (patternHigh, board) := p.memory.fetch board (p.tilePattern + 8)
  ({ p with background := { p.background with patternHigh } }, board)

/-- A dot of the background's fetches, eight of which make a tile. -/
def fetchBackground (p : Picture) (board : β) : Picture × β :=
  match (p.beam.dot - 1) % 8 with
  | 0 => { p with background := p.background.load }.fetchTile board
  | 2 => p.fetchPalette board
  | 4 => p.fetchLow board
  | 6 => p.fetchHigh board
  | 7 => ({ p with cursor := p.cursor.nextTile }, board)
  | _ => (p, board)

/-- Whether the background is fetched and moved at a dot. -/
def fetchesBackground (dot : Nat) : Bool := 2 ≤ dot && dot ≤ 257 || 321 ≤ dot && dot ≤ 337

/-! ## Sprites -/

def spriteOf (p : Picture) (slot : Fin 8) : Sprite :=
  match p.chosen[slot.val]? with
  | some i => .get p.sprites i
  | none => .absent

/-- Choose the sprites of the next line; the first line of a frame has none. -/
def chooseSprites (p : Picture) : Picture :=
  if p.beam.visible then
    let chosen := Sprite.choose p.sprites p.control.spriteHeight p.beam.line
    let overflow := Sprite.overflows p.sprites p.control.spriteHeight p.beam.line chosen
    { p with
      chosen
      status := { p.status with spriteOverflow := p.status.spriteOverflow || overflow } }
  else { p with chosen := [] }

def fetchSpriteLow (p : Picture) (board : β) (slot : Fin 8) : Picture × β :=
  let sprite := p.spriteOf slot
  let (low, board) := p.memory.fetch board (sprite.patternAddress p.control p.beam.line)
  ({ p with slots := put p.slots slot { (p.slots.get slot).begin sprite with low } }, board)

def fetchSpriteHigh (p : Picture) (board : β) (slot : Fin 8) : Picture × β :=
  let sprite := p.spriteOf slot
  let (high, board) := p.memory.fetch board (sprite.patternAddress p.control p.beam.line + 8)
  let filled := { (p.slots.get slot).begin sprite with high }
  ({ p with slots := put p.slots slot (filled.finish (slot.val < p.chosen.length)) }, board)

/-- A dot of the sprites' fetches, eight of which make a slot. The first two reads of each are of a
tile, and nothing comes of them. -/
def fetchSprite (p : Picture) (board : β) : Picture × β :=
  let step := p.beam.dot - 257
  let slot : Fin 8 := .ofNat 8 (step / 8)
  match step % 8 with
  | 0 | 2 => (p, PictureBus.observe board p.cursor.tileAddress)
  | 4 => p.fetchSpriteLow board slot
  | 6 => p.fetchSpriteHigh board slot
  | _ => (p, board)

/-! ## Pixels -/

def backgroundPixel (p : Picture) (x : Nat) : Pixel :=
  if p.mask.backgroundAt x then p.background.pixel p.fineX else .transparent

/-- The slot of the sprite that is in front in a column. -/
def frontSlot (p : Picture) (x : Nat) : Option (Fin 8) :=
  if p.mask.spritesAt x then SpriteSlot.front? p.slots p.chosen.length x else none

/-- The palette cell of the background in front of which there is nothing. -/
def backdropCell (background : Pixel) : Fin 32 :=
  if background.pattern = 0 then 0 else background.cell

def cellAt (p : Picture) (x : Nat) : Fin 32 :=
  let background := p.backgroundPixel x
  match p.frontSlot x with
  | none => backdropCell background
  | some i =>
    if (p.slots.get i).behind ∧ background.pattern ≠ 0 then background.cell
    else ((p.slots.get i).pixel x).cell

def colourAt (p : Picture) (x : Nat) : UInt8 := p.mask.tint (p.memory.palette.get (p.cellAt x))

/-- Whether sprite zero meets the background in a column. The last column does not count. -/
def hitsAt (p : Picture) (x : Nat) : Bool :=
  p.chosen.head? = some 0 && p.frontSlot x = some 0 && (p.backgroundPixel x).pattern ≠ 0 && x ≠ 255

/-- Draw the pixel under the beam, if the beam is on the screen. -/
def drawPixel (p : Picture) : Picture :=
  if h : p.beam.line < 240 ∧ 1 ≤ p.beam.dot ∧ p.beam.dot ≤ 256 then
    let x := p.beam.dot - 1
    let colour := p.colourAt x
    let hit := p.hitsAt x
    { p with
      status := { p.status with spriteZeroHit := p.status.spriteZeroHit || hit }
      screen := p.screen.set (256 * p.beam.line + x) colour (by omega) }
  else p

/-! ## Dots -/

/-- What happens at the end of the visible part of a line. -/
def endLine (p : Picture) : Picture :=
  { p with
    background := p.background.load
    cursor := p.cursor.toColumnOf p.origin }.chooseSprites

/-- Move the background by a dot and fetch it. -/
def backgroundStage (p : Picture) (board : β) : Picture × β :=
  if fetchesBackground p.beam.dot then
    { p with background := p.background.shift }.fetchBackground board
  else (p, board)

/-- Behind the last visible dot go to the next line, and then back to its first column. -/
def lineStage (p : Picture) : Picture :=
  if p.beam.dot = 256 then { p with cursor := p.cursor.nextLine }
  else if p.beam.dot = 257 then p.endLine
  else p

def spriteStage (p : Picture) (board : β) : Picture × β :=
  if 257 ≤ p.beam.dot ∧ p.beam.dot ≤ 320 then { p with spriteAddress := 0 }.fetchSprite board
  else (p, board)

/-- Fetch a tile twice more than is needed. -/
def idleStage (p : Picture) (board : β) : Picture × β :=
  if p.beam.dot = 338 ∨ p.beam.dot = 340 then p.fetchTile board else (p, board)

/-- Before a frame go back to its first line. -/
def frameStage (p : Picture) : Picture :=
  if 280 ≤ p.beam.dot ∧ p.beam.dot ≤ 304 ∧ p.beam.visible = false then
    { p with cursor := p.cursor.toLineOf p.origin }
  else p

/-- What happens in a dot on a line that is rendered before its pixel is drawn. -/
def fetchDot (p : Picture) (board : β) : Picture × β :=
  let (p, board) := p.backgroundStage board
  let (p, board) := p.lineStage.spriteStage board
  let (p, board) := p.idleStage board
  (p.frameStage, board)

def renderDot (p : Picture) (board : β) : Picture × β :=
  let (p, board) := p.fetchDot board
  (p.drawPixel, board)

/-- The flags change at the second dot of two lines: the last line of a frame clears them, and the
first line of the vertical blank reports it. -/
def updateStatus (p : Picture) : Picture :=
  if p.beam.dot = 1 then
    if p.beam.line = p.region.preRenderLine then { p with status := .clear }
    else if p.beam.line = p.region.vblankLine then
      { p with
        status := { p.status with vblank := p.status.vblank || !p.suppressVblank }
        suppressVblank := false }
    else p
  else p

def tick (p : Picture) (board : β) : Picture × β :=
  let p := p.updateStatus
  let (p, board) := if p.rendering then p.renderDot board else (p, board)
  ({ p with beam := p.beam.advance p.region p.mask.renders }, board)

/-- Lines for which a pixel that has been drawn stays bright to a light sensor. -/
def afterglow : Nat := 26

/-- Whether a light sensor sees the screen at a place. -/
def litAt (p : Picture) (place : Point) : Bool :=
  if h : place.x < 256 ∧ place.y < 240 then
    let drawn := place.y < p.beam.line || place.y = p.beam.line && place.x + 1 < p.beam.dot
    drawn && p.beam.line - place.y < afterglow &&
      Palette.isBright (p.screen.get ⟨256 * place.y + place.x, by omega⟩)
  else false

end Picture

end Famiclone
