import Famiclone.Picture.Unit
import Mathlib.Tactic

/-!
# What one dot does

The registers, the memories and the place of the beam are the setup of the picture unit; drawing leaves
the setup alone. The cursor and the background follow rules of their own, which depend on the dot and
on what the bus shows, and the board hears a row of addresses that does not depend on what is read.
Later statements about lines and frames use these rules and do not look into a dot again.
-/
namespace Famiclone

/-- A bus on which hearing an address changes neither the patterns nor the nametables. -/
class LawfulPictureBus (β : Type) [PictureBus β] : Prop where
  readChr_observe : ∀ (b : β) (a : UInt16),
    PictureBus.readChr (PictureBus.observe b a) = PictureBus.readChr b
  mirroring_observe : ∀ (b : β) (a : UInt16),
    PictureBus.mirroring (PictureBus.observe b a) = PictureBus.mirroring b

namespace VideoMemory

variable {β : Type} [PictureBus β]

variable [LawfulPictureBus β]

@[simp] theorem peek_observe (m : VideoMemory) (board : β) (heard address : UInt16) :
    m.peek (PictureBus.observe board heard) address = m.peek board address := by
  simp only [peek, LawfulPictureBus.readChr_observe, LawfulPictureBus.mirroring_observe]

@[simp] theorem peek_foldl_observe (m : VideoMemory) (board : β) (heard : List UInt16)
    (address : UInt16) :
    m.peek (heard.foldl PictureBus.observe board) address = m.peek board address := by
  induction heard generalizing board with
  | nil => rfl
  | cons a heard ih => rw [List.foldl_cons, ih, peek_observe]

theorem fetch_fst (m : VideoMemory) (board : β) (address : UInt16) :
    (m.fetch board address).1 = m.peek board address := peek_observe m board address address

end VideoMemory

namespace Picture

/-- What drawing a dot leaves alone. -/
structure Setup where
  region : Region
  control : Control
  mask : Mask
  beam : Beam
  origin : Scroll
  fineX : Fin 8
  memory : VideoMemory
  sprites : SpriteMemory

def setup (p : Picture) : Setup :=
  ⟨p.region, p.control, p.mask, p.beam, p.origin, p.fineX, p.memory, p.sprites⟩

/-! ## The setup stays -/

section Setup

variable {β : Type} [PictureBus β]

@[simp] theorem fetchBackground_setup (p : Picture) (board : β) :
    (p.fetchBackground board).1.setup = p.setup := by
  unfold fetchBackground
  split <;> rfl

@[simp] theorem chooseSprites_setup (p : Picture) : p.chooseSprites.setup = p.setup := by
  unfold chooseSprites
  split <;> rfl

@[simp] theorem endLine_setup (p : Picture) : p.endLine.setup = p.setup := chooseSprites_setup _

@[simp] theorem fetchSprite_setup (p : Picture) (board : β) :
    (p.fetchSprite board).1.setup = p.setup := by
  unfold fetchSprite
  dsimp only
  split <;> rfl

@[simp] theorem drawPixel_setup (p : Picture) : p.drawPixel.setup = p.setup := by
  unfold drawPixel
  split <;> rfl

end Setup

/-! ## A dot in stages -/

section Stages

variable {β : Type} [PictureBus β]

@[simp] theorem backgroundStage_setup (p : Picture) (board : β) :
    (p.backgroundStage board).1.setup = p.setup := by
  unfold backgroundStage
  split
  · exact fetchBackground_setup _ board
  · rfl

@[simp] theorem lineStage_setup (p : Picture) : p.lineStage.setup = p.setup := by
  unfold lineStage
  split
  · rfl
  · split
    · exact endLine_setup p
    · rfl

@[simp] theorem spriteStage_setup (p : Picture) (board : β) :
    (p.spriteStage board).1.setup = p.setup := by
  unfold spriteStage
  split
  · exact fetchSprite_setup _ board
  · rfl

@[simp] theorem idleStage_setup (p : Picture) (board : β) :
    (p.idleStage board).1.setup = p.setup := by
  unfold idleStage
  split <;> rfl

@[simp] theorem frameStage_setup (p : Picture) : p.frameStage.setup = p.setup := by
  unfold frameStage
  split <;> rfl

@[simp] theorem fetchDot_setup (p : Picture) (board : β) :
    (p.fetchDot board).1.setup = p.setup := by
  unfold fetchDot
  dsimp only
  rw [frameStage_setup, idleStage_setup, spriteStage_setup, lineStage_setup,
    backgroundStage_setup]

@[simp] theorem renderDot_setup (p : Picture) (board : β) :
    (p.renderDot board).1.setup = p.setup := by
  unfold renderDot
  dsimp only
  rw [drawPixel_setup, fetchDot_setup]

@[simp] theorem updateStatus_setup (p : Picture) : p.updateStatus.setup = p.setup := by
  unfold updateStatus
  split
  · split
    · rfl
    · split <;> rfl
  · rfl

/-- A dot moves the beam on and leaves the rest of the setup alone. -/
theorem tick_setup (p : Picture) (board : β) :
    (p.tick board).1.setup = { p.setup with beam := p.beam.advance p.region p.mask.renders } := by
  have kept : ∀ q r : Picture, q.setup = r.setup →
      { q with beam := q.beam.advance q.region q.mask.renders }.setup =
        { r.setup with beam := r.beam.advance r.region r.mask.renders } := by
    intro q r h
    simp only [setup, Setup.mk.injEq] at h ⊢
    simp only [h, and_self]
  unfold tick
  dsimp only
  split
  · refine kept _ p ?_
    rw [renderDot_setup, updateStatus_setup]
  · exact kept _ p (updateStatus_setup p)

end Stages

/-! ## The cursor -/

/-- Where the cursor goes in a dot of a line that is rendered. -/
def Setup.nextCursor (s : Setup) (cursor : Scroll) : Scroll :=
  let dot := s.beam.dot
  let c := if fetchesBackground dot ∧ (dot - 1) % 8 = 7 then cursor.nextTile else cursor
  let c :=
    if dot = 256 then c.nextLine else if dot = 257 then c.toColumnOf s.origin else c
  if 280 ≤ dot ∧ dot ≤ 304 ∧ s.beam.visible = false then c.toLineOf s.origin else c

section Cursor

variable {β : Type} [PictureBus β]

theorem backgroundStage_cursor (p : Picture) (board : β) :
    (p.backgroundStage board).1.cursor =
      if fetchesBackground p.setup.beam.dot ∧ (p.setup.beam.dot - 1) % 8 = 7 then
        p.cursor.nextTile
      else p.cursor := by
  show _ = if fetchesBackground p.beam.dot ∧ (p.beam.dot - 1) % 8 = 7 then _ else _
  unfold backgroundStage
  by_cases fetches : fetchesBackground p.beam.dot = true
  · simp only [fetches, if_true, true_and]
    unfold fetchBackground
    dsimp only
    split <;> simp_all [fetchTile, fetchPalette, fetchLow, fetchHigh]
  · simp only [fetches, Bool.false_eq_true, if_false, false_and]

@[simp] theorem chooseSprites_cursor (p : Picture) : p.chooseSprites.cursor = p.cursor := by
  unfold chooseSprites
  split <;> rfl

theorem lineStage_cursor (p : Picture) :
    p.lineStage.cursor =
      if p.setup.beam.dot = 256 then p.cursor.nextLine
      else if p.setup.beam.dot = 257 then p.cursor.toColumnOf p.setup.origin
      else p.cursor := by
  show _ = if p.beam.dot = 256 then _ else if p.beam.dot = 257 then _ else _
  unfold lineStage
  split
  · rfl
  · split
    · exact chooseSprites_cursor _
    · rfl

@[simp] theorem spriteStage_cursor (p : Picture) (board : β) :
    (p.spriteStage board).1.cursor = p.cursor := by
  unfold spriteStage fetchSprite
  dsimp only
  split
  · split <;> rfl
  · rfl

@[simp] theorem idleStage_cursor (p : Picture) (board : β) :
    (p.idleStage board).1.cursor = p.cursor := by
  unfold idleStage
  split <;> rfl

theorem frameStage_cursor (p : Picture) :
    p.frameStage.cursor =
      if 280 ≤ p.setup.beam.dot ∧ p.setup.beam.dot ≤ 304 ∧ p.setup.beam.visible = false then
        p.cursor.toLineOf p.setup.origin
      else p.cursor := by
  show _ = if 280 ≤ p.beam.dot ∧ p.beam.dot ≤ 304 ∧ p.beam.visible = false then _ else _
  unfold frameStage
  split <;> rfl

@[simp] theorem drawPixel_cursor (p : Picture) : p.drawPixel.cursor = p.cursor := by
  unfold drawPixel
  split <;> rfl

theorem renderDot_cursor (p : Picture) (board : β) :
    (p.renderDot board).1.cursor = p.setup.nextCursor p.cursor := by
  unfold renderDot fetchDot
  dsimp only
  simp only [drawPixel_cursor, frameStage_cursor, idleStage_setup, idleStage_cursor,
    spriteStage_setup, spriteStage_cursor, lineStage_setup, lineStage_cursor,
    backgroundStage_setup, backgroundStage_cursor, Setup.nextCursor]

end Cursor

/-! ## The addresses on the bus -/

/-- What the background puts on the bus in a dot. -/
def Setup.backgroundAddresses (s : Setup) (cursor : Scroll) (g : Background) : List UInt16 :=
  let pattern := Background.patternAddress s.control.backgroundTable g.tile cursor.line
  if fetchesBackground s.beam.dot then
    match (s.beam.dot - 1) % 8 with
    | 0 => [cursor.tileAddress]
    | 2 => [cursor.attributeAddress]
    | 4 => [pattern]
    | 6 => [pattern + 8]
    | _ => []
  else []

def spriteAddresses (p : Picture) : List UInt16 :=
  let step := p.beam.dot - 257
  let pattern := (p.spriteOf (.ofNat 8 (step / 8))).patternAddress p.control p.beam.line
  if 257 ≤ p.beam.dot ∧ p.beam.dot ≤ 320 then
    match step % 8 with
    | 0 | 2 => [p.cursor.tileAddress]
    | 4 => [pattern]
    | 6 => [pattern + 8]
    | _ => []
  else []

/-- What is put on the bus at the end of a line. -/
def Setup.idleAddresses (s : Setup) (cursor : Scroll) : List UInt16 :=
  if s.beam.dot = 338 ∨ s.beam.dot = 340 then [cursor.tileAddress] else []

section Addresses

variable {β : Type} [PictureBus β]

/-- The addresses that a dot puts on the bus, in order. -/
def heard (p : Picture) (board : β) : List UInt16 :=
  let q := (p.updateStatus.backgroundStage board).1.lineStage
  if p.rendering then
    p.setup.backgroundAddresses p.cursor p.background ++ q.spriteAddresses ++
      q.setup.idleAddresses q.cursor
  else []

theorem backgroundStage_snd (p : Picture) (board : β) :
    (p.backgroundStage board).2 =
      (p.setup.backgroundAddresses p.cursor p.background).foldl PictureBus.observe board := by
  unfold backgroundStage fetchBackground Setup.backgroundAddresses
  show (if fetchesBackground p.beam.dot = true then _ else _ : Picture × β).2 =
    (if fetchesBackground p.beam.dot = true then _ else []).foldl PictureBus.observe board
  dsimp only [setup]
  generalize (p.beam.dot - 1) % 8 = step
  split
  · match step with
    | 0 | 1 | 2 | 3 | 4 | 5 | 6 | 7 | _ + 8 => rfl
  · rfl

theorem spriteStage_snd (p : Picture) (board : β) :
    (p.spriteStage board).2 = p.spriteAddresses.foldl PictureBus.observe board := by
  unfold spriteStage fetchSprite spriteAddresses
  dsimp only
  generalize (p.beam.dot - 257) % 8 = step
  split
  · match step with
    | 0 | 1 | 2 | 3 | 4 | 5 | 6 | _ + 7 => rfl
  · rfl

theorem idleStage_snd (p : Picture) (board : β) :
    (p.idleStage board).2 =
      (p.setup.idleAddresses p.cursor).foldl PictureBus.observe board := by
  unfold idleStage Setup.idleAddresses
  dsimp only [setup]
  by_cases idle : p.beam.dot = 338 ∨ p.beam.dot = 340
  · simp only [idle, if_true]
    rfl
  · simp only [idle, if_false, List.foldl_nil]

end Addresses

/-! ## The background -/

/-- What one of the eight steps of a fetch does to the background. -/
def Setup.fetched {β : Type} [PictureBus β] (s : Setup) (step : Nat) (board : β) (cursor : Scroll)
    (g : Background) : Background :=
  let pattern := Background.patternAddress s.control.backgroundTable g.tile cursor.line
  match step with
  | 0 => { g.load with tile := s.memory.peek board cursor.tileAddress }
  | 2 =>
    let value := s.memory.peek board cursor.attributeAddress
    { g with palette := .ofNat 4 (value.toNat >>> cursor.attributeShift) }
  | 4 => { g with patternLow := s.memory.peek board pattern }
  | 6 => { g with patternHigh := s.memory.peek board (pattern + 8) }
  | _ => g

/-- What a dot of a line that is rendered does to the background. -/
def Setup.nextBackground {β : Type} [PictureBus β] (s : Setup) (board : β) (cursor : Scroll)
    (g : Background) : Background :=
  let dot := s.beam.dot
  let g := if fetchesBackground dot then s.fetched ((dot - 1) % 8) board cursor g.shift else g
  let g := if dot = 257 then g.load else g
  if dot = 338 ∨ dot = 340 then { g with tile := s.memory.peek board cursor.tileAddress } else g

section Background

variable {β : Type} [PictureBus β]

@[simp] theorem chooseSprites_background (p : Picture) :
    p.chooseSprites.background = p.background := by
  unfold chooseSprites
  split <;> rfl

theorem lineStage_background (p : Picture) :
    p.lineStage.background =
      if p.setup.beam.dot = 257 then p.background.load else p.background := by
  show _ = if p.beam.dot = 257 then _ else _
  unfold lineStage
  by_cases last : p.beam.dot = 257
  · have ne : ¬ p.beam.dot = 256 := by omega
    rw [if_neg ne, if_pos last, if_pos last]
    exact chooseSprites_background _
  · rw [if_neg last, if_neg last]
    split <;> rfl

@[simp] theorem spriteStage_background (p : Picture) (board : β) :
    (p.spriteStage board).1.background = p.background := by
  unfold spriteStage fetchSprite
  dsimp only
  split
  · split <;> rfl
  · rfl

@[simp] theorem frameStage_background (p : Picture) :
    p.frameStage.background = p.background := by
  unfold frameStage
  split <;> rfl

@[simp] theorem drawPixel_background (p : Picture) : p.drawPixel.background = p.background := by
  unfold drawPixel
  split <;> rfl

variable [LawfulPictureBus β]

theorem backgroundStage_background (p : Picture) (board : β) :
    (p.backgroundStage board).1.background =
      if fetchesBackground p.setup.beam.dot then
        p.setup.fetched ((p.setup.beam.dot - 1) % 8) board p.cursor p.background.shift
      else p.background := by
  show _ = if fetchesBackground p.beam.dot then _ else _
  unfold backgroundStage
  by_cases fetches : fetchesBackground p.beam.dot = true
  · rw [if_pos fetches, if_pos fetches]
    unfold fetchBackground Setup.fetched
    dsimp only [setup]
    generalize (p.beam.dot - 1) % 8 = step
    match step with
    | 0 => simp only [fetchTile, VideoMemory.fetch_fst]
    | 2 => simp only [fetchPalette, VideoMemory.fetch_fst]
    | 4 => simp only [fetchLow, tilePattern, VideoMemory.fetch_fst]
    | 6 => simp only [fetchHigh, tilePattern, VideoMemory.fetch_fst]
    | 1 | 3 | 5 | 7 | _ + 8 => rfl
  · rw [if_neg fetches, if_neg fetches]

theorem idleStage_background (p : Picture) (board : β) :
    (p.idleStage board).1.background =
      if p.setup.beam.dot = 338 ∨ p.setup.beam.dot = 340 then
        { p.background with tile := p.setup.memory.peek board p.cursor.tileAddress }
      else p.background := by
  show _ = if p.beam.dot = 338 ∨ p.beam.dot = 340 then _ else _
  unfold idleStage
  by_cases idle : p.beam.dot = 338 ∨ p.beam.dot = 340
  · rw [if_pos idle, if_pos idle]
    simp only [fetchTile, VideoMemory.fetch_fst]
    rfl
  · rw [if_neg idle, if_neg idle]

theorem renderDot_background (p : Picture) (board : β) :
    (p.renderDot board).1.background =
      p.setup.nextBackground board p.cursor p.background := by
  unfold renderDot fetchDot
  dsimp only
  simp only [drawPixel_background, frameStage_background, idleStage_background,
    spriteStage_setup, spriteStage_cursor, spriteStage_background, lineStage_setup,
    lineStage_background, backgroundStage_setup, backgroundStage_background,
    spriteStage_snd, backgroundStage_snd, VideoMemory.peek_foldl_observe, lineStage_cursor,
    backgroundStage_cursor, Setup.nextBackground]
  -- The cursor has not moved in the two dots in which the tile is fetched once more.
  by_cases idle : p.setup.beam.dot = 338 ∨ p.setup.beam.dot = 340
  · have rest : fetchesBackground p.setup.beam.dot = false := by
      obtain dot | dot := idle <;> rw [dot] <;> rfl
    have ne : ¬ p.setup.beam.dot = 256 := by omega
    have ne' : ¬ p.setup.beam.dot = 257 := by omega
    rw [if_pos idle, if_pos idle, if_neg ne, if_neg ne', if_neg ne', rest]
    simp only [Bool.false_eq_true, if_false, false_and]
  · rw [if_neg idle, if_neg idle]

end Background

/-! ## Whole dots -/

def Setup.rendering (s : Setup) : Bool :=
  s.mask.renders && (s.beam.visible || s.beam.line == s.region.preRenderLine)

section Ticks

variable {β : Type} [PictureBus β]

@[simp] theorem setup_rendering (p : Picture) : p.setup.rendering = p.rendering := rfl

@[simp] theorem updateStatus_rendering (p : Picture) : p.updateStatus.rendering = p.rendering := by
  rw [← setup_rendering, updateStatus_setup, setup_rendering]

/-- Without rendering a dot moves the beam and the status, and the board sees nothing. -/
theorem tick_of_dark {p : Picture} (dark : p.mask.renders = false) (board : β) :
    p.tick board =
      ({ p.updateStatus with
          beam := p.updateStatus.beam.advance p.updateStatus.region p.updateStatus.mask.renders },
        board) := by
  have rendering : p.updateStatus.rendering = false := by
    rw [updateStatus_rendering]
    unfold rendering
    rw [dark, Bool.false_and]
  unfold tick
  dsimp only
  rw [rendering]
  rfl

@[simp] theorem updateStatus_cursor (p : Picture) : p.updateStatus.cursor = p.cursor := by
  unfold updateStatus
  split
  · split
    · rfl
    · split <;> rfl
  · rfl

@[simp] theorem updateStatus_background (p : Picture) :
    p.updateStatus.background = p.background := by
  unfold updateStatus
  split
  · split
    · rfl
    · split <;> rfl
  · rfl

@[simp] theorem updateStatus_screen (p : Picture) : p.updateStatus.screen = p.screen := by
  unfold updateStatus
  split
  · split
    · rfl
    · split <;> rfl
  · rfl

theorem renderDot_snd (p : Picture) (board : β) :
    let q := (p.backgroundStage board).1.lineStage
    (p.renderDot board).2 =
      (p.setup.backgroundAddresses p.cursor p.background ++ q.spriteAddresses ++
        q.setup.idleAddresses q.cursor).foldl PictureBus.observe board := by
  unfold renderDot fetchDot
  dsimp only
  rw [idleStage_snd, spriteStage_snd, spriteStage_setup, spriteStage_cursor, backgroundStage_snd,
    List.foldl_append, List.foldl_append]

theorem tick_cursor (p : Picture) (board : β) (rendering : p.rendering = true) :
    (p.tick board).1.cursor = p.setup.nextCursor p.cursor := by
  unfold tick
  dsimp only
  rw [if_pos (by rw [updateStatus_rendering, rendering]), renderDot_cursor, updateStatus_setup,
    updateStatus_cursor]

theorem tick_background [LawfulPictureBus β] (p : Picture) (board : β)
    (rendering : p.rendering = true) :
    (p.tick board).1.background = p.setup.nextBackground board p.cursor p.background := by
  unfold tick
  dsimp only
  rw [if_pos (by rw [updateStatus_rendering, rendering]), renderDot_background,
    updateStatus_setup, updateStatus_cursor, updateStatus_background]

/-- The board hears the addresses of the dot, and nothing else happens to it. -/
theorem tick_snd (p : Picture) (board : β) :
    (p.tick board).2 = (p.heard board).foldl PictureBus.observe board := by
  unfold tick heard
  dsimp only
  by_cases rendering : p.rendering = true
  · rw [if_pos (by rw [updateStatus_rendering, rendering]), if_pos rendering, renderDot_snd,
      updateStatus_setup, updateStatus_cursor, updateStatus_background]
  · rw [if_neg (by rw [updateStatus_rendering]; exact rendering), if_neg rendering]
    rfl

end Ticks

/-! ## The screen -/

def Setup.draws (s : Setup) : Prop := s.beam.line < 240 ∧ 1 ≤ s.beam.dot ∧ s.beam.dot ≤ 256

section Screen

variable {β : Type} [PictureBus β]

@[simp] theorem fetchBackground_screen (p : Picture) (board : β) :
    (p.fetchBackground board).1.screen = p.screen := by
  unfold fetchBackground
  split <;> rfl

@[simp] theorem chooseSprites_screen (p : Picture) : p.chooseSprites.screen = p.screen := by
  unfold chooseSprites
  split <;> rfl

@[simp] theorem fetchSprite_screen (p : Picture) (board : β) :
    (p.fetchSprite board).1.screen = p.screen := by
  unfold fetchSprite
  dsimp only
  split <;> rfl

theorem fetchDot_screen (p : Picture) (board : β) :
    (p.fetchDot board).1.screen = p.screen := by
  have background : (p.backgroundStage board).1.screen = p.screen := by
    unfold backgroundStage
    split
    · exact fetchBackground_screen _ board
    · rfl
  have line (q : Picture) : q.lineStage.screen = q.screen := by
    unfold lineStage endLine
    split
    · rfl
    · split
      · exact chooseSprites_screen _
      · rfl
  have sprite (q : Picture) (b : β) : (q.spriteStage b).1.screen = q.screen := by
    unfold spriteStage
    split
    · exact fetchSprite_screen _ b
    · rfl
  have idle (q : Picture) (b : β) : (q.idleStage b).1.screen = q.screen := by
    unfold idleStage
    split <;> rfl
  have frame (q : Picture) : q.frameStage.screen = q.screen := by
    unfold frameStage
    split <;> rfl
  unfold fetchDot
  dsimp only
  rw [frame, idle, sprite, line, background]

theorem setup_beam (p : Picture) : p.setup.beam = p.beam := rfl

theorem fetchDot_beam (p : Picture) (board : β) :
    (p.updateStatus.fetchDot board).1.beam = p.beam := by
  rw [← setup_beam, fetchDot_setup, updateStatus_setup, setup_beam]

theorem renderDot_fst (p : Picture) (board : β) :
    (p.renderDot board).1 = (p.fetchDot board).1.drawPixel := by
  unfold renderDot
  generalize p.fetchDot board = fetched
  rfl

theorem tick_screen_of_not_draws (p : Picture) (board : β) (h : ¬ p.setup.draws) :
    (p.tick board).1.screen = p.screen := by
  have kept : (p.updateStatus.renderDot board).1.screen = p.screen := by
    rw [renderDot_fst]
    unfold drawPixel
    rw [dif_neg (by rw [fetchDot_beam]; exact h), fetchDot_screen, updateStatus_screen]
  unfold tick
  dsimp only
  split
  · exact kept
  · exact updateStatus_screen p

@[simp] theorem drawPixel_colourAt (p : Picture) (x : Nat) :
    p.drawPixel.colourAt x = p.colourAt x := by
  unfold drawPixel
  split <;> rfl

theorem drawPixel_screen (p : Picture) (line : p.beam.line < 240) (left : 1 ≤ p.beam.dot)
    (right : p.beam.dot ≤ 256) :
    p.drawPixel.screen =
      p.screen.set (256 * p.beam.line + (p.beam.dot - 1)) (p.colourAt (p.beam.dot - 1))
        (by omega) := by
  unfold drawPixel
  rw [dif_pos ⟨line, left, right⟩]

/-- The colour of a pixel is that of the state behind the dot in which it is drawn. -/
theorem tick_screen_of_draws (p : Picture) (board : β) (rendering : p.rendering = true)
    (line : p.beam.line < 240) (left : 1 ≤ p.beam.dot) (right : p.beam.dot ≤ 256) :
    (p.tick board).1.screen =
      p.screen.set (256 * p.beam.line + (p.beam.dot - 1))
        ((p.tick board).1.colourAt (p.beam.dot - 1)) (by omega) := by
  have beam := p.fetchDot_beam board
  have before : ((p.updateStatus.fetchDot board).1).screen = p.screen := by
    rw [fetchDot_screen, updateStatus_screen]
  have drawn := drawPixel_screen (p.updateStatus.fetchDot board).1 (by rw [beam]; exact line)
    (by rw [beam]; exact left) (by rw [beam]; exact right)
  rw [← drawPixel_colourAt] at drawn
  simp only [beam, before] at drawn
  rw [← renderDot_fst] at drawn
  have moved (q : Picture) (beam : Beam) (x : Nat) :
      { q with beam }.colourAt x = q.colourAt x := rfl
  unfold tick
  dsimp only
  rw [if_pos (by rw [updateStatus_rendering, rendering]), moved]
  exact drawn

/-- Where no sprites are shown, only the background decides on a colour. -/
theorem colourAt_background (p : Picture) (x : Nat) (h : p.mask.showsSprites = false) :
    p.colourAt x = p.mask.tint (p.memory.palette.get (backdropCell (p.backgroundPixel x))) := by
  have none : p.frontSlot x = none := by
    unfold frontSlot Mask.spritesAt
    rw [h]
    rfl
  unfold colourAt cellAt
  rw [none]

end Screen

end Picture

end Famiclone
