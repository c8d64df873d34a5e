import Famiclone.Proofs.Picture.CheckedSprites
import Mathlib.Data.Nat.Bitwise

/-!
# A dot with checked arithmetic

All that a dot does, with checks, stage by stage. That no check fails needs little: where the beam is
decides on the differences, and the widths of the registers on the rest. Only the pixel asks for more, at
most eight chosen sprites and a palette of colours.
-/
namespace Famiclone.Checked

variable {β : Type} [PictureBus β]

/-! ## Background -/

section
variable (p : Picture) (board : β)

def fetchTile? : Option (Picture × β) := do
  let (tile, board) ← fetch? p.memory board p.cursor.tileAddress
  return ({ p with background := { p.background with tile } }, board)

def fetchPalette? : Option (Picture × β) := do
  let (value, board) ← fetch? p.memory board p.cursor.attributeAddress
  let shifted ← shift? 8 value.toNat p.cursor.attributeShift
  return ({ p with background := { p.background with palette := .ofNat 4 shifted } }, board)

def tilePattern? : Option Nat := do
  let table := if p.control.backgroundTable then 0x1000 else 0
  word? ((← word? (table + p.background.tile.toNat * 16)) + p.cursor.line.val)

def fetchLow? : Option (Picture × β) := do
  let (patternLow, board) ← fetch? p.memory board (UInt16.ofNat (← tilePattern? p))
  return ({ p with background := { p.background with patternLow } }, board)

def fetchHigh? : Option (Picture × β) := do
  let address ← word? ((← tilePattern? p) + 8)
  let (patternHigh, board) ← fetch? p.memory board (UInt16.ofNat address)
  return ({ p with background := { p.background with patternHigh } }, board)

def fetchBackground? : Option (Picture × β) := do
  match (← minus? p.beam.dot 1) % 8 with
  | 0 => fetchTile? { p with background := p.background.load } board
  | 2 => fetchPalette? p board
  | 4 => fetchLow? p board
  | 6 => fetchHigh? p board
  | 7 => return ({ p with cursor := ← nextTile? p.cursor }, board)
  | _ => return (p, board)

theorem attributeShift_lt (s : Scroll) : s.attributeShift < 8 := by
  unfold Scroll.attributeShift
  omega

theorem fetchTile?_eq : fetchTile? p board = some (p.fetchTile board) := by
  unfold fetchTile?
  rw [fetch?_eq]
  rfl

theorem fetchPalette?_eq : fetchPalette? p board = some (p.fetchPalette board) := by
  unfold fetchPalette?
  rw [fetch?_eq]
  simp only [Option.bind_eq_bind, Option.bind_some, shift?_eq (attributeShift_lt p.cursor)]
  rfl

/-- The patterns of the background end well below the last word. -/
theorem tilePattern?_eq : ∃ address, tilePattern? p = some address ∧ address + 8 < 0x10000 ∧
    p.tilePattern = UInt16.ofNat address := by
  have tile := p.background.tile.toNat_lt
  have line := p.cursor.line.isLt
  have table : (if p.control.backgroundTable then 0x1000 else 0) =
      4096 * p.control.backgroundTable.toNat := by
    cases p.control.backgroundTable <;> rfl
  have half := Bool.toNat_lt p.control.backgroundTable
  refine ⟨4096 * p.control.backgroundTable.toNat + p.background.tile.toNat * 16 +
    p.cursor.line.val, ?_, by omega, ?_⟩
  · unfold tilePattern?
    dsimp only
    rw [table, word?_eq (by omega)]
    exact word?_eq (by omega)
  · rw [Nat.mul_comm p.background.tile.toNat]
    rfl

theorem fetchLow?_eq : fetchLow? p board = some (p.fetchLow board) := by
  obtain ⟨address, found, -, same⟩ := tilePattern?_eq p
  unfold fetchLow? Picture.fetchLow
  rw [found, same]
  simp only [Option.bind_eq_bind, Option.bind_some, fetch?_eq]
  rfl

theorem fetchHigh?_eq : fetchHigh? p board = some (p.fetchHigh board) := by
  obtain ⟨address, found, fits, same⟩ := tilePattern?_eq p
  have next : UInt16.ofNat address + 8 = UInt16.ofNat (address + 8) := by
    rw [UInt16.ofNat_add]
    rfl
  unfold fetchHigh? Picture.fetchHigh
  rw [found, same, next]
  simp only [Option.bind_eq_bind, Option.bind_some, word?_eq fits, fetch?_eq]
  rfl

theorem fetchBackground?_eq (begun : 1 ≤ p.beam.dot) :
    fetchBackground? p board = some (p.fetchBackground board) := by
  unfold fetchBackground? Picture.fetchBackground
  rw [minus?_eq begun]
  simp only [Option.bind_eq_bind, Option.bind_some]
  generalize (p.beam.dot - 1) % 8 = step
  rcases step with _ | _ | _ | _ | _ | _ | _ | _ | step
  · exact fetchTile?_eq _ board
  · rfl
  · exact fetchPalette?_eq p board
  · rfl
  · exact fetchLow?_eq p board
  · rfl
  · exact fetchHigh?_eq p board
  · show (nextTile? p.cursor).bind _ = _
    rw [nextTile?_eq]
    rfl
  · rfl

end

/-! ## Pixels -/

/-- The bit that a register of the background puts out. -/
def output? (register : UInt16) (fineX : Fin 8) : Option Bool := do
  return decide (register.toNat &&& (← shift? 16 0x8000 fineX.val) ≠ 0)

def pixel? (b : Background) (fineX : Fin 8) : Option Pixel := do
  let pattern := twoBits (← output? b.shiftHigh fineX) (← output? b.shiftLow fineX)
  let palette := twoBits (← output? b.paletteHigh fineX) (← output? b.paletteLow fineX)
  return ⟨pattern, .ofNat 8 palette.val⟩

def pattern? (s : SpriteSlot) (x : Nat) : Option (Fin 4) := do
  if s.x.toNat ≤ x ∧ x < s.x.toNat + 8 then
    let i ← minus? 7 (x - s.x.toNat)
    let high ← shift? 8 s.high.toNat i
    let low ← shift? 8 s.low.toNat i
    return twoBits (decide (high % 2 = 1)) (decide (low % 2 = 1))
  else return 0

/-- The first of some slots that is not transparent in a column. -/
def front? (slots : Vector SpriteSlot 8) (x : Nat) : List (Fin 8) → Option (Option (Fin 8))
  | [] => some none
  | i :: rest => do if (← pattern? (slots.get i) x) ≠ 0 then return some i else front? slots x rest

def slotPixel? (s : SpriteSlot) (x : Nat) : Option Pixel := do
  return ⟨← pattern? s x, ← below? 8 (← byte? (s.attributes.toNat % 4 + 4))⟩

theorem output?_eq (register : UInt16) (fineX : Fin 8) :
    output? register fineX = some (register.toNat.testBit (15 - fineX.val)) := by
  have single : 0x8000 >>> fineX.val = 2 ^ (15 - fineX.val) := by
    revert fineX
    decide
  unfold output?
  rw [shift?_eq (by omega), single]
  simp only [Option.bind_eq_bind, Option.bind_some, Nat.and_two_pow]
  cases register.toNat.testBit (15 - fineX.val) with
  | false => simp
  | true => simp

theorem pixel?_eq (b : Background) (fineX : Fin 8) : pixel? b fineX = some (b.pixel fineX) := by
  unfold pixel?
  simp only [output?_eq, Option.bind_eq_bind, Option.bind_some]
  rfl

theorem pattern?_eq (s : SpriteSlot) (x : Nat) : pattern? s x = some (s.pattern x) := by
  have bit_eq (b : UInt8) (i : Nat) : decide (b.toNat >>> i % 2 = 1) = bit b i := by
    unfold bit
    rw [Nat.testBit_eq_decide_div_mod_eq, Nat.shiftRight_eq_div_pow]
  unfold pattern? SpriteSlot.pattern
  split
  · rw [minus?_eq (by omega)]
    simp only [Option.bind_eq_bind, Option.bind_some]
    rw [shift?_eq (by omega), shift?_eq (by omega)]
    simp only [Option.bind_some, bit_eq]
    rfl
  · rfl

theorem front?_eq (slots : Vector SpriteSlot 8) (x : Nat) (used : List (Fin 8)) :
    front? slots x used = some (used.find? fun i => (slots.get i).pattern x != 0) := by
  induction used with
  | nil => rfl
  | cons i rest ih =>
    unfold front?
    rw [pattern?_eq]
    simp only [Option.bind_eq_bind, Option.bind_some, List.find?_cons]
    by_cases solid : (slots.get i).pattern x = 0
    · simp [solid, ih]
    · have found : ((slots.get i).pattern x != 0) = true := bne_iff_ne.mpr solid
      rw [if_pos solid, found]
      rfl

theorem slotPixel?_eq (s : SpriteSlot) (x : Nat) : slotPixel? s x = some (s.pixel x) := by
  have small : s.attributes.toNat % 4 + 4 < 8 := by omega
  have palette : (⟨s.attributes.toNat % 4 + 4, small⟩ : Fin 8) =
      .ofNat 8 (4 + s.attributes.toNat % 4) := by
    refine Fin.ext ?_
    rw [Fin.val_ofNat]
    show s.attributes.toNat % 4 + 4 = _
    omega
  unfold slotPixel?
  rw [pattern?_eq, byte?_eq (by omega)]
  simp only [Option.bind_eq_bind, Option.bind_some, below?_eq small, palette]
  rfl

section
variable (p : Picture) (board : β)

def backgroundPixel? (x : Nat) : Option Pixel :=
  if p.mask.backgroundAt x then pixel? p.background p.fineX else some .transparent

/-- The slot of the sprite that is in front in a column, among as many slots as are used. -/
def frontSlot? (x : Nat) : Option (Option (Fin 8)) :=
  if p.mask.spritesAt x then
    if p.chosen.length ≤ 8 then front? p.slots x ((List.finRange 8).take p.chosen.length) else none
  else some none

/-- The palette cell that is seen in a column. -/
def cellAt? (x : Nat) : Option (Fin 32) := do
  let background ← backgroundPixel? p x
  match ← frontSlot? p x with
  | none => return Picture.backdropCell background
  | some i =>
    if (p.slots.get i).behind ∧ background.pattern ≠ 0 then return background.cell
    else return (← slotPixel? (p.slots.get i) x).cell

def colourAt? (x : Nat) : Option UInt8 := do
  let cell ← cellAt? p x
  colour? (p.mask.tint (← peek? p.memory board (UInt16.ofNat (0x3F00 + cell.val))))

/-- Draw the pixel under the beam, if the beam is on the screen. -/
def drawPixel? : Option Picture := do
  if p.beam.line < 240 ∧ 1 ≤ p.beam.dot ∧ p.beam.dot ≤ 256 then
    let x ← minus? p.beam.dot 1
    let screen ← put? p.screen (256 * p.beam.line + x) (← colourAt? p board x)
    return { p with
      screen
      status := { p.status with spriteZeroHit := p.status.spriteZeroHit || p.hitsAt x } }
  else return p

theorem backgroundPixel?_eq (x : Nat) : backgroundPixel? p x = some (p.backgroundPixel x) := by
  unfold backgroundPixel? Picture.backgroundPixel
  split
  · exact pixel?_eq p.background p.fineX
  · rfl

theorem frontSlot?_eq (room : p.chosen.length ≤ 8) (x : Nat) :
    frontSlot? p x = some (p.frontSlot x) := by
  have taken : ∀ used : Fin 9, (List.finRange 8).take used.val =
      (List.finRange 8).filter fun i => decide (i.val < used.val) := by
    decide
  unfold frontSlot? Picture.frontSlot
  split
  · rw [front?_eq, taken ⟨p.chosen.length, Nat.lt_succ_of_le room⟩, List.find?_filter]
    simp only [SpriteSlot.front?, Bool.decide_and, Bool.decide_eq_true]
  · rfl

theorem cellAt?_eq (room : p.chosen.length ≤ 8) (x : Nat) : cellAt? p x = some (p.cellAt x) := by
  unfold cellAt? Picture.cellAt
  rw [backgroundPixel?_eq, frontSlot?_eq p room]
  simp only [Option.bind_eq_bind, Option.bind_some]
  cases p.frontSlot x with
  | none => rfl
  | some i =>
    simp only [slotPixel?_eq]
    split
    · rfl
    · rfl

theorem cell_not_doubled {pixel : Pixel} (solid : pixel.pattern ≠ 0) :
    pixel.cell.val ∉ doubled := by
  obtain ⟨pattern, palette⟩ := pixel
  revert pattern palette
  decide

/-- The cells that stand for others are never seen. -/
theorem cellAt_not_doubled (x : Nat) : (p.cellAt x).val ∉ doubled := by
  unfold Picture.cellAt
  cases front : p.frontSlot x with
  | none =>
    show (Picture.backdropCell _).val ∉ doubled
    unfold Picture.backdropCell
    split
    · decide
    · exact cell_not_doubled ‹_›
  | some i =>
    dsimp only
    split
    · exact cell_not_doubled (And.right ‹_›)
    · unfold Picture.frontSlot at front
      split at front
      · have solid := List.find?_some front
        simp only [Bool.and_eq_true, bne_iff_ne] at solid
        exact cell_not_doubled solid.2
      · contradiction

/-- A cell that does not stand for another is read at its own address. -/
theorem peek_of_seen (m : VideoMemory) {cell : Fin 32} (seen : cell.val ∉ doubled) :
    m.peek board (UInt16.ofNat (0x3F00 + cell.val)) = m.palette.get cell := by
  have high : ∀ cell : Fin 32, 0x3F00 ≤ (UInt16.ofNat (0x3F00 + cell.val)).toNat % 0x4000 := by
    decide
  have own : ∀ cell : Fin 32, cell.val ∉ doubled → VideoMemory.paletteCell
      ((UInt16.ofNat (0x3F00 + cell.val)).toNat % 0x4000) = cell := by
    decide
  have above := high cell
  unfold VideoMemory.peek
  dsimp only
  rw [if_neg (by omega), if_neg (by omega), own cell seen]

/-- A palette of colours. -/
def Colours (palette : Vector UInt8 32) : Prop := ∀ cell : Fin 32, (palette.get cell).toNat < 64

theorem tint_lt (m : Mask) {colour : UInt8} (h : colour.toNat < 64) : (m.tint colour).toNat < 64 := by
  unfold Mask.tint
  split
  · rw [UInt8.toNat_and]
    exact Nat.lt_of_le_of_lt Nat.and_le_right (by decide)
  · exact h

theorem colourAt?_eq (room : p.chosen.length ≤ 8) (colours : Colours p.memory.palette) (x : Nat) :
    colourAt? p board x = some (p.colourAt x) := by
  have read := peek_of_seen board p.memory (cellAt_not_doubled p x)
  unfold colourAt?
  rw [cellAt?_eq p room]
  simp only [Option.bind_eq_bind, Option.bind_some, peek?_eq, read]
  exact colour?_eq (tint_lt _ (colours _))

theorem drawPixel?_eq (room : p.chosen.length ≤ 8) (colours : Colours p.memory.palette) :
    drawPixel? p board = some p.drawPixel := by
  unfold drawPixel? Picture.drawPixel
  split
  · obtain ⟨line, begun, going⟩ := ‹p.beam.line < 240 ∧ 1 ≤ p.beam.dot ∧ p.beam.dot ≤ 256›
    rw [minus?_eq begun]
    simp only [Option.bind_eq_bind, Option.bind_some, colourAt?_eq p board room colours]
    rw [put?_eq _ (by omega)]
    rfl
  · rfl

/-! ## Stages -/

def endLine? : Option Picture := do
  chooseSprites? { p with
    background := p.background.load
    cursor := ← toColumnOf? p.cursor p.origin }

def backgroundStage? : Option (Picture × β) :=
  if Picture.fetchesBackground p.beam.dot then
    fetchBackground? { p with background := p.background.shift } board
  else some (p, board)

/-- Behind the last visible dot go to the next line, and then back to its first column. -/
def lineStage? : Option Picture := do
  if p.beam.dot = 256 then return { p with cursor := ← nextLine? p.cursor }
  else if p.beam.dot = 257 then endLine? p
  else return p

def spriteStage? : Option (Picture × β) :=
  if 257 ≤ p.beam.dot ∧ p.beam.dot ≤ 320 then fetchSprite? { p with spriteAddress := 0 } board
  else some (p, board)

/-- Fetch a tile twice more than is needed. -/
def idleStage? : Option (Picture × β) :=
  if p.beam.dot = 338 ∨ p.beam.dot = 340 then fetchTile? p board else some (p, board)

def frameStage? : Option Picture := do
  if 280 ≤ p.beam.dot ∧ p.beam.dot ≤ 304 ∧ p.beam.visible = false then
    return { p with cursor := ← toLineOf? p.cursor p.origin }
  else return p

/-- What happens in a dot on a line that is rendered before its pixel is drawn. -/
def fetchDot? : Option (Picture × β) := do
  let (p, board) ← backgroundStage? p board
  let (p, board) ← spriteStage? (← lineStage? p) board
  let (p, board) ← idleStage? p board
  return (← frameStage? p, board)

def renderDot? : Option (Picture × β) := do
  let (p, board) ← fetchDot? p board
  return (← drawPixel? p board, board)

def tick? : Option (Picture × β) := do
  if p.beam.dot < dotsPerLine ∧ p.beam.line ≤ p.region.preRenderLine then
    let p := p.updateStatus
    let (p, board) ← if p.rendering then renderDot? p board else some (p, board)
    return ({ p with beam := ← advance? p.beam p.region p.mask.renders }, board)
  else none

theorem endLine?_eq : endLine? p = some p.endLine := by
  unfold endLine?
  rw [toColumnOf?_eq]
  exact chooseSprites?_eq _

theorem backgroundStage?_eq : backgroundStage? p board = some (p.backgroundStage board) := by
  unfold backgroundStage? Picture.backgroundStage
  split
  · have begun : 1 ≤ p.beam.dot := by
      have fetches := ‹Picture.fetchesBackground p.beam.dot = true›
      unfold Picture.fetchesBackground at fetches
      simp only [Bool.or_eq_true, Bool.and_eq_true, decide_eq_true_eq] at fetches
      omega
    exact fetchBackground?_eq _ board begun
  · rfl

theorem lineStage?_eq : lineStage? p = some p.lineStage := by
  unfold lineStage? Picture.lineStage
  split
  · rw [nextLine?_eq]
    rfl
  · split
    · exact endLine?_eq p
    · rfl

theorem spriteStage?_eq : spriteStage? p board = some (p.spriteStage board) := by
  unfold spriteStage? Picture.spriteStage
  split
  · obtain ⟨begun, going⟩ := ‹257 ≤ p.beam.dot ∧ p.beam.dot ≤ 320›
    exact fetchSprite?_eq _ board begun going
  · rfl

theorem idleStage?_eq : idleStage? p board = some (p.idleStage board) := by
  unfold idleStage? Picture.idleStage
  split
  · exact fetchTile?_eq p board
  · rfl

theorem frameStage?_eq : frameStage? p = some p.frameStage := by
  unfold frameStage? Picture.frameStage
  split
  · rw [toLineOf?_eq]
    rfl
  · rfl

theorem fetchDot?_eq : fetchDot? p board = some (p.fetchDot board) := by
  unfold fetchDot?
  simp only [backgroundStage?_eq, lineStage?_eq, spriteStage?_eq, idleStage?_eq, frameStage?_eq,
    Option.bind_eq_bind, Option.bind_some]
  rfl

theorem choose_length_le (memory : SpriteMemory) (height line : Nat) :
    (Sprite.choose memory height line).length ≤ 8 := List.length_take_le _ _

theorem nextChosen_length_le (s : Picture.Setup) {chosen : List (Fin 64)} (room : chosen.length ≤ 8) :
    (s.nextChosen chosen).length ≤ 8 := by
  unfold Picture.Setup.nextChosen
  split
  · split
    · exact choose_length_le _ _ _
    · exact Nat.zero_le _
  · exact room

theorem renderDot?_eq (room : p.chosen.length ≤ 8) (colours : Colours p.memory.palette) :
    renderDot? p board = some (p.renderDot board) := by
  have fetched_room : (p.fetchDot board).1.chosen.length ≤ 8 := by
    rw [Picture.fetchDot_chosen]
    exact nextChosen_length_le _ room
  have same : (p.fetchDot board).1.memory = p.memory :=
    congrArg Picture.Setup.memory (p.fetchDot_setup board)
  have drawn := drawPixel?_eq (p.fetchDot board).1 (p.fetchDot board).2 fetched_room
    (by rw [same]; exact colours)
  unfold renderDot?
  rw [fetchDot?_eq]
  simp only [Option.bind_eq_bind, Option.bind_some, drawn]
  rfl

/-- No check fails in a dot while the beam is on the screen. -/
theorem tick?_eq (beam : p.beam.InRange p.region) (room : p.chosen.length ≤ 8)
    (colours : Colours p.memory.palette) : tick? p board = some (p.tick board) := by
  have setup := p.updateStatus_setup
  have region : p.updateStatus.region = p.region := congrArg Picture.Setup.region setup
  have place : p.updateStatus.beam = p.beam := congrArg Picture.Setup.beam setup
  have memory : p.updateStatus.memory = p.memory := congrArg Picture.Setup.memory setup
  have rendered := renderDot?_eq p.updateStatus board (by rw [p.updateStatus_chosen.1]; exact room)
    (by rw [memory]; exact colours)
  have inside : (p.updateStatus.renderDot board).1.beam.InRange
      (p.updateStatus.renderDot board).1.region := by
    have kept := p.updateStatus.renderDot_setup board
    rw [← Picture.setup_beam, kept, setup]
    show p.beam.InRange (p.updateStatus.renderDot board).1.setup.region
    rw [kept, setup]
    exact beam
  unfold tick? Picture.tick
  rw [if_pos ⟨beam.dot, beam.line_le⟩]
  dsimp only
  split
  · simp only [rendered, Option.bind_eq_bind, Option.bind_some, advance?_eq inside]
    rfl
  · simp only [Option.bind_eq_bind, Option.bind_some, region, place, advance?_eq beam]
    rfl

end

end Famiclone.Checked
