import Famiclone.Proofs.Picture.CheckedDot

/-!
# The picture unit stays in its ranges

Whatever a program does with the registers, at whatever dots, and however the board answers, no check
fails in the picture unit, and what it holds stays in its range. The invariant is about the beam, the
number of chosen sprites and the colours; everything else is right in any state.
-/
namespace Famiclone.Checked

variable {β : Type} [PictureBus β]

/-! ## Registers -/

section
variable (p : Picture) (board : β)

def moveOn? : Option (Picture × β) := do
  if p.rendering then
    return ({ p with cursor := ← nextLine? (← nextTile? p.cursor) }, board)
  else
    let cursor ← add? p.cursor p.control.stride
    return ({ p with cursor }, PictureBus.observe board cursor.address)

def readSprites? : Option UInt8 := do
  let value ← p.sprites[p.spriteAddress.toNat]?
  return if p.spriteAddress.toNat % 4 = 2 then value &&& 0xE3 else value

def readData? : Option (UInt8 × Picture × β) := do
  let address := p.cursor.address
  if 0x3F00 ≤ address then
    let beneath ← minus? address.toNat 0x1000
    let readBuffer ← peek? p.memory board (UInt16.ofNat beneath)
    let value := (← peek? p.memory board address) &&& 0x3F ||| (p.latch &&& 0xC0)
    return (value, ← moveOn? { p with readBuffer } board)
  else
    let (next, board) ← fetch? p.memory board address
    return (p.readBuffer, ← moveOn? { p with readBuffer := next } board)

def read? (register : Fin 8) : Option (UInt8 × Picture × β) := do
  let (value, p, board) ←
    match register with
    | 2 => let (value, p) := p.readStatus; some (value, p, board)
    | 4 => do some (← readSprites? p, p, board)
    | 7 => readData? p board
    | _ => some (p.latch, p, board)
  return (value, { p with latch := value }, board)

variable (value : UInt8)

def writeSprites? : Option Picture := do
  if p.rendering then return { p with spriteAddress := p.spriteAddress + 4 }
  else
    return { p with
      sprites := ← put? p.sprites p.spriteAddress.toNat value
      spriteAddress := p.spriteAddress + 1 }

def writeScroll? : Option Picture := do
  let tile := value.toNat / 8
  let fine := value.toNat % 8
  if p.secondWrite then
    let origin ← position? (replaceBits (replaceBits p.origin.toNat 12 3 fine) 5 5 tile)
    return { p with origin, secondWrite := false }
  else
    let origin ← position? (replaceBits p.origin.toNat 0 5 tile)
    return { p with origin, fineX := ← below? 8 fine, secondWrite := true }

def writeAddress? : Option (Picture × β) := do
  if p.secondWrite then
    let cursor ← position? (replaceBits p.origin.toNat 0 8 value.toNat)
    return ({ p with origin := cursor, cursor, secondWrite := false },
      PictureBus.observe board cursor.address)
  else
    let origin ← position? (replaceBits p.origin.toNat 8 8 (value.toNat % 64))
    return ({ p with origin, secondWrite := true }, board)

def writeData? : Option (Picture × β) := do
  let address := p.cursor.address
  let board := if address < 0x2000 then PictureBus.observe board address else board
  let (memory, board) ← store? p.memory board address value
  moveOn? { p with memory } board

def write? (register : Fin 8) : Option (Picture × β) := do
  let p := { p with latch := value }
  match register with
  | 0 =>
    let origin ← position? (replaceBits p.origin.toNat 10 2 (value.toNat % 4))
    return ({ p with control := ⟨value⟩, origin }, board)
  | 1 => return ({ p with mask := ⟨value⟩ }, board)
  | 3 => return ({ p with spriteAddress := value }, board)
  | 4 => return (← writeSprites? p value, board)
  | 5 => return (← writeScroll? p value, board)
  | 6 => writeAddress? p board value
  | 7 => writeData? p board value
  | _ => return (p, board)

theorem moveOn?_eq : moveOn? p board = some (p.moveOn board) := by
  unfold moveOn? Picture.moveOn
  split
  · rw [nextTile?_eq]
    simp only [Option.bind_eq_bind, Option.bind_some, nextLine?_eq]
    rfl
  · rw [add?_eq]
    rfl

theorem readSprites?_eq : readSprites? p = some p.readSprites := by
  unfold readSprites?
  rw [Vector.getElem?_eq_getElem p.spriteAddress.toNat_lt]
  rfl

theorem readData?_eq : readData? p board = some (p.readData board) := by
  unfold readData? Picture.readData
  dsimp only
  split
  · have high : 0x3F00 ≤ p.cursor.address := ‹_›
    have above : 0x1000 ≤ p.cursor.address.toNat :=
      Nat.le_trans (by decide) (UInt16.le_iff_toNat_le.mp high)
    have beneath : UInt16.ofNat (p.cursor.address.toNat - 0x1000) = p.cursor.address - 0x1000 := by
      have le : (0x1000 : UInt16) ≤ p.cursor.address := UInt16.le_iff_toNat_le.mpr above
      rw [← UInt16.ofNat_toNat (x := p.cursor.address - 0x1000), UInt16.toNat_sub_of_le _ _ le]
      rfl
    rw [minus?_eq above]
    simp only [Option.bind_eq_bind, Option.bind_some, peek?_eq, moveOn?_eq, beneath]
    rfl
  · simp only [fetch?_eq, moveOn?_eq, Option.bind_eq_bind, Option.bind_some]
    rfl

theorem read?_eq (register : Fin 8) : read? p board register = some (p.read board register) := by
  unfold read? Picture.read
  match register with
  | 2 => rfl
  | 4 =>
    dsimp only
    rw [readSprites?_eq]
    rfl
  | 7 =>
    dsimp only
    rw [readData?_eq]
    rfl
  | 0 | 1 | 3 | 5 | 6 => rfl

theorem replaceBits_tables (s : Scroll) : replaceBits s.toNat 10 2 (value.toNat % 4) =
    { s with right := bit value 0, lower := bit value 1 }.toNat := by
  have column := s.column.isLt
  have row := s.row.isLt
  have right := Bool.toNat_lt s.right
  have lower := Bool.toNat_lt s.lower
  have low : (bit value 0).toNat = value.toNat % 2 := by
    rw [bit, Nat.toNat_testBit, pow_zero, Nat.div_one]
  have high : (bit value 1).toNat = value.toNat / 2 % 2 := Nat.toNat_testBit _ _
  simp only [replaceBits, Scroll.toNat, low, high]
  omega

theorem writeSprites?_eq : writeSprites? p value = some (p.writeSprites value) := by
  unfold writeSprites? Picture.writeSprites
  split
  · rfl
  · rw [put?_eq _ p.spriteAddress.toNat_lt]
    rfl

theorem writeScroll?_eq : writeScroll? p value = some (p.writeScroll value) := by
  have byte := value.toNat_lt
  have fits : value.toNat / 8 < 32 := by omega
  have tile : Fin.ofNat 32 (value.toNat / 8) = ⟨value.toNat / 8, fits⟩ :=
    Fin.ext (Nat.mod_eq_of_lt fits)
  have fine : Fin.ofNat 8 value.toNat = ⟨value.toNat % 8, Nat.mod_lt _ (by decide)⟩ := rfl
  unfold writeScroll? Picture.writeScroll
  dsimp only
  rw [tile, fine]
  split
  · have line := replaceBits_line p.origin ⟨value.toNat % 8, Nat.mod_lt _ (by decide)⟩
    have row := replaceBits_row { p.origin with line := ⟨value.toNat % 8, Nat.mod_lt _ (by decide)⟩ }
      ⟨value.toNat / 8, fits⟩
    rw [line, position?_eq row]
    rfl
  · have column := replaceBits_column p.origin ⟨value.toNat / 8, fits⟩
    rw [position?_eq column, below?_eq (Nat.mod_lt _ (by decide))]
    rfl

theorem writeAddress?_eq : writeAddress? p board value = some (p.writeAddress board value) := by
  have byte := value.toNat_lt
  have origin := p.origin.toNat_lt
  have masked : (value &&& 0x3F).toNat = value.toNat % 64 := by
    rw [UInt8.toNat_and]
    exact Nat.and_two_pow_sub_one_eq_mod _ 6
  unfold writeAddress? Picture.writeAddress
  split
  · have cursor : replaceBits p.origin.toNat 0 8 value.toNat =
        (Scroll.ofWord (word (highByte p.origin.toWord) value)).toNat := by
      simp only [replaceBits, Scroll.ofWord, Scroll.toNat_ofNat, word, highByte, Scroll.toWord,
        UInt16.toNat_ofNat', UInt8.toNat_ofNat']
      omega
    rw [position?_eq cursor]
    rfl
  · have moved : replaceBits p.origin.toNat 8 8 (value.toNat % 64) =
        (Scroll.ofWord (word (value &&& 0x3F) (lowByte p.origin.toWord))).toNat := by
      simp only [replaceBits, Scroll.ofWord, Scroll.toNat_ofNat, word, lowByte, Scroll.toWord,
        UInt16.toNat_ofNat', UInt8.toNat_ofNat', masked]
      omega
    rw [position?_eq moved]
    rfl

theorem writeData?_eq : writeData? p board value = some (p.writeData board value) := by
  unfold writeData? Picture.writeData
  simp only [store?_eq, Option.bind_eq_bind, Option.bind_some, moveOn?_eq]

theorem write?_eq (register : Fin 8) :
    write? p board value register = some (p.write board register value) := by
  unfold write? Picture.write
  match register with
  | 0 =>
    dsimp only
    rw [position?_eq (replaceBits_tables value p.origin)]
    rfl
  | 4 =>
    dsimp only
    rw [writeSprites?_eq]
    rfl
  | 5 =>
    dsimp only
    rw [writeScroll?_eq]
    rfl
  | 6 => exact writeAddress?_eq _ board value
  | 7 => exact writeData?_eq _ board value
  | 1 | 2 | 3 => rfl

end

/-! ## The light sensor -/

def litAt? (p : Picture) (place : Point) : Option Bool := do
  if place.x < 256 ∧ place.y < 240 then
    let right ← word? (place.x + 1)
    if place.y < p.beam.line ∨ place.y = p.beam.line ∧ right < p.beam.dot then
      let age ← minus? p.beam.line place.y
      if age < Picture.afterglow then
        return Palette.isBright (← p.screen[256 * place.y + place.x]?)
      else return false
    else return false
  else return false

theorem litAt?_eq (p : Picture) (place : Point) : litAt? p place = some (p.litAt place) := by
  unfold litAt? Picture.litAt
  split
  · have inside : place.x < 256 ∧ place.y < 240 := ‹_›
    have cell : 256 * place.y + place.x < 61440 := by omega
    rw [word?_eq (by omega), Vector.getElem?_eq_getElem cell]
    simp only [Option.bind_eq_bind, Option.bind_some, Option.pure_def]
    by_cases drawn : place.y < p.beam.line ∨ place.y = p.beam.line ∧ place.x + 1 < p.beam.dot
    · rw [if_pos drawn, minus?_eq (by omega)]
      by_cases recent : p.beam.line - place.y < Picture.afterglow
      · simp [drawn, recent, Vector.get]
      · simp [recent]
    · simp [drawn]
  · rfl

/-! ## What holds at all times -/

/-- What holds of a unit at all times. -/
structure Sound (p : Picture) : Prop where
  beam : p.beam.InRange p.region
  room : p.chosen.length ≤ 8
  colours : Colours p.memory.palette
  /-- The cells that stand for others are as they were at power-on. -/
  untouched : ∀ cell : Fin 32, cell.val ∈ doubled → p.memory.palette.get cell = 0x0F
  screen : ∀ place : Fin 61440, (p.screen.get place).toNat < 64

theorem initial_sound (region : Region) : Sound (.initial region) where
  beam := Beam.start_inRange region
  room := Nat.zero_le _
  colours cell := by
    have black : (Picture.initial region).memory.palette.get cell = 0x0F :=
      Vector.getElem_replicate _
    rw [black]
    decide
  untouched cell _ := Vector.getElem_replicate _
  screen place := by
    have blank : (Picture.initial region).screen.get place = 0 := Vector.getElem_replicate _
    rw [blank]
    decide

/-- What the invariant is about, beside the beam. -/
def held (p : Picture) : VideoMemory × List (Fin 64) × Screen := (p.memory, p.chosen, p.screen)

theorem Sound.of_held {p q : Picture} (h : Sound p) (beam : q.beam.InRange q.region)
    (same : held q = held p) : Sound q := by
  unfold held at same
  simp only [Prod.mk.injEq] at same
  obtain ⟨memory, chosen, screen⟩ := same
  refine ⟨beam, ?_, ?_, ?_, ?_⟩
  · rw [chosen]
    exact h.room
  · rw [memory]
    exact h.colours
  · rw [memory]
    exact h.untouched
  · rw [screen]
    exact h.screen

section
variable (p : Picture) (board : β)

theorem moveOn_held : held (p.moveOn board).1 = held p := by
  unfold Picture.moveOn
  split <;> rfl

theorem readData_held : held (p.readData board).2.1 = held p := by
  unfold Picture.readData
  dsimp only
  split <;> exact moveOn_held _ _

theorem read_held (register : Fin 8) : held (p.read board register).2.1 = held p := by
  unfold Picture.read
  match register with
  | 7 => exact readData_held p board
  | 0 | 1 | 2 | 3 | 4 | 5 | 6 => rfl

variable (value : UInt8)

theorem writeAddress_held : held (p.writeAddress board value).1 = held p := by
  unfold Picture.writeAddress
  split <;> rfl

theorem writeSprites_held : held (p.writeSprites value) = held p := by
  unfold Picture.writeSprites
  split <;> rfl

theorem writeScroll_held : held (p.writeScroll value) = held p := by
  unfold Picture.writeScroll
  dsimp only
  split <;> rfl

/-- Only the data port writes what the invariant is about, and it writes memory. -/
theorem write_held (register : Fin 8) : ∃ board' address,
    held (p.write board register value).1 = held p ∨
      held (p.write board register value).1 =
        held { p with memory := (p.memory.store (β := β) board' address value).1 } := by
  unfold Picture.write
  match register with
  | 4 => exact ⟨board, 0, .inl (writeSprites_held _ value)⟩
  | 5 => exact ⟨board, 0, .inl (writeScroll_held _ value)⟩
  | 6 => exact ⟨board, 0, .inl (writeAddress_held _ board value)⟩
  | 7 => exact ⟨_, _, .inr (moveOn_held _ _)⟩
  | 0 | 1 | 2 | 3 => exact ⟨board, 0, .inl rfl⟩

/-- The memory takes colours of six bits, and none at the cells that stand for others. -/
theorem store_palette (m : VideoMemory) (address : UInt16) :
    (m.store board address value).1.palette = m.palette ∨
      ∃ cell : Fin 32, cell.val ∉ doubled ∧
        (m.store board address value).1.palette = put m.palette cell (value &&& 0x3F) := by
  unfold VideoMemory.store
  dsimp only
  split
  · exact .inl rfl
  · split
    · exact .inl rfl
    · refine .inr ⟨_, ?_, rfl⟩
      rw [← palettePlace_eq]
      exact palettePlace_not_doubled _

theorem Sound.store {p : Picture} (h : Sound p) (address : UInt16) :
    Sound { p with memory := (p.memory.store board address value).1 } := by
  refine ⟨h.beam, h.room, ?_, ?_, h.screen⟩
  · intro cell
    dsimp only
    rcases store_palette board value p.memory address with same | ⟨painted, -, same⟩
    · rw [same]
      exact h.colours cell
    · rw [same, get_put]
      split
      · exact masked_lt value
      · exact h.colours cell
  · intro cell twin
    dsimp only
    rcases store_palette board value p.memory address with same | ⟨painted, seen, same⟩
    · rw [same]
      exact h.untouched cell twin
    · have other : painted ≠ cell := fun equal => seen (equal ▸ twin)
      rw [same, get_put, if_neg other]
      exact h.untouched cell twin

/-- A dot of a line that is not rendered changes neither the screen nor the chosen sprites. -/
theorem tick_of_idle {p : Picture} (idle : p.rendering = false) :
    (p.tick board).1.screen = p.screen ∧ (p.tick board).1.chosen = p.chosen := by
  unfold Picture.tick
  dsimp only
  rw [if_neg (by rw [Picture.updateStatus_rendering, idle]; decide)]
  exact ⟨p.updateStatus_screen, p.updateStatus_chosen.1⟩

theorem tick_memory : (p.tick board).1.memory = p.memory :=
  congrArg Picture.Setup.memory (p.tick_setup board)

/-- The pixel that a dot draws is a colour. -/
theorem tick_screen_lt {p : Picture} (h : Sound p) (place : Fin 61440) :
    ((p.tick board).1.screen.get place).toNat < 64 := by
  cases rendering : p.rendering with
  | false =>
    rw [(tick_of_idle board rendering).1]
    exact h.screen place
  | true =>
    by_cases draws : p.setup.draws
    · have colour (x : Nat) : ((p.tick board).1.colourAt x).toNat < 64 := by
        refine tint_lt _ ?_
        rw [tick_memory]
        exact h.colours _
      rw [p.tick_screen_of_draws board rendering draws.1 draws.2.1 draws.2.2]
      show UInt8.toNat ((Vector.set _ _ _ _)[place.val]) < 64
      rw [Vector.getElem_set]
      split
      · exact colour _
      · exact h.screen place
    · rw [p.tick_screen_of_not_draws board draws]
      exact h.screen place

theorem tick_room {p : Picture} (h : Sound p) : (p.tick board).1.chosen.length ≤ 8 := by
  cases rendering : p.rendering with
  | false =>
    rw [(tick_of_idle board rendering).2]
    exact h.room
  | true =>
    rw [p.tick_chosen board rendering]
    exact nextChosen_length_le _ h.room

theorem tick_sound {p : Picture} (h : Sound p) : Sound (p.tick board).1 := by
  refine ⟨Picture.happen_inRange (p, board) .tick h.beam, tick_room board h, ?_, ?_,
    tick_screen_lt board h⟩
  · rw [tick_memory]
    exact h.colours
  · rw [tick_memory]
    exact h.untouched

end

/-! ## Incidents -/

/-- What can happen to a unit and its board, the return of the power included. -/
inductive Incident (β : Type) where
  | event (event : Picture.Event β)
  | powerOn

def happen (s : Picture × β) : Incident β → Picture × β
  | .event event => Picture.happen s event
  | .powerOn => (.initial s.1.region, s.2)

def happen? (s : Picture × β) : Incident β → Option (Picture × β)
  | .event .tick => tick? s.1 s.2
  | .event (.read register) => do return (← read? s.1 s.2 register).2
  | .event (.write register value) => write? s.1 s.2 value register
  | incident => some (happen s incident)

/-- In a sound state no check fails. -/
theorem happen?_eq {s : Picture × β} (h : Sound s.1) (incident : Incident β) :
    happen? s incident = some (happen s incident) := by
  cases incident with
  | powerOn => rfl
  | event event =>
    cases event with
    | tick => exact tick?_eq s.1 s.2 h.beam h.room h.colours
    | read register =>
      show (do return (← read? s.1 s.2 register).2) = _
      rw [read?_eq]
      rfl
    | write register value => exact write?_eq s.1 s.2 value register
    | reset => rfl
    | ask => rfl
    | board next => rfl

/-- Every incident leads from a sound state to a sound one. -/
theorem happen_sound {s : Picture × β} (h : Sound s.1) (incident : Incident β) :
    Sound (happen s incident).1 := by
  cases incident with
  | powerOn => exact initial_sound s.1.region
  | event event =>
    have beam := Picture.happen_inRange s event h.beam
    cases event with
    | tick => exact tick_sound s.2 h
    | read register => exact h.of_held beam (read_held s.1 s.2 register)
    | write register value =>
      obtain ⟨board, address, same | same⟩ := write_held s.1 s.2 value register
      · exact h.of_held beam same
      · exact (h.store board value address).of_held beam same
    | reset => exact h.of_held beam rfl
    | ask => exact h.of_held beam rfl
    | board next => exact h

def behind (s : Picture × β) (incidents : List (Incident β)) : Picture × β := incidents.foldl happen s

def behind? (s : Picture × β) (incidents : List (Incident β)) : Option (Picture × β) :=
  incidents.foldlM happen? s

theorem behind?_eq {s : Picture × β} (h : Sound s.1) (incidents : List (Incident β)) :
    behind? s incidents = some (behind s incidents) ∧ Sound (behind s incidents).1 := by
  induction incidents generalizing s with
  | nil => exact ⟨rfl, h⟩
  | cons incident rest ih =>
    have next := ih (happen_sound h incident)
    refine ⟨?_, next.2⟩
    unfold behind?
    rw [List.foldlM_cons, happen?_eq h incident]
    exact next.1

theorem behind_region (s : Picture × β) (incidents : List (Incident β)) :
    (behind s incidents).1.region = s.1.region := by
  induction incidents generalizing s with
  | nil => rfl
  | cons incident rest ih =>
    refine (ih (happen s incident)).trans ?_
    cases incident with
    | powerOn => rfl
    | event event => exact Picture.happen_region s event

/-- In the row of incidents of any unit on any board no check fails, and what the unit holds is in its
range. -/
theorem stays_in_range (region : Region) (board : β) (incidents : List (Incident β)) :
    behind? (.initial region, board) incidents = some (behind (.initial region, board) incidents) ∧
    let p := (behind (.initial region, board) incidents).1
    (∀ place, litAt? p place = some (p.litAt place)) ∧
      p.region = region ∧ p.beam.dot < 341 ∧ p.beam.line ≤ region.preRenderLine ∧
      p.cursor.toNat < 2 ^ 15 ∧ p.origin.toNat < 2 ^ 15 ∧ p.fineX.val < 8 ∧ p.chosen.length ≤ 8 ∧
      (∀ cell : Fin 32, (p.memory.palette.get cell).toNat < 64) ∧
      (∀ place : Fin 61440, (p.screen.get place).toNat < 64) ∧
      ∀ cell : Fin 32, cell.val ∈ doubled → p.memory.palette.get cell = 0x0F := by
  obtain ⟨checked, sound⟩ := behind?_eq (initial_sound region) (s := (.initial region, board)) incidents
  have same := behind_region (.initial region, board) incidents
  have line := sound.beam.line_le
  rw [same] at line
  exact ⟨checked, litAt?_eq _, same, sound.beam.dot, line, Scroll.toNat_lt _, Scroll.toNat_lt _, Fin.isLt _,
    sound.room, sound.colours, sound.screen, sound.untouched⟩

end Famiclone.Checked
