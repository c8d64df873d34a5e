import Famiclone.Proofs.Picture.Dot

/-!
# What one dot does to the sprites

The chosen sprites, their slots and the two flags that they raise follow rules of their own. A slot is
filled in two dots of its own, the list is made in the first of all these dots, and no other dot touches
either. The flags are cleared in one dot of a frame and otherwise only raised.
-/
namespace Famiclone.Picture

variable {β : Type} [PictureBus β]

/-- What belongs to the sprites in the unit, beside their memory. -/
def lineup (p : Picture) : List (Fin 64) × Vector SpriteSlot 8 × PictureStatus :=
  (p.chosen, p.slots, p.status)

/-! ## The chosen sprites -/

def Setup.nextChosen (s : Setup) (chosen : List (Fin 64)) : List (Fin 64) :=
  if s.beam.dot = 257 then
    if s.beam.visible then Sprite.choose s.sprites s.control.spriteHeight s.beam.line else []
  else chosen

/-- Whether a dot finds more sprites for the next line than there are slots. -/
def Setup.findsMore (s : Setup) : Bool :=
  decide (s.beam.dot = 257) && s.beam.visible &&
    Sprite.overflows s.sprites s.control.spriteHeight s.beam.line
      (Sprite.choose s.sprites s.control.spriteHeight s.beam.line)

/-! ## The slots -/

def Setup.spriteIn (s : Setup) (chosen : List (Fin 64)) (k : Fin 8) : Sprite :=
  match chosen[k.val]? with
  | some i => .get s.sprites i
  | none => .absent

/-- Where the pattern for a slot is that is filled on a line. -/
def Setup.addressIn (s : Setup) (line : Nat) (chosen : List (Fin 64)) (k : Fin 8) : UInt16 :=
  (s.spriteIn chosen k).patternAddress s.control line

def Setup.nextSlot (s : Setup) (board : β) (chosen : List (Fin 64)) (k : Fin 8) (slot : SpriteSlot) :
    SpriteSlot :=
  let begun := slot.begin (s.spriteIn chosen k)
  if s.beam.dot = 261 + 8 * k.val then
    { begun with low := s.memory.peek board (s.addressIn s.beam.line chosen k) }
  else if s.beam.dot = 263 + 8 * k.val then
    { begun with high := s.memory.peek board (s.addressIn s.beam.line chosen k + 8) }.finish
      (k.val < chosen.length)
  else slot

/-! ## The stages of a dot -/

theorem setup_nextChosen (p : Picture) (chosen : List (Fin 64)) : p.setup.nextChosen chosen =
    if p.beam.dot = 257 then
      if p.beam.visible then Sprite.choose p.sprites p.control.spriteHeight p.beam.line else []
    else chosen := rfl

theorem setup_findsMore (p : Picture) : p.setup.findsMore =
    (decide (p.beam.dot = 257) && p.beam.visible &&
      Sprite.overflows p.sprites p.control.spriteHeight p.beam.line
        (Sprite.choose p.sprites p.control.spriteHeight p.beam.line)) := rfl

theorem setup_nextSlot (p : Picture) (board : β) (k : Fin 8) (slot : SpriteSlot) :
    p.setup.nextSlot board p.chosen k slot =
      let sprite := p.spriteOf k
      let address := sprite.patternAddress p.control p.beam.line
      if p.beam.dot = 261 + 8 * k.val then
        { slot.begin sprite with low := p.memory.peek board address }
      else if p.beam.dot = 263 + 8 * k.val then
        { slot.begin sprite with high := p.memory.peek board (address + 8) }.finish
          (k.val < p.chosen.length)
      else slot := rfl

@[simp] theorem backgroundStage_lineup (p : Picture) (board : β) :
    (p.backgroundStage board).1.lineup = p.lineup := by
  unfold backgroundStage fetchBackground
  split
  · split <;> rfl
  · rfl

theorem lineStage_lineup (p : Picture) : p.lineStage.lineup =
    (p.setup.nextChosen p.chosen, p.slots, { p.status with
      spriteOverflow := p.status.spriteOverflow || p.setup.findsMore }) := by
  rw [setup_nextChosen, setup_findsMore]
  unfold lineStage
  by_cases last : p.beam.dot = 257
  · have ne : ¬ p.beam.dot = 256 := by omega
    rw [if_neg ne, if_pos last, if_pos last, decide_eq_true last, Bool.true_and]
    unfold endLine chooseSprites
    dsimp only
    cases visible : p.beam.visible with
    | true => rfl
    | false => simp [lineup]
  · rw [if_neg last, if_neg last, decide_eq_false last]
    split <;> simp [lineup]

theorem spriteStage_chosen (p : Picture) (board : β) :
    (p.spriteStage board).1.chosen = p.chosen ∧ (p.spriteStage board).1.status = p.status := by
  unfold spriteStage fetchSprite
  split
  · dsimp only
    split <;> exact ⟨rfl, rfl⟩
  · exact ⟨rfl, rfl⟩

section Slots

variable [LawfulPictureBus β] (p : Picture) (board : β) (j k : Fin 8)

theorem fetchSpriteLow_slot : (p.fetchSpriteLow board j).1.slots.get k =
    if j = k then
      { (p.slots.get k).begin (p.spriteOf k) with
        low := p.memory.peek board ((p.spriteOf k).patternAddress p.control p.beam.line) }
    else p.slots.get k := by
  simp only [fetchSpriteLow, VideoMemory.fetch_fst, get_put]
  by_cases same : j = k
  · rw [if_pos same, if_pos same, same]
  · rw [if_neg same, if_neg same]

theorem fetchSpriteHigh_slot : (p.fetchSpriteHigh board j).1.slots.get k =
    if j = k then
      { (p.slots.get k).begin (p.spriteOf k) with
        high := p.memory.peek board ((p.spriteOf k).patternAddress p.control p.beam.line + 8)
        }.finish (k.val < p.chosen.length)
    else p.slots.get k := by
  simp only [fetchSpriteHigh, VideoMemory.fetch_fst, get_put]
  by_cases same : j = k
  · rw [if_pos same, if_pos same, same]
  · rw [if_neg same, if_neg same]

/-- Of the sixty-four dots each slot has two that fill it. -/
theorem spriteStage_slot :
    (p.spriteStage board).1.slots.get k = p.setup.nextSlot board p.chosen k (p.slots.get k) := by
  rw [setup_nextSlot]
  unfold spriteStage
  by_cases fetches : 257 ≤ p.beam.dot ∧ p.beam.dot ≤ 320
  · rw [if_pos fetches]
    have slot : Fin.ofNat 8 ((p.beam.dot - 257) / 8) = k ↔ (p.beam.dot - 257) / 8 = k.val := by
      rw [Fin.ext_iff, Fin.val_ofNat, Nat.mod_eq_of_lt (by omega)]
    unfold fetchSprite
    dsimp only
    split
    · rw [if_neg (by omega), if_neg (by omega)]
    · rw [if_neg (by omega), if_neg (by omega)]
    · rw [fetchSpriteLow_slot]
      dsimp only
      by_cases own : (p.beam.dot - 257) / 8 = k.val
      · rw [if_pos (slot.mpr own), if_pos (by omega)]
        rfl
      · rw [if_neg (slot.not.mpr own), if_neg (by omega), if_neg (by omega)]
    · rw [fetchSpriteHigh_slot]
      dsimp only
      by_cases own : (p.beam.dot - 257) / 8 = k.val
      · rw [if_pos (slot.mpr own), if_neg (by omega), if_pos (by omega)]
        rfl
      · rw [if_neg (slot.not.mpr own), if_neg (by omega), if_neg (by omega)]
    · rename_i low high
      have low : (p.beam.dot - 257) % 8 ≠ 4 := low
      have high : (p.beam.dot - 257) % 8 ≠ 6 := high
      rw [if_neg (by omega), if_neg (by omega)]
  · rw [if_neg fetches, if_neg (by omega), if_neg (by omega)]

end Slots

@[simp] theorem idleStage_lineup (p : Picture) (board : β) :
    (p.idleStage board).1.lineup = p.lineup := by
  unfold idleStage
  split <;> rfl

@[simp] theorem frameStage_lineup (p : Picture) : p.frameStage.lineup = p.lineup := by
  unfold frameStage
  split <;> rfl

/-! ## Whole dots -/

/-- The flags of the sprites, with the one for overflow first. -/
def flags (p : Picture) : Bool × Bool := (p.status.spriteOverflow, p.status.spriteZeroHit)

/-- The dot in which the flags are cleared. -/
def Setup.clears (s : Setup) : Prop := s.beam.dot = 1 ∧ s.beam.line = s.region.preRenderLine

instance (s : Setup) : Decidable s.clears := inferInstanceAs (Decidable (_ ∧ _))

theorem updateStatus_chosen (p : Picture) :
    p.updateStatus.chosen = p.chosen ∧ p.updateStatus.slots = p.slots := by
  unfold updateStatus
  split
  · split
    · exact ⟨rfl, rfl⟩
    · split <;> exact ⟨rfl, rfl⟩
  · exact ⟨rfl, rfl⟩

theorem updateStatus_flags (p : Picture) :
    p.updateStatus.flags = if p.setup.clears then (false, false) else p.flags := by
  have clears : p.setup.clears ↔ p.beam.dot = 1 ∧ p.beam.line = p.region.preRenderLine := Iff.rfl
  unfold updateStatus
  by_cases second : p.beam.dot = 1
  · by_cases last : p.beam.line = p.region.preRenderLine
    · rw [if_pos second, if_pos last, if_pos (clears.mpr ⟨second, last⟩)]
      rfl
    · rw [if_pos second, if_neg last, if_neg fun both => last (clears.mp both).2]
      split <;> rfl
  · rw [if_neg second, if_neg fun both => second (clears.mp both).1]

section Ticks

variable (p : Picture) (board : β)

/-- The stages of a dot in which the sprites take part. -/
theorem fetchDot_lineup : (p.fetchDot board).1.lineup =
    ((p.backgroundStage board).1.lineStage.spriteStage (p.backgroundStage board).2).1.lineup := by
  unfold fetchDot
  dsimp only
  rw [frameStage_lineup, idleStage_lineup]

theorem lineStage_chosen : p.lineStage.chosen = p.setup.nextChosen p.chosen :=
  congrArg Prod.fst p.lineStage_lineup

theorem lineStage_slots : p.lineStage.slots = p.slots :=
  congrArg (fun lineup => lineup.2.1) p.lineStage_lineup

theorem lineStage_flags : p.lineStage.flags =
    (p.status.spriteOverflow || p.setup.findsMore, p.status.spriteZeroHit) :=
  congrArg (fun lineup => (lineup.2.2.spriteOverflow, lineup.2.2.spriteZeroHit)) p.lineStage_lineup

theorem fetchDot_chosen : (p.fetchDot board).1.chosen = p.setup.nextChosen p.chosen := by
  have before : (p.backgroundStage board).1.chosen = p.chosen :=
    congrArg Prod.fst (p.backgroundStage_lineup board)
  have stages : (p.fetchDot board).1.chosen = _ := congrArg Prod.fst (p.fetchDot_lineup board)
  rw [stages]
  show (Picture.spriteStage _ _).1.chosen = _
  rw [(spriteStage_chosen _ _).1, lineStage_chosen, backgroundStage_setup, before]

theorem fetchDot_flags : (p.fetchDot board).1.flags =
    (p.status.spriteOverflow || p.setup.findsMore, p.status.spriteZeroHit) := by
  have before : (p.backgroundStage board).1.status = p.status :=
    congrArg (fun lineup => lineup.2.2) (p.backgroundStage_lineup board)
  have stages : (p.fetchDot board).1.status = _ :=
    congrArg (fun lineup => lineup.2.2) (p.fetchDot_lineup board)
  unfold flags
  rw [stages]
  show (Picture.spriteStage _ _).1.flags = _
  unfold flags
  rw [(spriteStage_chosen _ _).2]
  have line := (p.backgroundStage board).1.lineStage_flags
  rw [backgroundStage_setup, before] at line
  exact line

theorem drawPixel_chosen : p.drawPixel.chosen = p.chosen ∧ p.drawPixel.slots = p.slots := by
  unfold drawPixel
  split <;> exact ⟨rfl, rfl⟩

theorem drawPixel_hitsAt (x : Nat) : p.drawPixel.hitsAt x = p.hitsAt x := by
  unfold drawPixel
  split <;> rfl

instance (s : Setup) : Decidable s.draws := inferInstanceAs (Decidable (_ ∧ _))

theorem drawPixel_flags : p.drawPixel.flags =
    (p.status.spriteOverflow,
      p.status.spriteZeroHit || (decide p.setup.draws && p.hitsAt (p.beam.dot - 1))) := by
  have draws : p.setup.draws ↔ p.beam.line < 240 ∧ 1 ≤ p.beam.dot ∧ p.beam.dot ≤ 256 := Iff.rfl
  unfold drawPixel
  by_cases here : p.beam.line < 240 ∧ 1 ≤ p.beam.dot ∧ p.beam.dot ≤ 256
  · rw [dif_pos here, decide_eq_true (draws.mpr here), Bool.true_and]
    rfl
  · rw [dif_neg here, decide_eq_false (draws.not.mpr here), Bool.false_and, Bool.or_false]
    rfl

/-! A dot on a line that is rendered. -/

variable (rendering : p.rendering = true)
include rendering

theorem tick_of_rendering : (p.tick board).1 =
    { (p.updateStatus.renderDot board).1 with
      beam := (p.updateStatus.renderDot board).1.beam.advance
        (p.updateStatus.renderDot board).1.region
        (p.updateStatus.renderDot board).1.mask.renders } := by
  unfold tick
  dsimp only
  rw [if_pos (by rw [updateStatus_rendering, rendering])]

theorem tick_chosen : (p.tick board).1.chosen = p.setup.nextChosen p.chosen := by
  rw [tick_of_rendering p board rendering]
  dsimp only
  rw [renderDot_fst, (drawPixel_chosen _).1, fetchDot_chosen, updateStatus_setup,
    (updateStatus_chosen p).1]

/-- The flags are cleared before the dot and raised in it. -/
theorem tick_flags : (p.tick board).1.flags =
    let before := if p.setup.clears then (false, false) else p.flags
    (before.1 || p.setup.findsMore,
      before.2 || (decide p.setup.draws && (p.tick board).1.hitsAt (p.beam.dot - 1))) := by
  have fetched := p.updateStatus.fetchDot_flags board
  have setup := p.updateStatus.fetchDot_setup board
  rw [updateStatus_setup] at fetched setup
  have drawn := drawPixel_flags (p.updateStatus.fetchDot board).1
  rw [setup, fetchDot_beam, ← drawPixel_hitsAt, ← renderDot_fst] at drawn
  have overflow := congrArg Prod.fst fetched
  have hit := congrArg Prod.snd fetched
  unfold flags at overflow hit
  dsimp only at overflow hit
  rw [overflow, hit] at drawn
  have moved (q : Picture) (beam : Beam) :
      { q with beam }.flags = q.flags ∧ ∀ x, { q with beam }.hitsAt x = q.hitsAt x :=
    ⟨rfl, fun _ => rfl⟩
  have cleared := p.updateStatus_flags
  rw [← cleared, tick_of_rendering p board rendering, (moved _ _).1, (moved _ _).2]
  generalize (p.updateStatus.renderDot board).1 = q at drawn ⊢
  rw [drawn]
  rfl

variable [LawfulPictureBus β]

omit rendering in
theorem fetchDot_slot (k : Fin 8) : (p.fetchDot board).1.slots.get k =
    p.setup.nextSlot board (p.setup.nextChosen p.chosen) k (p.slots.get k) := by
  have before : (p.backgroundStage board).1.lineup = p.lineup := p.backgroundStage_lineup board
  have chosen : (p.backgroundStage board).1.chosen = p.chosen := congrArg Prod.fst before
  have slots : (p.backgroundStage board).1.slots = p.slots :=
    congrArg (fun lineup => lineup.2.1) before
  have stages : (p.fetchDot board).1.slots = _ :=
    congrArg (fun lineup => lineup.2.1) (p.fetchDot_lineup board)
  rw [stages]
  show (Picture.spriteStage _ _).1.slots.get k = _
  rw [spriteStage_slot, lineStage_setup, lineStage_chosen, lineStage_slots, backgroundStage_setup,
    chosen, slots, backgroundStage_snd]
  simp only [Setup.nextSlot, VideoMemory.peek_foldl_observe]

theorem tick_slot (k : Fin 8) : (p.tick board).1.slots.get k =
    p.setup.nextSlot board (p.setup.nextChosen p.chosen) k (p.slots.get k) := by
  rw [tick_of_rendering p board rendering]
  dsimp only
  rw [renderDot_fst, (drawPixel_chosen _).2, fetchDot_slot, updateStatus_setup,
    (updateStatus_chosen p).1, (updateStatus_chosen p).2]

end Ticks

end Famiclone.Picture
