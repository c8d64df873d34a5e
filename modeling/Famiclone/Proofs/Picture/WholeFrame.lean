import Famiclone.Proofs.Picture.SpriteTracking
import Famiclone.Proofs.Picture.Undisturbed

/-!
# Whole frames

A frame that nobody disturbs shows the map of the background at the place of the upper left corner,
pixel by pixel, and with sprites it shows the scene. At its end the flag for sprite zero tells whether it
has met the background anywhere, and the flag for overflow tells whether the search behind the eighth
sprite has found one more on any line. What the unit held before the frame cannot be seen in it, neither
registers nor list nor slots nor flags, nor the dot that odd frames leave out.
-/
namespace Famiclone.Picture

/-! ## The pixel under the beam, of the background alone -/

/-- The pixel that is put out in a dot is the one of the map. -/
theorem Setup.OnTrack.drawn_pixel {β : Type} [PictureBus β] {s : Setup} {start : β} {beam : Beam}
    {c : Scroll} {g : Background} (h : s.OnTrack start beam c g) (rows : s.origin.row.val < 30)
    (visible : beam.line < 240) (left : 1 ≤ beam.dot) (right : beam.dot ≤ 256) :
    backdropCell (({ s with beam }.nextBackground start c g).pixel s.fineX) =
      s.memory.mapCell start s.control.backgroundTable
        ((s.origin.mapX + s.fineX.val + (beam.dot - 1)) % 512)
        ((s.origin.mapY + beam.line) % 480) := by
  obtain ⟨d, i, inside, row, pixel, column, line⟩ := h.drawn_planes rows visible left right
  rw [pixel, ← column, ← line]
  exact Setup.planesAt_pixel _ _ _ row inside

/-! ## A frame of background -/

section Frame

variable {β : Type} [PictureBus β]

/-- The colour that the map has for a pixel of the screen. -/
def mapColour (p : Picture) (board : β) (x y : Nat) : UInt8 :=
  let column := (p.origin.mapX + p.fineX.val + x) % 512
  let line := (p.origin.mapY + y) % 480
  let colour :=
    p.memory.palette.get (p.memory.mapCell board p.control.backgroundTable column line)
  if p.mask.grayscale then colour &&& 0x30 else colour

/-- A frame of background on its way. -/
structure Progress (start : Picture) (board : β) (left : Nat) (now : Picture × β) : Prop
    extends Undisturbed start board left now where
  /-- What has been drawn is what the map shows. -/
  drawn : now.1.Drawn (start.mapColour board)

/-- The background is shown everywhere, and nothing else is. -/
structure ShowsOnlyBackground (m : Mask) : Prop where
  background : m.showsBackground = true
  leftColumns : bit m.byte 1 = true
  sprites : m.showsSprites = false

theorem ShowsOnlyBackground.renders {m : Mask} (shows : ShowsOnlyBackground m) :
    m.renders = true := by
  unfold Mask.renders
  rw [shows.background]
  rfl

namespace Progress

variable {start : Picture} {board : β} {left : Nat} {p : Picture} {b : β} [LawfulPictureBus β]

/-- The colour that a dot puts out. -/
theorem tick_colour (h : Progress start board (left + 1) (p, b))
    (shows : ShowsOnlyBackground start.mask) (rows : start.origin.row.val < 30)
    (visible : p.beam.line < 240) (low : 1 ≤ p.beam.dot) (high : p.beam.dot ≤ 256) :
    (p.tick b).1.colourAt (p.beam.dot - 1) =
      start.mapColour board (p.beam.dot - 1) p.beam.line := by
  have setup := h.tick_setup
  have mask : (p.tick b).1.mask = start.mask := congrArg Setup.mask setup
  have memory : (p.tick b).1.memory = start.memory := congrArg Setup.memory setup
  have fineX : (p.tick b).1.fineX = start.fineX := congrArg Setup.fineX setup
  have shown (x : Nat) : start.mask.backgroundAt x = true := by
    unfold Mask.backgroundAt
    rw [shows.background, shows.leftColumns, Bool.or_true]
    rfl
  have pixel := h.track.drawn_pixel rows visible low high
  rw [colourAt_background _ _ (by rw [mask]; exact shows.sprites)]
  unfold backgroundPixel
  rw [mask, memory, fineX, shown, if_pos rfl, h.tick_background shows.renders]
  rw [show start.fineX = start.setup.fineX from rfl, pixel]
  rfl

/-- A dot brings the frame on. -/
theorem next (h : Progress start board (left + 1) (p, b)) (shows : ShowsOnlyBackground start.mask)
    (rows : start.origin.row.val < 30) {clock : β → β} (keeps : ∀ b, SameView (clock b) b)
    (cycleEnds : Bool) : Progress start board left (dot clock cycleEnds (p, b)) :=
  ⟨h.toUndisturbed.next shows.renders keeps cycleEnds,
    h.tick_drawn shows.renders h.drawn (h.tick_colour shows rows)⟩

end Progress

variable [LawfulPictureBus β]

/-- Every part of a frame that nobody disturbs. -/
theorem progress_of_run {start : Picture} (board : β) {clock : β → β}
    (keeps : ∀ b, SameView (clock b) b) (ends : Nat → Bool)
    (line : start.beam.line = start.region.preRenderLine) (dot : start.beam.dot = 0)
    (shows : ShowsOnlyBackground start.mask) (rows : start.origin.row.val < 30) {n : Nat}
    (within : n ≤ start.dotsToRest) :
    Progress start board (start.dotsToRest - n) (run clock ends n (start, board)) := by
  have rest : 240 < start.region.preRenderLine := Beam.screenHeight_lt _
  refine run_countdown (fun e h => h.next shows rows keeps e) ⟨.first line dot, ?_⟩ within
  intro below
  exact absurd below (by dsimp only; omega)

end Frame

/-- From the first dot of the pre-render line on, a frame without any access reaches the line of rest
in a known number of dots, and then each pixel of the screen has the colour of the map. The board and
what it shows are arbitrary, and so are cursor, registers, latches, parity and region. -/
theorem frame_shows_map (p : Picture) (board : Board) (ends : Nat → Bool)
    (line : p.beam.line = p.region.preRenderLine) (dot : p.beam.dot = 0)
    (shows : ShowsOnlyBackground p.mask) (rows : p.origin.row.val ≤ 29) :
    let behind (n : Nat) := (run Board.clock ends n (p, board)).1
    (∀ n < p.dotsToRest, (behind n).beam.line ≠ 240) ∧
      (behind p.dotsToRest).beam.line = 240 ∧ (behind p.dotsToRest).beam.dot = 0 ∧
      ∀ x y, (hx : x < 256) → (hy : y < 240) →
        (behind p.dotsToRest).screen[256 * y + x] = p.mapColour board x y := by
  have progress {n : Nat} (within : n ≤ p.dotsToRest) :=
    progress_of_run board SameView.clock ends line dot shows (Nat.lt_succ_of_le rows) within
  have final := progress (Nat.le_refl _)
  have none : p.dotsToRest - p.dotsToRest = 0 := Nat.sub_self _
  have arrived := final.beam.line_eq_iff.mpr none
  have first : (run Board.clock ends p.dotsToRest (p, board)).1.beam.dot = 0 := by
    have place := final.beam
    unfold Beam.RestIn at place
    have rest : 240 < p.region.preRenderLine := by cases p.region <;> decide
    omega
  refine ⟨?_, arrived, first, ?_⟩
  · intro n early reached
    have left := (progress (Nat.le_of_lt early)).beam.line_eq_iff.mp reached
    omega
  · intro x y hx hy
    exact final.drawn (by rw [arrived]) x y hx hy (.inl (by rw [arrived]; exact hy))

/-- An odd frame of an empty slot. -/
theorem frame_shows_map_of_empty_slot :
    let p : Picture := { initial .ntsc with
      mask := ⟨0x0A⟩
      beam := ⟨261, 0, 1, true, false, 178342⟩ }
    let behind (n : Nat) := (run Board.clock (fun n => n % 3 == 2) n (p, .empty)).1
    p.dotsToRest = 82180 ∧ (behind 82180).beam.line = 240 ∧
      ∀ x y, (hx : x < 256) → (hy : y < 240) →
        (behind 82180).screen[256 * y + x] = p.mapColour Board.empty x y := by
  intro p
  have shows : ShowsOnlyBackground ⟨0x0A⟩ := ⟨by decide, by decide, by decide⟩
  have frame := frame_shows_map p .empty (fun n => n % 3 == 2) rfl rfl shows (by decide)
  have dots : p.dotsToRest = 82180 := rfl
  rw [dots] at frame
  exact ⟨dots, frame.2.1, frame.2.2.2⟩

variable {β : Type} [PictureBus β]

/-! ## The pixel under the beam, with sprites -/

/-- All that a pixel is made of is what the scene has for it. -/
structure PixelReady (start : Picture) (board : β) (x y : Nat) (q : Picture) : Prop where
  mask : q.mask = start.mask
  background : start.mask.showsBackground = true
  sprites : start.mask.showsSprites = true
  memory : q.memory = start.memory
  pattern : (q.background.pixel q.fineX).pattern.val =
    start.memory.mapPattern board start.control.backgroundTable (start.mapColumn x) (start.mapLine y)
  palette : (q.background.pixel q.fineX).palette.val =
    start.memory.mapPalette board (start.mapColumn x) (start.mapLine y)
  slots : start.SlotsReady board y q.chosen q.slots

/-- A layer is shown in a column unless the columns on the left are left out. -/
theorem shown_iff (x : Nat) (flag : Bool) :
    (decide (8 ≤ x) || flag) = true ↔ ¬ (x < 8 ∧ flag = false) := by
  cases flag <;> simp

namespace PixelReady

variable {start : Picture} {board : β} {x y : Nat} {q : Picture}
  (h : start.PixelReady board x y q)
include h

theorem backgroundPixel_eq : q.backgroundPixel x =
    if x < 8 ∧ bit start.mask.byte 1 = false then .transparent
    else q.background.pixel q.fineX := by
  unfold backgroundPixel Mask.backgroundAt
  rw [h.mask, h.background, Bool.true_and]
  by_cases left : x < 8 ∧ bit start.mask.byte 1 = false
  · rw [if_pos left, if_neg fun shown => (shown_iff _ _).mp shown left]
  · rw [if_neg left, if_pos ((shown_iff _ _).mpr left)]

theorem groundPattern : (q.backgroundPixel x).pattern.val = start.groundPattern board x y := by
  rw [h.backgroundPixel_eq, Picture.groundPattern]
  split
  · rfl
  · exact h.pattern

theorem pattern_eq_zero_iff :
    (q.backgroundPixel x).pattern = 0 ↔ start.groundPattern board x y = 0 := by
  rw [← h.groundPattern, Fin.ext_iff]
  rfl

theorem groundCell : backdropCell (q.backgroundPixel x) = start.groundCell board x y := by
  unfold backdropCell Picture.groundCell
  dsimp only
  by_cases backdrop : start.groundPattern board x y = 0
  · rw [if_pos (h.pattern_eq_zero_iff.mpr backdrop), if_pos backdrop]
    rfl
  · have inside : ¬ (x < 8 ∧ bit start.mask.byte 1 = false) := fun left =>
      backdrop (if_pos left)
    rw [if_neg (h.pattern_eq_zero_iff.not.mpr backdrop), if_neg backdrop, ← h.groundPattern,
      h.backgroundPixel_eq, if_neg inside, ← h.palette]
    rfl

theorem frontSprite : match q.frontSlot x with
    | none => start.frontSprite board x y = none
    | some k => ∃ used : k.val < q.chosen.length,
      start.frontSprite board x y = some q.chosen[k.val] := by
  unfold frontSlot Mask.spritesAt Picture.frontSprite
  rw [h.mask, h.sprites, Bool.true_and, ← h.slots.list]
  by_cases left : x < 8 ∧ bit start.mask.byte 2 = false
  · rw [if_pos left, if_neg fun shown => (shown_iff _ _).mp shown left]
  · rw [if_neg left, if_pos ((shown_iff _ _).mpr left)]
    exact h.slots.front x

/-- The palette cell of a pixel is the one of the scene. -/
theorem cellAt : q.cellAt x = start.sceneCell board x y := by
  have front := h.frontSprite
  unfold Picture.cellAt sceneCell
  cases found : q.frontSlot x with
  | none =>
    rw [found] at front
    rw [show start.frontSprite board x y = none from front]
    exact h.groundCell
  | some k =>
    rw [found] at front
    obtain ⟨used, winner⟩ := front
    have attributes := h.slots.attributes used
    have pattern := h.slots.pattern used x
    rw [winner]
    dsimp only
    rw [← attributes, ← pattern, ← h.groundCell]
    have ground := h.pattern_eq_zero_iff
    by_cases hidden : (q.slots.get k).behind ∧ (q.backgroundPixel x).pattern ≠ 0
    · have covered : ¬ (start.groundPattern board x y = 0 ∨
          bit (q.slots.get k).attributes 5 = false) := by
        rintro (clear | front)
        · exact hidden.2 (ground.mpr clear)
        · exact Bool.false_ne_true (front.symm.trans hidden.1)
      rw [if_pos hidden, if_neg covered, backdropCell, if_neg hidden.2]
    · have seen : start.groundPattern board x y = 0 ∨ bit (q.slots.get k).attributes 5 = false := by
        by_contra covered
        rw [not_or, Bool.not_eq_false] at covered
        exact hidden ⟨covered.2, ground.not.mpr covered.1⟩
      have palette : (Fin.ofNat 8 (4 + (q.slots.get k).attributes.toNat % 4)).val =
          4 + (q.slots.get k).attributes.toNat % 4 := by
        rw [Fin.val_ofNat, Nat.mod_eq_of_lt (by omega)]
      rw [if_neg hidden, if_pos seen]
      unfold SpriteSlot.pixel Pixel.cell
      dsimp only
      rw [palette, Nat.mul_add]

/-- Sprite zero meets the background in the picture where it does so in the scene. -/
theorem hitsAt (column : x < 256) : q.hitsAt x = true ↔ start.Meets board x y := by
  have front := h.frontSprite
  unfold Picture.hitsAt Meets
  simp only [Bool.and_eq_true, decide_eq_true_eq, ne_eq, h.pattern_eq_zero_iff]
  cases found : q.frontSlot x with
  | none =>
    rw [found] at front
    rw [show start.frontSprite board x y = none from front]
    simp
  | some k =>
    rw [found] at front
    obtain ⟨used, winner⟩ := front
    rw [winner, Option.some_inj, Option.some_inj, h.slots.eq_zero_iff used]
    constructor
    · rintro ⟨⟨⟨first, zero⟩, meets⟩, inside⟩
      exact ⟨by omega, ⟨first, zero⟩, meets⟩
    · rintro ⟨inside, ⟨first, zero⟩, meets⟩
      exact ⟨⟨⟨first, zero⟩, meets⟩, by omega⟩

end PixelReady

/-! ## A frame of background and sprites -/

/-- Sprite zero meets the background in a dot. -/
def MeetsAt (start : Picture) (board : β) (y dot : Nat) : Prop :=
  1 ≤ dot ∧ start.Meets board (dot - 1) y

/-- More sprites than there are slots are found in a dot. -/
def OverfullAt (start : Picture) (y dot : Nat) : Prop := dot = 257 ∧ start.Overfull y

/-- A frame of background and sprites on its way. -/
structure SceneProgress (start : Picture) (board : β) (left : Nat) (now : Picture × β) : Prop
    extends Undisturbed start board left now where
  sprites : start.SpritesOnTrack board now.1.beam now.1.chosen now.1.slots
  /-- What has been drawn is what the scene shows. -/
  drawn : now.1.Drawn (start.sceneColour board)
  overflow : now.1.beam.line ≤ 240 →
    (now.1.flags.1 = true ↔ now.1.beam.Gathered start.OverfullAt)
  hit : now.1.beam.line ≤ 240 →
    (now.1.flags.2 = true ↔ now.1.beam.Gathered (start.MeetsAt board))
  /-- On the pre-render line the flags are cleared. -/
  cleared : ¬ now.1.beam.line ≤ 240 → 2 ≤ now.1.beam.dot → now.1.flags = (false, false)

/-- Background and sprites are shown, apart perhaps from the columns on the left. -/
structure ShowsBoth (m : Mask) : Prop where
  background : m.showsBackground = true
  sprites : m.showsSprites = true

theorem ShowsBoth.renders {m : Mask} (shows : ShowsBoth m) : m.renders = true := by
  unfold Mask.renders
  rw [shows.background]
  rfl

namespace SceneProgress

variable {start : Picture} {board : β} {left : Nat} {p : Picture} {b : β}
  (h : SceneProgress start board (left + 1) (p, b)) (shows : ShowsBoth start.mask)
include h shows

theorem tick_chosen : (p.tick b).1.chosen =
    { start.setup with beam := p.beam }.nextChosen p.chosen := by
  rw [Picture.tick_chosen p b (h.rendering shows.renders), h.setup]

variable [LawfulPictureBus β]

theorem tick_slot (k : Fin 8) : (p.tick b).1.slots.get k =
    { start.setup with beam := p.beam }.nextSlot board
      ({ start.setup with beam := p.beam }.nextChosen p.chosen) k (p.slots.get k) := by
  rw [Picture.tick_slot p b (h.rendering shows.renders), h.setup]
  simp only [Setup.nextSlot, h.view.peek]

/-- In a dot of the screen everything is there that its pixel is made of. -/
theorem tick_ready (rows : start.origin.row.val < 30) (visible : p.beam.line < 240)
    (low : 1 ≤ p.beam.dot) (high : p.beam.dot ≤ 256) :
    start.PixelReady board (p.beam.dot - 1) p.beam.line (p.tick b).1 := by
  have setup := h.tick_setup
  obtain ⟨d, i, inside, row, pixel, column, line⟩ := h.track.drawn_planes rows visible low high
  have put : (p.tick b).1.background.pixel (p.tick b).1.fineX =
      (start.setup.planesAt board d).pixel i := by
    rw [h.tick_background shows.renders,
      show (p.tick b).1.fineX = start.setup.fineX from congrArg Setup.fineX setup]
    exact pixel
  refine ⟨congrArg Setup.mask setup, shows.background, shows.sprites, congrArg Setup.memory setup,
    ?_, ?_, ?_⟩
  · rw [put, Setup.planesAt_pattern _ _ _ row inside, column, line]
    rfl
  · rw [put, Setup.planesAt_palette _ _ _ row inside, column, line]
    rfl
  · rw [h.tick_chosen shows]
    exact h.sprites.drawing_next (h.tick_slot shows) visible (by dsimp only; omega)

/-- The colour that a dot puts out. -/
theorem tick_colour (rows : start.origin.row.val < 30) (visible : p.beam.line < 240)
    (low : 1 ≤ p.beam.dot) (high : p.beam.dot ≤ 256) :
    (p.tick b).1.colourAt (p.beam.dot - 1) =
      start.sceneColour board (p.beam.dot - 1) p.beam.line := by
  have ready := h.tick_ready shows rows visible low high
  unfold colourAt
  rw [ready.cellAt, ready.mask, ready.memory]
  rfl

/-! The flags of the sprites. -/

omit shows [LawfulPictureBus β] in
theorem findsMore_iff : p.setup.findsMore = true ↔
    p.beam.line < 240 ∧ start.OverfullAt p.beam.line p.beam.dot := by
  have visible : p.beam.visible = true ↔ p.beam.line < 240 := decide_eq_true_iff
  rw [h.setup, OverfullAt, overfull_iff, ← visible]
  unfold Setup.findsMore
  rw [Bool.and_eq_true, Bool.and_eq_true, decide_eq_true_iff, and_assoc, and_left_comm]
  rfl

theorem hits_iff (rows : start.origin.row.val < 30) :
    (decide p.setup.draws && (p.tick b).1.hitsAt (p.beam.dot - 1)) = true ↔
      p.beam.line < 240 ∧ start.MeetsAt board p.beam.line p.beam.dot := by
  have draws : p.setup.draws ↔ p.beam.line < 240 ∧ 1 ≤ p.beam.dot ∧ p.beam.dot ≤ 256 := Iff.rfl
  rw [Bool.and_eq_true, decide_eq_true_iff, draws]
  constructor
  · rintro ⟨⟨visible, low, high⟩, hits⟩
    have ready := h.tick_ready shows rows visible low high
    exact ⟨visible, low, (ready.hitsAt (by omega)).mp hits⟩
  · rintro ⟨visible, low, meets⟩
    have inside : p.beam.dot - 1 < 255 := meets.1
    have ready := h.tick_ready shows rows visible low (by omega)
    exact ⟨⟨visible, low, by omega⟩, (ready.hitsAt (by omega)).mpr meets⟩

omit [LawfulPictureBus β] in
/-- Wherever the beam is to come to the screen the flags have been cleared before. -/
theorem flags_before (below : (p.tick b).1.beam.line ≤ 240) :
    (if p.setup.clears then (false, false) else p.flags) = p.flags ∧
      (¬ p.beam.line ≤ 240 → p.flags = (false, false)) := by
  have clears : p.setup.clears → p.beam.dot = 1 ∧ p.beam.line = start.region.preRenderLine := by
    rw [h.setup]
    exact id
  have rest : 240 < start.region.preRenderLine := Beam.screenHeight_lt _
  have rendered := h.beam.rendered
  dsimp only at rendered
  have late : ¬ p.beam.line ≤ 240 → 339 ≤ p.beam.dot := by
    intro hidden
    rw [h.tick_beam shows.renders] at below
    cases ends : p.beam.lastDot start.region true with
    | true =>
      have last := (Beam.lastDot_iff _ _).mp ends
      omega
    | false =>
      rw [Beam.advance_of_not_last _ _ ends] at below
      exact absurd below hidden
  refine ⟨if_neg fun second => ?_, fun hidden => h.cleared hidden (by dsimp only; omega)⟩
  have place := clears second
  omega

/-- What the flags tell behind a dot, when the beam comes to the screen or is there. -/
theorem tick_flags_of_below (rows : start.origin.row.val < 30)
    (below : (p.tick b).1.beam.line ≤ 240) :
    ((p.tick b).1.flags.1 = true ↔ (p.tick b).1.beam.Gathered start.OverfullAt) ∧
      ((p.tick b).1.flags.2 = true ↔ (p.tick b).1.beam.Gathered (start.MeetsAt board)) := by
  obtain ⟨before, late⟩ := h.flags_before shows below
  rw [tick_flags p b (h.rendering shows.renders), before]
  rw [h.tick_beam shows.renders] at below ⊢
  exact ⟨h.beam.flag_next below h.overflow (fun hidden => congrArg Prod.fst (late hidden))
      h.findsMore_iff,
    h.beam.flag_next below h.hit (fun hidden => congrArg Prod.snd (late hidden))
      (h.hits_iff shows rows)⟩

theorem tick_cleared (rows : start.origin.row.val < 30) (hidden : ¬ (p.tick b).1.beam.line ≤ 240)
    (second : 2 ≤ (p.tick b).1.beam.dot) : (p.tick b).1.flags = (false, false) := by
  rw [h.tick_beam shows.renders] at hidden second
  cases ends : p.beam.lastDot start.region true with
  | true =>
    rw [Beam.advance_of_last _ _ ends, Beam.nextLine_dot] at second
    contradiction
  | false =>
    rw [Beam.advance_of_not_last _ _ ends] at hidden second
    dsimp only at hidden second
    have rendered := h.beam.rendered
    dsimp only at rendered
    have pre : p.beam.line = start.region.preRenderLine := by omega
    have before : (if p.setup.clears then (false, false) else p.flags) = (false, false) := by
      by_cases first : p.beam.dot = 1
      · refine if_pos ?_
        rw [h.setup]
        exact ⟨first, pre⟩
      · rw [h.cleared hidden (by dsimp only; omega), ite_self]
    have still : p.setup.findsMore = false := by
      rw [← Bool.not_eq_true, h.findsMore_iff]
      omega
    have clear : (decide p.setup.draws && (p.tick b).1.hitsAt (p.beam.dot - 1)) = false := by
      rw [← Bool.not_eq_true, h.hits_iff shows rows]
      omega
    rw [tick_flags p b (h.rendering shows.renders), before, still, clear]
    rfl

/-- A dot brings the frame on. -/
theorem next (rows : start.origin.row.val < 30) {clock : β → β} (keeps : ∀ b, SameView (clock b) b)
    (cycleEnds : Bool) : SceneProgress start board left (dot clock cycleEnds (p, b)) where
  toUndisturbed := h.toUndisturbed.next shows.renders keeps cycleEnds
  sprites := by
    show start.SpritesOnTrack board (p.tick b).1.beam (p.tick b).1.chosen (p.tick b).1.slots
    rw [h.tick_beam shows.renders, h.tick_chosen shows]
    exact h.sprites.next (h.tick_slot shows) h.beam.rendered
  drawn := h.tick_drawn shows.renders h.drawn (h.tick_colour shows rows)
  overflow below := (h.tick_flags_of_below shows rows below).1
  hit below := (h.tick_flags_of_below shows rows below).2
  cleared := h.tick_cleared shows rows

end SceneProgress

variable [LawfulPictureBus β]

/-- Every part of a frame that nobody disturbs. -/
theorem sceneProgress_of_run {start : Picture} (board : β) {clock : β → β}
    (keeps : ∀ b, SameView (clock b) b) (ends : Nat → Bool)
    (line : start.beam.line = start.region.preRenderLine) (dot : start.beam.dot = 0)
    (shows : ShowsBoth start.mask) (rows : start.origin.row.val < 30) {n : Nat}
    (within : n ≤ start.dotsToRest) :
    SceneProgress start board (start.dotsToRest - n) (run clock ends n (start, board)) := by
  have rest : 240 < start.region.preRenderLine := Beam.screenHeight_lt _
  refine run_countdown (fun e h => h.next shows rows keeps e) ⟨.first line dot, ?_, ?_, ?_, ?_, ?_⟩
    within
  · refine ⟨?_, ?_, ?_, ?_⟩ <;> dsimp only <;> intros <;> omega
  · intro below
    exact absurd below (by dsimp only; omega)
  · intro below
    exact absurd below (by dsimp only; omega)
  · intro below
    exact absurd below (by dsimp only; omega)
  · intro _ second
    exact absurd second (by dsimp only; omega)

/-- From the first dot of the pre-render line on, a frame without any access reaches the line of rest
in a known number of dots, and then each pixel of the screen has the colour of the scene, the flag for
sprite zero tells whether it meets the background anywhere, and the flag for overflow whether more sprites
than there are slots have been found for any line. Board, memories and registers are arbitrary, and so is
whatever the unit held before the frame. -/
theorem frame_shows_scene (p : Picture) (board : Board) (ends : Nat → Bool)
    (line : p.beam.line = p.region.preRenderLine) (dot : p.beam.dot = 0)
    (background : p.mask.showsBackground = true) (sprites : p.mask.showsSprites = true)
    (rows : p.origin.row.val ≤ 29) :
    let behind (n : Nat) := (run Board.clock ends n (p, board)).1
    let last := behind p.dotsToRest
    (∀ n < p.dotsToRest, (behind n).beam.line ≠ 240) ∧ last.beam.line = 240 ∧ last.beam.dot = 0 ∧
      (∀ x y, (hx : x < 256) → (hy : y < 240) →
        last.screen[256 * y + x] = p.sceneColour board x y) ∧
      (last.status.spriteZeroHit = true ↔ ∃ x, ∃ y < 240, p.Meets board x y) ∧
      (last.status.spriteOverflow = true ↔ ∃ y < 240, p.Overfull y) := by
  have progress {n : Nat} (within : n ≤ p.dotsToRest) :=
    sceneProgress_of_run board SameView.clock ends line dot ⟨background, sprites⟩
      (Nat.lt_succ_of_le rows) within
  have final := progress (Nat.le_refl _)
  rw [Nat.sub_self] at final
  obtain ⟨rest, first⟩ := final.arrived
  have passed (y dot : Nat) : (run Board.clock ends p.dotsToRest (p, board)).1.beam.Passed y dot ↔
      y < 240 := by
    unfold Beam.Passed
    omega
  have gathered := final.overflow (Nat.le_of_eq rest)
  have met := final.hit (Nat.le_of_eq rest)
  unfold Beam.Gathered at gathered met
  simp only [passed] at gathered met
  refine ⟨fun n early reached => ?_, rest, first, fun x y hx hy => ?_, ?_, ?_⟩
  · have left := (progress (Nat.le_of_lt early)).beam.line_eq_iff.mp reached
    omega
  · exact final.drawn (Nat.le_of_eq rest) x y hx hy ((passed _ _).mpr hy)
  · refine met.trans ⟨?_, ?_⟩
    · rintro ⟨y, shown, dot, _, _, _, meets⟩
      exact ⟨dot - 1, y, shown, meets⟩
    · rintro ⟨x, y, shown, meets⟩
      have inside := meets.1
      exact ⟨y, shown, x + 1, by omega, shown, Nat.succ_pos x, meets⟩
  · refine gathered.trans ⟨?_, ?_⟩
    · rintro ⟨y, shown, dot, _, _, _, more⟩
      exact ⟨y, shown, more⟩
    · rintro ⟨y, shown, more⟩
      exact ⟨y, shown, 257, by decide, shown, rfl, more⟩

/-- A frame of an empty slot in which all sprites are in one place. -/
theorem frame_shows_scene_of_crowd :
    let p : Picture := { initial .pal with
      control := ⟨0x20⟩
      mask := ⟨0x18⟩
      sprites := .replicate 256 20
      beam := ⟨311, 0, 1, true, false, 200000⟩ }
    let behind (n : Nat) := (run Board.clock (fun n => n % 3 == 2) n (p, .empty)).1
    p.dotsToRest = 82181 ∧ (behind 82181).beam.line = 240 ∧
      (behind 82181).status.spriteOverflow = true ∧
      ∀ x y, (hx : x < 256) → (hy : y < 240) →
        (behind 82181).screen[256 * y + x] = p.sceneColour Board.empty x y := by
  intro p
  have frame := frame_shows_scene p .empty (fun n => n % 3 == 2) rfl rfl (by decide) (by decide)
    (by decide)
  have dots : p.dotsToRest = 82181 := rfl
  rw [dots] at frame
  have crowded : p.Overfull 20 := by
    have byte (k : Nat) (h : k < 256) : p.sprites[k] = 20 := Vector.getElem_replicate h
    have reaches : p.Reaches 20 21 := by decide
    have list : p.spritesOn 21 = (List.finRange 64).take 8 := by
      unfold spritesOn
      rw [List.filter_eq_self.mpr]
      intro i _
      rw [Sprite.get, byte]
      exact decide_eq_true reaches
    have last : (p.spritesOn 21).getLast? = some 7 := by
      rw [list]
      decide
    refine ⟨by rw [list]; decide, 7, 8, last, by decide, ?_⟩
    rw [byte]
    exact reaches
  exact ⟨dots, frame.2.1, frame.2.2.2.2.2.mpr ⟨20, by decide, crowded⟩, frame.2.2.2.1⟩

end Famiclone.Picture
