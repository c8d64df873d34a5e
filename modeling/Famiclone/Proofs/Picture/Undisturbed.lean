import Famiclone.Proofs.Picture.Tracking

/-!
# A frame that nobody disturbs

Between the start of the pre-render line and the line of rest nothing reaches the unit from outside. The
setup and what the board shows stay, the beam is where it has to be, and the background is on its track:
this is known at each dot of such a frame, whatever is shown in it. While a pixel is drawn the registers
put out a pixel of a tile that the map has at that place.
-/
namespace Famiclone.Picture

/-! ## The pixel under the beam -/

namespace Setup.OnTrack

variable {β : Type} [PictureBus β] {s : Setup} {start : β} {beam : Beam} {c : Scroll}
  {g : Background}

/-- While a pixel is drawn the registers hold its tile and the next one. -/
theorem drawn_registers (h : s.OnTrack start beam c g) (visible : beam.line < 240)
    (left : 1 ≤ beam.dot) (right : beam.dot ≤ 256) :
    ∃ cursor, s.Fetching start (s.origin.linesOn beam.line) (2 + (beam.dot - 1) / 8)
      ((beam.dot - 1) % 8) cursor ({ s with beam }.nextBackground start c g) := by
  by_cases inside : beam.dot < 256
  · have same : beam.dot + 1 - 2 = beam.dot - 1 := by omega
    have next := h.drawing_next visible (by omega)
    rw [same] at next
    exact ⟨_, next⟩
  · have last : beam.dot = 256 := by omega
    have fetches : fetchesBackground beam.dot = true := by
      rw [last]
      decide
    have now := h.drawing visible (by omega)
    rw [last] at now
    rw [nextBackground_of_fetch _ start c g fetches (by dsimp only; omega)]
    dsimp only
    rw [last]
    exact ⟨_, now.next (by decide)⟩

/-- What the registers put out in a dot is a pixel of a tile, at the place of the map that is seen. -/
theorem drawn_planes (h : s.OnTrack start beam c g) (rows : s.origin.row.val < 30)
    (visible : beam.line < 240) (left : 1 ≤ beam.dot) (right : beam.dot ≤ 256) :
    ∃ d : Scroll, ∃ i < 8, d.row.val < 30 ∧
      ({ s with beam }.nextBackground start c g).pixel s.fineX = (s.planesAt start d).pixel i ∧
      d.mapX + i = (s.origin.mapX + s.fineX.val + (beam.dot - 1)) % 512 ∧
      d.mapY = (s.origin.mapY + beam.line) % 480 := by
  obtain ⟨cursor, fetching⟩ := h.drawn_registers visible left right
  obtain ⟨older, oldest, holds⟩ := fetching.before (by omega)
  have row := s.origin.linesOn_row_lt rows beam.line
  have fine := s.fineX.isLt
  generalize beam.dot - 1 = x at oldest holds ⊢
  have tile (k i : Nat) (hi : i < 8) (place : 8 * k + i = s.fineX.val + x) :
      ((s.origin.linesOn beam.line).tilesOn k).row.val < 30 ∧
        ((s.origin.linesOn beam.line).tilesOn k).mapX + i =
          (s.origin.mapX + s.fineX.val + x) % 512 ∧
        ((s.origin.linesOn beam.line).tilesOn k).mapY = (s.origin.mapY + beam.line) % 480 := by
    have column : (s.origin.mapX + 8 * k) % 512 + i = (s.origin.mapX + s.fineX.val + x) % 512 := by
      unfold Scroll.mapX
      omega
    rw [Scroll.tilesOn_row, Scroll.tilesOn_mapX, Scroll.tilesOn_mapY, Scroll.linesOn_mapX,
      Scroll.linesOn_mapY _ rows]
    exact ⟨row, column, rfl⟩
  have here : 2 + x / 8 - 2 = x / 8 := by omega
  have next : 2 + x / 8 - 1 = x / 8 + 1 := by omega
  rw [oldest (by omega), here, next] at holds
  rw [holds.pixel s.fineX (by omega)]
  split
  · obtain ⟨range, place⟩ := tile (x / 8) (s.fineX.val + x % 8) (by omega) (by omega)
    exact ⟨_, _, by omega, range, rfl, place⟩
  · obtain ⟨range, place⟩ := tile (x / 8 + 1) (s.fineX.val + x % 8 - 8) (by omega) (by omega)
    exact ⟨_, _, by omega, range, rfl, place⟩

end Setup.OnTrack

/-! ## The frame -/

section Frame

variable {β : Type} [PictureBus β]

/-- The dots from the start of the pre-render line to the end of the last visible line. -/
def dotsToRest (p : Picture) : Nat := 341 * 241 - p.beam.leftOut p.region

/-- The pixels lie inside the screen. -/
theorem pixel_lt {x y : Nat} (hx : x < 256) (hy : y < 240) : 256 * y + x < 256 * 240 :=
  calc 256 * y + x
    _ < 256 * y + 256 := Nat.add_lt_add_left hx _
    _ ≤ 256 * 240 := Nat.mul_le_mul_left 256 hy

/-- What has been drawn of a frame has the colours that a picture has. -/
def Drawn (colour : Nat → Nat → UInt8) (p : Picture) : Prop :=
  p.beam.line ≤ 240 → ∀ x y, (hx : x < 256) → (hy : y < 240) → p.beam.Passed y (x + 1) →
    getElem p.screen (256 * y + x) (pixel_lt hx hy) = colour x y

/-- A pixel is drawn in a dot of its own and otherwise stays. -/
theorem tick_pixel (p : Picture) (board : β) (rendering : p.rendering = true) {x y : Nat}
    (hx : x < 256) (hy : y < 240) :
    getElem (p.tick board).1.screen (256 * y + x) (pixel_lt hx hy) =
      if y = p.beam.line ∧ x + 1 = p.beam.dot then (p.tick board).1.colourAt x
      else getElem p.screen (256 * y + x) (pixel_lt hx hy) := by
  by_cases draws : p.beam.line < 240 ∧ 1 ≤ p.beam.dot ∧ p.beam.dot ≤ 256
  · obtain ⟨visible, low, high⟩ := draws
    have drawn := p.tick_screen_of_draws board rendering visible low high
    simp only [drawn, Vector.getElem_set]
    by_cases here : y = p.beam.line ∧ x + 1 = p.beam.dot
    · obtain ⟨line, dot⟩ := here
      have column : p.beam.dot - 1 = x := by omega
      rw [if_pos (by omega), if_pos ⟨line, dot⟩, column]
    · rw [if_neg (by omega), if_neg here]
  · have kept := p.tick_screen_of_not_draws board draws
    simp only [kept]
    rw [if_neg (by omega)]

/-- A frame on its way from a state `start`, `left` dots before its end. -/
structure Undisturbed (start : Picture) (board : β) (left : Nat) (now : Picture × β) : Prop where
  setup : now.1.setup = { start.setup with beam := now.1.beam }
  view : SameView now.2 board
  beam : now.1.beam.RestIn start.region left
  track : start.setup.OnTrack board now.1.beam now.1.cursor now.1.background

namespace Undisturbed

variable {start : Picture} {board : β} {left : Nat} {p : Picture} {b : β}

/-- A frame begins at the first dot of the pre-render line. -/
theorem first (line : start.beam.line = start.region.preRenderLine) (dot : start.beam.dot = 0) :
    Undisturbed start board start.dotsToRest (start, board) := by
  have rest : 240 < start.region.preRenderLine := Beam.screenHeight_lt _
  have flag : start.beam.leftOut start.region < 2 := Bool.toNat_lt _
  have count : start.dotsToRest = 341 * 241 - start.beam.leftOut start.region := rfl
  refine ⟨rfl, .refl board, .inr (.inl ⟨line, ?_, ?_⟩), ?_⟩
  · show start.beam.dot + start.beam.leftOut start.region ≤ 340
    omega
  · show start.dotsToRest + start.beam.dot + start.beam.leftOut start.region = 341 * 241
    omega
  · refine ⟨?_, ?_, ?_, ?_, ?_⟩ <;> dsimp only <;> intros <;> omega

/-- With no dot left the line of rest begins. -/
theorem arrived {now : Picture × β} (h : Undisturbed start board 0 now) :
    now.1.beam.line = 240 ∧ now.1.beam.dot = 0 := by
  have line := h.beam.line_eq_iff.mpr rfl
  have rest : 240 < start.region.preRenderLine := Beam.screenHeight_lt _
  have place := h.beam
  unfold Beam.RestIn at place
  exact ⟨line, by omega⟩

variable (h : Undisturbed start board (left + 1) (p, b)) (renders : start.mask.renders = true)
include h

theorem mask : p.mask = start.mask := congrArg Setup.mask h.setup

include renders

theorem rendering : p.rendering = true := by
  have place : (p.beam.visible || p.beam.line == start.region.preRenderLine) = true := by
    obtain visible | last := h.beam.rendered
    · exact Bool.or_eq_true_iff.mpr (.inl (decide_eq_true visible))
    · exact Bool.or_eq_true_iff.mpr (.inr (beq_iff_eq.mpr last))
  rw [← setup_rendering, h.setup]
  exact Bool.and_eq_true_iff.mpr ⟨renders, place⟩

theorem tick_beam : (p.tick b).1.beam = p.beam.advance start.region true := by
  have region : p.region = start.region := congrArg Setup.region h.setup
  have beam := congrArg Setup.beam (p.tick_setup b)
  rw [h.mask, renders, region] at beam
  exact beam

omit renders in
/-- A dot leaves the setup of the frame alone. -/
theorem tick_setup : (p.tick b).1.setup = { start.setup with beam := (p.tick b).1.beam } := by
  have setup := p.tick_setup b
  rw [h.setup] at setup
  have same : (p.tick b).1.beam = _ := congrArg Setup.beam setup
  rw [setup, same]

/-- A dot that puts out the right colour leaves nothing wrong on the screen. -/
theorem tick_drawn {colour : Nat → Nat → UInt8} (drawn : p.Drawn colour)
    (here : p.beam.line < 240 → 1 ≤ p.beam.dot → p.beam.dot ≤ 256 →
      (p.tick b).1.colourAt (p.beam.dot - 1) = colour (p.beam.dot - 1) p.beam.line) :
    (p.tick b).1.Drawn colour := by
  intro below x y hx hy behind
  rw [h.tick_beam renders] at below behind
  obtain ⟨visible, passed⟩ := (h.beam.passed_next below (by omega)).mp behind
  rw [tick_pixel p b (h.rendering renders) hx hy]
  by_cases own : y = p.beam.line ∧ x + 1 = p.beam.dot
  · obtain ⟨line, dot⟩ := own
    have column : x = p.beam.dot - 1 := by omega
    rw [if_pos ⟨line, dot⟩, column, line]
    exact here visible (by omega) (by omega)
  · rw [if_neg own]
    exact drawn (Nat.le_of_lt visible) x y hx hy (passed.resolve_right own)

variable [LawfulPictureBus β]

theorem tick_background : (p.tick b).1.background =
    { start.setup with beam := p.beam }.nextBackground board p.cursor p.background := by
  rw [Picture.tick_background p b (h.rendering renders), h.setup,
    Setup.nextBackground_congr _ _ h.view]

/-- A dot brings the frame on. -/
theorem next {clock : β → β} (keeps : ∀ b, SameView (clock b) b) (cycleEnds : Bool) :
    Undisturbed start board left (dot clock cycleEnds (p, b)) := by
  have beam := h.tick_beam renders
  have view := (SameView.tick p b).trans h.view
  refine ⟨h.tick_setup, ?_, ?_, ?_⟩
  · unfold dot
    dsimp only
    split
    · exact (keeps _).trans view
    · exact view
  · show (p.tick b).1.beam.RestIn start.region left
    rw [beam]
    exact h.beam.next
  · show start.setup.OnTrack board (p.tick b).1.beam (p.tick b).1.cursor (p.tick b).1.background
    have cursor := p.tick_cursor b (h.rendering renders)
    rw [h.setup] at cursor
    rw [beam, cursor, h.tick_background renders]
    exact h.track.next h.beam.rendered

end Undisturbed

end Frame

end Famiclone.Picture
