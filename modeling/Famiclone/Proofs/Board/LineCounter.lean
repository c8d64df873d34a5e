import Famiclone.Proofs.Picture.Levels
import Famiclone.Proofs.Picture.Run

/-!
# Does the scanline counter count scanlines?

With small sprites and different tables for background and sprites the address line is meant to rise
once in a line. It does so when the sprites use the second table. When the background uses it, the
line is low for nine dots around the end of each line, which is just as many cycles as the filter asks
for, and then a line counts twice. The filter has so few states that a line is evaluated from all of
them; the rest is the way of a frame through its lines.
-/
namespace Famiclone

namespace RiseFilter

open Picture

/-! ## Lines of the filter -/

/-- A dot of a line that is rendered, behind which a cycle may end; the second component counts. -/
def dot (background sprites : Bool) (phase k : Nat) (s : RiseFilter × Nat) : RiseFilter × Nat :=
  let heard := levels background sprites k
  let w := heard.foldl hear s.1
  (if (k + phase) % 3 = 2 then w.clock else w, s.2 + s.1.tally heard)

def line (background sprites : Bool) (phase : Nat) : Nat → RiseFilter × Nat → RiseFilter × Nat
  | 0, s => s
  | k + 1, s => dot background sprites phase k (line background sprites phase k s)

theorem line_succ (background sprites : Bool) (phase k : Nat) (s : RiseFilter × Nat) :
    line background sprites phase (k + 1) s =
      dot background sprites phase k (line background sprites phase k s) := rfl

/-- Only the remainder of the phase matters. -/
theorem line_mod (background sprites : Bool) (phase k : Nat) (s : RiseFilter × Nat) :
    line background sprites phase k s = line background sprites (phase % 3) k s := by
  have turn (j : Nat) : (j + phase) % 3 = (j + phase % 3) % 3 := by omega
  induction k with
  | zero => rfl
  | succ k ih =>
    rw [line_succ, line_succ, ih]
    unfold dot
    rw [turn]

/-- With sprites in the second table one rise counts in a line, whatever went before. -/
theorem one_rise : ∀ (phase : Fin 3) (level : Bool) (low : Fin 4),
    (line false true phase.val 340 (⟨level, low⟩, 0)).2 = 1 ∧
      (line false true phase.val 341 (⟨level, low⟩, 0)).2 = 1 := by
  decide +kernel

/-- With the background there two rises count in each line behind a line that is rendered. -/
theorem two_rises : ∀ (phase : Fin 3) (level : Bool) (low : Fin 4),
    (line true false (phase.val + 341) 341
      ((line true false phase.val 341 (⟨level, low⟩, 0)).1, 0)).2 = 2 := by
  decide +kernel

end RiseFilter

namespace Board

/-- How often a row of addresses clocks the scanline counter of a board. -/
def tally : Board → List UInt16 → Nat
  | mmc3 b, heard => b.tally heard
  | _, _ => 0

theorem foldl_observe_mmc3 (chip : Mmc3) (heard : List UInt16) :
    heard.foldl PictureBus.observe (Board.mmc3 chip) = .mmc3 (heard.foldl Mmc3.observe chip) := by
  induction heard generalizing chip with
  | nil => rfl
  | cons address rest ih => exact ih (chip.observe address)

end Board

namespace Picture

/-! ## A frame -/

/-- How often the next dot clocks the counter. -/
def rises (s : Picture × Board) : Nat := s.2.tally (s.1.heard s.2)

/-- The state some dots behind the start of a frame. A cycle ends behind every third dot. -/
def frameState (p : Picture) (chip : Mmc3) (phase n : Nat) : Picture × Board :=
  run Board.clock (fun n => (n + phase) % 3 == 2) n (p, .mmc3 chip)

/-- The dots of a line in a frame that is rendered. -/
def dotsOfLine (p : Picture) (line : Nat) : Nat :=
  if line = p.region.preRenderLine then 341 - p.beam.leftOut p.region else 341

/-- How often the counter is clocked in the period of a line of a frame. -/
def risesInLine (p : Picture) (chip : Mmc3) (phase line : Nat) : Nat :=
  ∑ k ∈ Finset.range (p.dotsOfLine line), rises (p.frameState chip phase (341 * line + k))

/-- What is needed of the unit at the start of a frame. -/
structure CountableFrame (p : Picture) : Prop where
  ntsc : p.region = .ntsc
  line : p.beam.line = 0
  dot : p.beam.dot = 0
  renders : p.mask.renders = true
  small : p.control.tallSprites = false
  apart : p.control.backgroundTable ≠ p.control.spriteTable

/-- The place of a frame behind `n` dots. -/
structure FramePlace (p : Picture) (n : Nat) (s : Picture × Board) : Prop where
  setup : s.1.setup = { p.setup with beam := s.1.beam }
  line : s.1.beam.line = n / 341
  dot : s.1.beam.dot = n % 341
  odd : s.1.beam.odd = p.beam.odd
  board : ∃ chip, s.2 = .mmc3 chip

namespace FramePlace

variable {p : Picture} {n : Nat} {s : Picture × Board}

theorem tick_beam (start : p.CountableFrame) (h : FramePlace p n s) :
    (s.1.tick s.2).1.beam = s.1.beam.advance .ntsc true := by
  have region : s.1.region = .ntsc := (congrArg Setup.region h.setup).trans start.ntsc
  have mask : s.1.mask = p.mask := congrArg Setup.mask h.setup
  have beam := congrArg Setup.beam (s.1.tick_setup s.2)
  rw [region, mask, start.renders] at beam
  exact beam

/-- The beam comes to the next dot of the line, or to the start of the next line. -/
theorem advance_beam (start : p.CountableFrame) (h : FramePlace p n s)
    (within : n + 1 < 341 * 262 - p.beam.leftOut p.region) :
    (s.1.beam.advance .ntsc true).line = (n + 1) / 341 ∧
      (s.1.beam.advance .ntsc true).dot = (n + 1) % 341 ∧
      (s.1.beam.advance .ntsc true).odd = p.beam.odd := by
  have flag : p.beam.leftOut p.region < 2 := Bool.toNat_lt _
  have leftOut : s.1.beam.leftOut .ntsc = p.beam.leftOut p.region := by
    unfold Beam.leftOut
    rw [h.odd, start.ntsc]
  have pre : Region.ntsc.preRenderLine = 261 := rfl
  have last := s.1.beam.lastDot_iff .ntsc
  rw [leftOut, pre, h.line, h.dot] at last
  cases ends : s.1.beam.lastDot .ntsc true with
  | true =>
    have last := last.mp ends
    have above : s.1.beam.line < Region.ntsc.preRenderLine := by
      rw [h.line, pre]
      omega
    rw [Beam.advance_of_last _ _ ends, Beam.nextLine_line, Beam.nextLine_dot,
      Beam.nextLine_odd { s.1.beam with elapsed := s.1.beam.elapsed + 1 } _ above]
    dsimp only
    rw [if_pos above, h.line]
    exact ⟨by omega, by omega, h.odd⟩
  | false =>
    have last := last.not.mp (by rw [ends]; exact Bool.false_ne_true)
    rw [Beam.advance_of_not_last _ _ ends]
    dsimp only
    rw [h.line, h.dot]
    exact ⟨by omega, by omega, h.odd⟩

/-- A dot of a frame leads to the next place, as long as the frame lasts. -/
theorem next (start : p.CountableFrame) (h : FramePlace p n s)
    (within : n + 1 < 341 * 262 - p.beam.leftOut p.region) (cycleEnds : Bool) :
    FramePlace p (n + 1) (Picture.dot Board.clock cycleEnds s) := by
  have beam := h.tick_beam start
  have place := h.advance_beam start within
  obtain ⟨chip, board⟩ := h.board
  refine ⟨?_, ?_, ?_, ?_, ?_⟩
  · show (s.1.tick s.2).1.setup = { p.setup with beam := (s.1.tick s.2).1.beam }
    have setup := s.1.tick_setup s.2
    rw [h.setup] at setup
    have same : (s.1.tick s.2).1.beam = _ := congrArg Setup.beam setup
    rw [setup, same]
  · show (s.1.tick s.2).1.beam.line = _
    rw [beam, place.1]
  · show (s.1.tick s.2).1.beam.dot = _
    rw [beam, place.2.1]
  · show (s.1.tick s.2).1.beam.odd = _
    rw [beam, place.2.2]
  · have behind := s.1.tick_snd s.2
    rw [board, Board.foldl_observe_mmc3] at behind
    unfold Picture.dot
    dsimp only
    rw [board, behind]
    split
    · exact ⟨_, rfl⟩
    · exact ⟨_, rfl⟩

end FramePlace

/-- Every place of a frame. -/
theorem framePlace {p : Picture} (start : p.CountableFrame) (chip : Mmc3) (phase : Nat) {n : Nat}
    (within : n < 341 * 262 - p.beam.leftOut p.region) :
    FramePlace p n (p.frameState chip phase n) := by
  induction n with
  | zero => exact ⟨rfl, start.line, start.dot, rfl, chip, rfl⟩
  | succ n ih => exact (ih (by omega)).next start within _

/-! ## The lines of a frame -/

section Lines

variable {p : Picture} {n : Nat} {s : Picture × Board}

theorem FramePlace.rendering (start : p.CountableFrame) (h : FramePlace p n s) :
    s.1.rendering = true ↔ n / 341 < 240 ∨ n / 341 = 261 := by
  have pre : p.region.preRenderLine = 261 := by
    rw [start.ntsc]
    rfl
  have place : s.1.rendering =
      (p.mask.renders &&
        (decide (s.1.beam.line < 240) || s.1.beam.line == p.region.preRenderLine)) := by
    rw [← setup_rendering, h.setup]
    rfl
  rw [place, start.renders, h.line, pre, Bool.true_and, Bool.or_eq_true, decide_eq_true_eq,
    beq_iff_eq]

/-- On a line that is rendered, a dot does to the board what it does to its filter. -/
theorem FramePlace.dot_filter (start : p.CountableFrame) (h : FramePlace p n s)
    (rendered : n / 341 < 240 ∨ n / 341 = 261) {chip : Mmc3} (board : s.2 = .mmc3 chip) :
    let heard := levels p.control.backgroundTable p.control.spriteTable (n % 341)
    rises s = chip.filter.tally heard ∧
      ∀ cycleEnds, ∃ c, (Picture.dot Board.clock cycleEnds s).2 = .mmc3 c ∧
        c.filter = if cycleEnds then (heard.foldl RiseFilter.hear chip.filter).clock
          else heard.foldl RiseFilter.hear chip.filter := by
  have rendering := (h.rendering start).mpr rendered
  have control : s.1.control = p.control := congrArg Setup.control h.setup
  have heard := s.1.heard_levels s.2 rendering (by rw [control]; exact start.small)
  rw [control, h.dot] at heard
  refine ⟨?_, ?_⟩
  · unfold rises
    rw [board] at heard ⊢
    rw [← heard]
    exact chip.tally_eq _
  · intro cycleEnds
    have behind := s.1.tick_snd s.2
    have filter := chip.foldl_observe_filter (s.1.heard s.2)
    rw [heard] at filter
    rw [board, Board.foldl_observe_mmc3, ← board] at behind
    unfold Picture.dot
    dsimp only
    rw [behind, ← filter]
    cases cycleEnds
    · exact ⟨_, rfl, rfl⟩
    · exact ⟨_, rfl, Mmc3.clock_filter _⟩

/-- On the other lines nothing is heard. -/
theorem FramePlace.rises_eq_zero (start : p.CountableFrame) (h : FramePlace p n s)
    (rest : ¬ (n / 341 < 240 ∨ n / 341 = 261)) : rises s = 0 := by
  have rendering := (h.rendering start).not.mpr rest
  unfold rises
  rw [s.1.heard_of_not_rendering s.2 (Bool.eq_false_iff.mpr rendering)]
  obtain ⟨chip, board⟩ := h.board
  rw [board]
  rfl

theorem dotsOfLine_le (p : Picture) (line : Nat) : p.dotsOfLine line ≤ 341 := by
  unfold dotsOfLine
  split <;> omega

theorem dotsOfLine_within (start : p.CountableFrame) {line k : Nat} (hl : line < 262)
    (hk : k < p.dotsOfLine line) : 341 * line + k < 341 * 262 - p.beam.leftOut p.region := by
  have flag : p.beam.leftOut p.region < 2 := Bool.toNat_lt _
  have pre : p.region.preRenderLine = 261 := by
    rw [start.ntsc]
    rfl
  unfold dotsOfLine at hk
  rw [pre] at hk
  split at hk <;> omega

/-- A line that is rendered, dot by dot: what its filter does is what the filter alone does. -/
theorem line_run (start : p.CountableFrame) (chip : Mmc3) (phase : Nat) {line : Nat} (hl : line < 262)
    (rendered : line < 240 ∨ line = 261) {first : Mmc3}
    (board : (p.frameState chip phase (341 * line)).2 = .mmc3 first) {k : Nat}
    (hk : k ≤ p.dotsOfLine line) :
    let behind := RiseFilter.line p.control.backgroundTable p.control.spriteTable
      (341 * line + phase) k (first.filter, 0)
    (∃ c, (p.frameState chip phase (341 * line + k)).2 = .mmc3 c ∧ c.filter = behind.1) ∧
      ∑ j ∈ Finset.range k, rises (p.frameState chip phase (341 * line + j)) = behind.2 := by
  induction k with
  | zero => exact ⟨⟨first, board, rfl⟩, rfl⟩
  | succ k ih =>
    obtain ⟨⟨c, now, filter⟩, sum⟩ := ih (by omega)
    have width := p.dotsOfLine_le line
    have place := framePlace start chip phase (dotsOfLine_within start hl hk)
    have here : (341 * line + k) / 341 = line := by omega
    have dot : (341 * line + k) % 341 = k := by omega
    obtain ⟨count, next⟩ := place.dot_filter start (by rw [here]; exact rendered) now
    rw [dot] at count next
    obtain ⟨c', behind, filter'⟩ := next ((341 * line + k + phase) % 3 == 2)
    have turn : 341 * line + k + phase = k + (341 * line + phase) := by omega
    refine ⟨⟨c', behind, ?_⟩, ?_⟩
    · rw [filter', filter, turn, RiseFilter.line_succ]
      unfold RiseFilter.dot
      simp only [beq_iff_eq]
    · rw [Finset.sum_range_succ, sum, count, filter, RiseFilter.line_succ]
      rfl

/-- Lines that are not rendered do not count. -/
theorem risesInLine_of_rest (start : p.CountableFrame) (chip : Mmc3) (phase : Nat) {line : Nat}
    (hl : line < 262) (rest : ¬ (line < 240 ∨ line = 261)) :
    p.risesInLine chip phase line = 0 := by
  refine Finset.sum_eq_zero fun k mem => ?_
  have hk := Finset.mem_range.mp mem
  have width := p.dotsOfLine_le line
  have here : (341 * line + k) / 341 = line := by omega
  exact (framePlace start chip phase (dotsOfLine_within start hl hk)).rises_eq_zero start
    (by rw [here]; exact rest)

/-- The first dot of a line. -/
theorem chip_at_line (start : p.CountableFrame) (chip : Mmc3) (phase line : Nat)
    (hl : line < 262) : ∃ first, (p.frameState chip phase (341 * line)).2 = .mmc3 first := by
  have flag : p.beam.leftOut p.region < 2 := Bool.toNat_lt _
  exact (framePlace start chip phase (by omega)).board

theorem dotsOfLine_eq (p : Picture) (line : Nat) :
    p.dotsOfLine line = 340 ∨ p.dotsOfLine line = 341 := by
  have flag : p.beam.leftOut p.region < 2 := Bool.toNat_lt _
  unfold dotsOfLine
  split <;> omega

theorem risesInLine_eq_one (start : p.CountableFrame) (chip : Mmc3) (phase : Nat) {line : Nat}
    (hl : line < 262) (rendered : line < 240 ∨ line = 261)
    (table : p.control.backgroundTable = false) : p.risesInLine chip phase line = 1 := by
  have sprites : p.control.spriteTable = true := by
    have apart := start.apart
    rw [table] at apart
    exact Bool.eq_true_of_not_eq_false fun eq => apart eq.symm
  obtain ⟨first, board⟩ := chip_at_line start chip phase line hl
  have count := (line_run start chip phase hl rendered board (Nat.le_refl _)).2
  have one := RiseFilter.one_rise ⟨(341 * line + phase) % 3, Nat.mod_lt _ (by decide)⟩
    first.filter.level first.filter.low
  rw [table, sprites, RiseFilter.line_mod] at count
  unfold risesInLine
  rw [count]
  obtain short | long := p.dotsOfLine_eq line
  · rw [short]
    exact one.1
  · rw [long]
    exact one.2

/-- Where the background uses the second table, each visible line behind the first counts twice. -/
theorem risesInLine_eq_two (start : p.CountableFrame) (chip : Mmc3) (phase line : Nat)
    (hl : line + 1 < 240) (table : p.control.backgroundTable = true) :
    p.risesInLine chip phase (line + 1) = 2 := by
  have sprites : p.control.spriteTable = false := by
    have apart := start.apart
    rw [table] at apart
    exact Bool.eq_false_of_not_eq_true fun eq => apart eq.symm
  have whole (l : Nat) (h : l < 240) : p.dotsOfLine l = 341 := by
    have pre : p.region.preRenderLine = 261 := by
      rw [start.ntsc]
      rfl
    unfold dotsOfLine
    rw [if_neg (by omega)]
  obtain ⟨first, board⟩ := chip_at_line start chip phase line (by omega)
  have before := line_run start chip phase (by omega) (.inl (by omega)) board
    (Nat.le_of_eq (whole line (by omega)).symm)
  obtain ⟨⟨second, board', filter⟩, -⟩ := before
  rw [table, sprites, RiseFilter.line_mod] at filter
  have next : 341 * (line + 1) = 341 * line + 341 := by omega
  rw [← next] at board'
  have count := (line_run start chip phase (by omega) (.inl hl) board' (Nat.le_refl _)).2
  have two := RiseFilter.two_rises ⟨(341 * line + phase) % 3, Nat.mod_lt _ (by decide)⟩
    first.filter.level first.filter.low
  have turn : (341 * (line + 1) + phase) % 3 = ((341 * line + phase) % 3 + 341) % 3 := by omega
  rw [table, sprites, RiseFilter.line_mod, turn, ← RiseFilter.line_mod, filter, whole _ hl] at count
  unfold risesInLine
  rw [whole _ hl, count]
  exact two

end Lines

/-- In a frame with small sprites and different tables, the scanline counter is clocked exactly once
in each line that is rendered and in no other if and only if the background uses the first table. This
holds for all contents of the memories, all scroll positions, all states of the board and all
alignments of the cycles. -/
theorem counts_lines_iff (p : Picture) (start : p.CountableFrame) (chip : Mmc3) (phase : Nat) :
    (∀ line < 262, ∀ k < p.dotsOfLine line,
      (p.frameState chip phase (341 * line + k)).1.beam.line = line ∧
        (p.frameState chip phase (341 * line + k)).1.beam.dot = k) ∧
    ((∀ line < 262, p.risesInLine chip phase line = if line < 240 ∨ line = 261 then 1 else 0) ↔
      p.control.backgroundTable = false) := by
  refine ⟨?_, ?_, ?_⟩
  · intro line hl k hk
    have width := p.dotsOfLine_le line
    have place := framePlace start chip phase (dotsOfLine_within start hl hk)
    rw [place.line, place.dot]
    exact ⟨by omega, by omega⟩
  · intro exact
    by_contra table
    have one := exact 1 (by decide)
    have two := risesInLine_eq_two start chip phase 0 (by decide)
      (Bool.eq_true_of_not_eq_false table)
    rw [two] at one
    contradiction
  · intro table line hl
    split
    · exact risesInLine_eq_one start chip phase hl ‹_› table
    · exact risesInLine_of_rest start chip phase hl ‹_›

/-- A frame with the background in the second table, which counts its lines wrongly. -/
theorem background_in_second_table_miscounts :
    let p : Picture := { initial .ntsc with control := ⟨0x10⟩, mask := ⟨0x18⟩ }
    let chip : Mmc3 := .mount (.mount ⟨2, 1, 0x40, 0, 0, 0, 0, 0, 0⟩ #[] #[]) .vertical
    ¬ ∀ line < 262, p.risesInLine chip 0 line = if line < 240 ∨ line = 261 then 1 else 0 := by
  intro p chip exact
  have start : p.CountableFrame := ⟨rfl, rfl, rfl, by decide, by decide, by decide⟩
  have table := (counts_lines_iff p start chip 0).2.mp exact
  exact absurd table (by decide)

end Picture

end Famiclone
