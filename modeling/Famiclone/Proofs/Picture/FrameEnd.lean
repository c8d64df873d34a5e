import Famiclone.Proofs.Picture.Run

/-!
# The ends of frames

A frame is finished when the beam leaves the line of rest. Between two states of the beam as many frames
are finished as ends of that line are passed, and how far the beam gets in a number of dots is bounded
from both sides, since one line of a frame may leave out a dot.
-/
namespace Famiclone

namespace Beam

/-- The beam is on the screen of the region. -/
structure InRange (b : Beam) (region : Region) : Prop where
  line : b.line < region.scanlines
  dot : b.dot < dotsPerLine

theorem start_inRange (region : Region) : start.InRange region :=
  ⟨by cases region <;> decide, by decide⟩

/-- The lines since power-on. -/
def row (b : Beam) (region : Region) : Nat := b.frame * region.scanlines + b.line

/-- The ends of the line of rest since power-on. -/
def passed (b : Beam) : Nat := b.frame + if screenHeight < b.line then 1 else 0

/-- A beam some dots behind another. Only the end of a line of rest finishes a frame. -/
structure Ahead (region : Region) (dots : Nat) (b c : Beam) : Prop where
  inRange : c.InRange region
  /-- A line has at most as many dots as it can. -/
  atLeast : dotsPerLine * b.row region + b.dot + dots ≤ dotsPerLine * c.row region + c.dot
  /-- A line leaves out at most one dot. -/
  atMost : (dotsPerLine - 1) * c.row region + c.dot ≤ (dotsPerLine - 1) * b.row region + b.dot + dots
  passed_le : b.passed ≤ c.passed
  finished : c.finished = (b.finished || decide (b.passed < c.passed))

theorem Ahead.refl {region : Region} {b : Beam} (h : b.InRange region) : Ahead region 0 b b where
  inRange := h
  atLeast := Nat.le_refl _
  atMost := Nat.le_refl _
  passed_le := Nat.le_refl _
  finished := by simp

theorem Ahead.trans {region : Region} {j k : Nat} {b c d : Beam} (first : Ahead region j b c)
    (second : Ahead region k c d) : Ahead region (j + k) b d where
  inRange := second.inRange
  atLeast := by have := first.atLeast; have := second.atLeast; omega
  atMost := by have := first.atMost; have := second.atMost; omega
  passed_le := Nat.le_trans first.passed_le second.passed_le
  finished := by
    have low := first.passed_le
    have high := second.passed_le
    rw [second.finished, first.finished, Bool.or_assoc, ← Bool.decide_or]
    congr 2
    apply propext
    omega

/-- Between two ends of the line of rest one frame begins if the first has been left behind, and none if
the first is still to come. -/
theorem frame_of_passed {b c : Beam} (passed : c.passed = b.passed + 1)
    (behind : screenHeight < c.line) :
    c.frame = b.frame + if screenHeight < b.line then 1 else 0 := by
  unfold Beam.passed at passed
  rw [if_pos behind] at passed
  omega

/-! ## One dot -/

theorem scanlines_eq (region : Region) : region.scanlines = region.preRenderLine + 1 := by
  cases region <;> rfl

theorem nextLine_row {b : Beam} {region : Region} (h : b.InRange region) :
    (b.nextLine region).row region = b.row region + 1 := by
  have line := h.line
  have rest := screenHeight_lt region
  rw [scanlines_eq] at line
  unfold nextLine row
  split_ifs with rests upper
  · rfl
  · rfl
  · have last : b.line = region.preRenderLine := by omega
    simp only [scanlines_eq, last, Nat.add_mul]
    omega

theorem nextLine_passed (b : Beam) (region : Region) (h : b.InRange region) :
    (b.nextLine region).passed = b.passed + if b.line = screenHeight then 1 else 0 := by
  have line := h.line
  have rest := screenHeight_lt region
  rw [scanlines_eq] at line
  unfold nextLine passed
  split_ifs <;> dsimp only at * <;> omega

theorem nextLine_finished (b : Beam) (region : Region) :
    (b.nextLine region).finished = (b.finished || decide (b.line = screenHeight)) := by
  unfold nextLine
  split_ifs with rests upper <;> simp [rests]

/-- The first dot of the next line follows the last dot of a line, or the last but one. -/
theorem nextLine_ahead {b : Beam} {region : Region} (h : b.InRange region)
    (late : dotsPerLine ≤ b.dot + 2) : Ahead region 1 b (b.nextLine region) where
  inRange := by
    have rest := screenHeight_lt region
    have lines := scanlines_eq region
    refine ⟨?_, ?_⟩
    · rw [nextLine_line]
      split_ifs <;> omega
    · rw [nextLine_dot]
      exact Nat.succ_pos _
  atLeast := by
    have dot := h.dot
    rw [nextLine_row h, nextLine_dot, Nat.mul_add]
    omega
  atMost := by
    rw [nextLine_row h, nextLine_dot, Nat.mul_add]
    omega
  passed_le := by
    rw [nextLine_passed b region h]
    omega
  finished := by
    rw [nextLine_finished, nextLine_passed b region h]
    split_ifs with rests <;> simp [rests]

/-- Counting the dot leaves the beam where it is. -/
theorem Ahead.counted {b : Beam} {region : Region} (h : b.InRange region) (elapsed : Nat) :
    Ahead region 0 b { b with elapsed } where
  inRange := ⟨h.line, h.dot⟩
  atLeast := Nat.le_refl _
  atMost := Nat.le_refl _
  passed_le := Nat.le_refl _
  finished := by simp [passed]

/-- A dot moves the beam on or ends its line. -/
theorem advance_ahead {b : Beam} {region : Region} (h : b.InRange region) (rendering : Bool) :
    Ahead region 1 b (b.advance region rendering) := by
  have counted := Ahead.counted h (b.elapsed + 1)
  cases last : b.lastDot region rendering with
  | true =>
    have late : dotsPerLine ≤ b.dot + 2 := by
      unfold lastDot skips at last
      simp only [Bool.or_eq_true, Bool.and_eq_true, beq_iff_eq, decide_eq_true_eq] at last
      unfold dotsPerLine at last ⊢
      omega
    rw [advance_of_last b region last]
    exact counted.trans (nextLine_ahead counted.inRange late)
  | false =>
    have inside : b.dot + 1 < dotsPerLine := by
      unfold lastDot at last
      simp only [Bool.or_eq_false_iff, decide_eq_false_iff_not] at last
      omega
    rw [advance_of_not_last b region last]
    refine ⟨⟨h.line, inside⟩, ?_, ?_, Nat.le_refl _, by simp [passed]⟩
    · show dotsPerLine * b.row region + b.dot + 1 ≤ dotsPerLine * b.row region + (b.dot + 1)
      omega
    · show (dotsPerLine - 1) * b.row region + (b.dot + 1) ≤
        (dotsPerLine - 1) * b.row region + b.dot + 1
      omega

/-! ## The place among all dots -/

/-- The dots before the beam since power-on, if no line had left one out. -/
def position (b : Beam) (region : Region) : Nat := dotsPerLine * b.row region + b.dot

/-- A dot moves the beam on by one place, and by one more where the next dot is left out. -/
theorem InRange.position_advance {b : Beam} {region : Region} (h : b.InRange region)
    (rendering : Bool) : (b.advance region rendering).position region =
      b.position region + 1 + if b.skips region rendering then 1 else 0 := by
  have dot := h.dot
  cases last : b.lastDot region rendering with
  | true =>
    have counted : Beam.InRange { b with elapsed := b.elapsed + 1 } region := ⟨h.line, h.dot⟩
    have ends : b.dot + 1 + (if b.skips region rendering then 1 else 0) = dotsPerLine := by
      unfold lastDot at last
      rw [Bool.or_eq_true, decide_eq_true_eq] at last
      split_ifs with skips
      · simp only [Beam.skips, Bool.and_eq_true, beq_iff_eq] at skips
        unfold dotsPerLine
        omega
      · have full := last.resolve_left skips
        omega
    rw [b.advance_of_last region last, position, nextLine_row counted, nextLine_dot, Nat.mul_add]
    unfold position
    show dotsPerLine * b.row region + dotsPerLine * 1 + 0 = _
    omega
  | false =>
    have inside : b.skips region rendering = false := (Bool.or_eq_false_iff.mp last).1
    rw [b.advance_of_not_last region last, inside]
    rfl

/-- The place among all dots tells the frame, the line and the dot. -/
theorem InRange.position_eq_iff {b : Beam} {region : Region} (h : b.InRange region)
    (frame : Nat) {line dot : Nat} (lines : line < region.scanlines) (dots : dot < dotsPerLine) :
    b.position region = dotsPerLine * (frame * region.scanlines + line) + dot ↔
      b.frame = frame ∧ b.line = line ∧ b.dot = dot := by
  have line' := h.line
  have dot' := h.dot
  unfold position row
  cases region <;> simp only [Region.scanlines, dotsPerLine] at * <;> omega

/-! ## The way to the end of a frame -/

/-- The next end of a line of rest lies within a frame's lines. -/
theorem InRange.row_bounds {b : Beam} {region : Region} (h : b.InRange region) :
    b.row region ≤ b.passed * region.scanlines + screenHeight ∧
      b.passed * region.scanlines + screenHeight < b.row region + region.scanlines := by
  have line := h.line
  have rest := screenHeight_lt region
  have lines := scanlines_eq region
  unfold row passed
  split_ifs with behind
  · rw [Nat.add_mul]
    omega
  · rw [Nat.add_mul]
    omega

/-- The dots until the line of rest is over, if no line leaves out a dot. -/
def toGo (b : Beam) (region : Region) : Nat :=
  dotsPerLine * (b.passed * region.scanlines + screenHeight + 1) -
    (dotsPerLine * b.row region + b.dot)

/-- Within the dots of a frame the line of rest is over. -/
theorem InRange.toGo_le {b : Beam} {region : Region} (h : b.InRange region) :
    b.toGo region ≤ dotsPerLine * region.scanlines := by
  have upper := Nat.mul_le_mul_left dotsPerLine h.row_bounds.2
  rw [Nat.mul_add dotsPerLine (b.row region)] at upper
  simp only [toGo]
  rw [Nat.succ_eq_add_one] at upper
  omega

theorem InRange.toGo_pos {b : Beam} {region : Region} (h : b.InRange region) :
    0 < b.toGo region := by
  have dot := h.dot
  have upper := Nat.mul_le_mul_left dotsPerLine h.row_bounds.1
  unfold toGo
  rw [Nat.mul_add dotsPerLine _ 1]
  omega

/-- While no frame is finished the way grows shorter by every dot. -/
theorem Ahead.toGo_add_le {region : Region} {k : Nat} {b c : Beam} (h : Ahead region k b c)
    (same : c.passed = b.passed) : c.toGo region + k ≤ b.toGo region := by
  have left := h.inRange.toGo_pos
  have further := h.atLeast
  simp only [toGo, same] at left ⊢
  omega

/-- The rows that a run of a few lines passes. -/
theorem Ahead.row_le {region : Region} {k : Nat} {b c : Beam} (range : b.InRange region)
    (h : Ahead region k b c) (short : k ≤ 6 * (dotsPerLine - 1)) :
    b.row region ≤ c.row region ∧ c.row region ≤ b.row region + 7 := by
  have dot := range.dot
  have dot' := h.inRange.dot
  have least := h.atLeast
  have reach := h.atMost
  unfold dotsPerLine at *
  omega

/-- In a frame's dots for each of them, and as many more, some frames begin. -/
theorem Ahead.frame_add_le {region : Region} {k frames : Nat} {b c : Beam}
    (h : Ahead region k b c) (long : dotsPerLine * ((frames + 1) * region.scanlines) ≤ k) :
    b.frame + frames ≤ c.frame := by
  have least := h.atLeast
  have line := h.inRange.line
  have dot := h.inRange.dot
  have rows : b.row region + (frames + 1) * region.scanlines ≤ c.row region := by
    unfold dotsPerLine at *
    omega
  by_contra early
  have room := Nat.mul_le_mul_right region.scanlines (Nat.succ_le_of_lt (Nat.not_le.mp early))
  unfold row at rows
  simp only [Nat.succ_eq_add_one, Nat.add_mul, Nat.one_mul] at room rows
  omega

/-- A run of a few lines into a later frame ends at its top. -/
theorem Ahead.top_of_frame {region : Region} {k : Nat} {b c : Beam} (range : b.InRange region)
    (h : Ahead region k b c) (short : k ≤ 6 * (dotsPerLine - 1)) (later : b.frame < c.frame) :
    c.line < 7 := by
  have rows := (h.row_le range short).2
  have line := range.line
  have room := Nat.mul_le_mul_right region.scanlines (Nat.succ_le_of_lt later)
  unfold row at rows
  rw [Nat.succ_eq_add_one, Nat.add_mul, Nat.one_mul] at room
  omega

/-- Near the top of a frame a run of a few lines stays in the frame. -/
theorem Ahead.near_top {region : Region} {k : Nat} {b c : Beam} (range : b.InRange region)
    (h : Ahead region k b c) (short : k ≤ 6 * (dotsPerLine - 1)) (top : b.line < 100) :
    c.frame = b.frame ∧ c.line ≤ b.line + 7 := by
  obtain ⟨low, high⟩ := h.row_le range short
  have line := range.line
  have line' := h.inRange.line
  unfold row at low high
  have same : c.frame = b.frame := by
    cases region <;> simp only [Region.scanlines] at * <;> omega
  rw [same] at low high
  exact ⟨same, by omega⟩

/-- A run of a few lines finishes one frame at most, and is not far behind its end. -/
theorem Ahead.line_of_passed {region : Region} {k : Nat} {b c : Beam} (range : b.InRange region)
    (h : Ahead region k b c) (short : k ≤ 6 * (dotsPerLine - 1)) (passed : b.passed < c.passed) :
    c.passed = b.passed + 1 ∧ screenHeight < c.line ∧ c.line < 250 := by
  have low := range.row_bounds.1
  have high := h.inRange.row_bounds.2
  have rows := (h.row_le range short).2
  have one : c.passed = b.passed + 1 := by
    cases region <;> simp only [Region.scanlines, screenHeight] at * <;> omega
  refine ⟨one, ?_⟩
  have place : c.row region = c.frame * region.scanlines + c.line := rfl
  have ends : c.passed = c.frame + if screenHeight < c.line then 1 else 0 := rfl
  by_cases behind : screenHeight < c.line
  · rw [if_pos behind] at ends
    refine ⟨behind, ?_⟩
    cases region <;> simp only [Region.scanlines, screenHeight] at * <;> omega
  · rw [if_neg behind] at ends
    cases region <;> simp only [Region.scanlines, screenHeight] at * <;> omega

end Beam

end Famiclone
