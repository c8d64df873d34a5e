import Famiclone.Proofs.Picture.Run
import Famiclone.Proofs.Picture.TileMap

/-!
# The background along a frame

Where the cursor stands and what the registers hold is known at each place of the beam, from the end
of the pre-render line to the end of the last visible one. It depends on the upper left corner only:
whatever the cursor, the registers and the latches were before the pre-render line is gone behind it.
-/
namespace Famiclone.Picture.Setup

variable {β : Type} [PictureBus β] {s : Setup} {start : β}

/-! ## What a dot does to cursor and background -/

section Dots

variable (s) (start)

theorem fetchesBackground_iff (dot : Nat) :
    fetchesBackground dot = true ↔ 2 ≤ dot ∧ dot ≤ 257 ∨ 321 ≤ dot ∧ dot ≤ 337 := by
  unfold fetchesBackground
  simp only [Bool.or_eq_true, Bool.and_eq_true, decide_eq_true_eq]

theorem nextCursor_of_fetch (c : Scroll) (fetches : fetchesBackground s.beam.dot = true)
    (inside : s.beam.dot < 256 ∨ 321 ≤ s.beam.dot) :
    s.nextCursor c = if (s.beam.dot - 1) % 8 = 7 then c.nextTile else c := by
  have range := (fetchesBackground_iff _).mp fetches
  have ne : ¬ s.beam.dot = 256 := by omega
  have ne' : ¬ s.beam.dot = 257 := by omega
  have apart : ¬ (280 ≤ s.beam.dot ∧ s.beam.dot ≤ 304 ∧ s.beam.visible = false) := by omega
  unfold nextCursor
  simp only [fetches, true_and]
  rw [if_neg ne, if_neg ne', if_neg apart]

theorem nextBackground_of_fetch (c : Scroll) (g : Background)
    (fetches : fetchesBackground s.beam.dot = true) (inside : s.beam.dot ≠ 257) :
    s.nextBackground start c g = s.fetched ((s.beam.dot - 1) % 8) start c g.shift := by
  have range := (fetchesBackground_iff _).mp fetches
  have idle : ¬ (s.beam.dot = 338 ∨ s.beam.dot = 340) := by omega
  unfold nextBackground
  dsimp only
  rw [if_pos fetches, if_neg inside, if_neg idle]

/-- The last step of a line's fetches also goes to the next line. -/
theorem nextCursor_of_end (c : Scroll) (last : s.beam.dot = 256) :
    s.nextCursor c = c.nextTile.nextLine := by
  have fetches : fetchesBackground s.beam.dot = true ∧ (s.beam.dot - 1) % 8 = 7 := by
    rw [last]
    decide
  have apart : ¬ (280 ≤ s.beam.dot ∧ s.beam.dot ≤ 304 ∧ s.beam.visible = false) := by omega
  unfold nextCursor
  dsimp only
  rw [if_pos fetches, if_pos last, if_neg apart]

/-- Behind it the cursor turns to the column of the corner. -/
theorem nextCursor_of_turn (c : Scroll) (turn : s.beam.dot = 257) :
    s.nextCursor c = c.toColumnOf s.origin := by
  have ne : ¬ s.beam.dot = 256 := by omega
  have step : ¬ (fetchesBackground s.beam.dot = true ∧ (s.beam.dot - 1) % 8 = 7) := by
    rintro ⟨_, step⟩
    omega
  have apart : ¬ (280 ≤ s.beam.dot ∧ s.beam.dot ≤ 304 ∧ s.beam.visible = false) := by omega
  unfold nextCursor
  dsimp only
  rw [if_neg step, if_neg ne, if_pos turn, if_neg apart]

/-- Where nothing is fetched the cursor can only turn to the first line. -/
theorem nextCursor_of_rest (c : Scroll) (rest : fetchesBackground s.beam.dot = false) :
    s.nextCursor c =
      if 280 ≤ s.beam.dot ∧ s.beam.dot ≤ 304 ∧ s.beam.visible = false then c.toLineOf s.origin
      else c := by
  have range := (fetchesBackground_iff s.beam.dot).not.mp (by rw [rest]; exact Bool.false_ne_true)
  have ne : ¬ s.beam.dot = 256 := by omega
  have ne' : ¬ s.beam.dot = 257 := by omega
  unfold nextCursor
  simp only [rest, Bool.false_eq_true, if_false, false_and, ne, ne']

theorem nextBackground_of_rest (c : Scroll) (g : Background)
    (rest : fetchesBackground s.beam.dot = false) :
    s.nextBackground start c g =
      if s.beam.dot = 338 ∨ s.beam.dot = 340 then { g with tile := s.tileAt start c } else g := by
  have range := (fetchesBackground_iff s.beam.dot).not.mp (by rw [rest]; exact Bool.false_ne_true)
  have ne : ¬ s.beam.dot = 257 := by omega
  unfold nextBackground
  simp only [rest, Bool.false_eq_true, if_false, ne]
  rfl

/-- Two buses that show the same feed the same background. -/
theorem nextBackground_congr {board : β} (view : SameView board start) (c : Scroll)
    (g : Background) : s.nextBackground board c g = s.nextBackground start c g := by
  have same (step : Nat) (b : Background) :
      s.fetched step board c b = s.fetched step start c b := by
    unfold fetched
    simp only [view.peek]
  unfold nextBackground
  simp only [same, view.peek]

end Dots

/-! ## Fetches in a row -/

variable {row c : Scroll} {g : Background} {t step : Nat}

/-- Whatever the registers hold, the first step begins a row. -/
theorem Fetching.first (s : Setup) (start : β) (row : Scroll) (g : Background) :
    s.Fetching start row 0 0 row (s.fetched 0 start row g) := by
  refine ⟨rfl, rfl, ?_, ?_, ?_, ?_⟩ <;>
  · intro due
    contradiction

/-- A dot of a fetch makes the next step, which may be the first one of the next tile. -/
theorem Fetching.dot (h : s.Fetching start row t step c g) (hs : step < 8) (beam : Beam)
    (fetches : fetchesBackground beam.dot = true) (turn : (beam.dot - 1) % 8 = (step + 1) % 8)
    (inside : beam.dot < 256 ∨ 321 ≤ beam.dot) :
    s.Fetching start row (t + (step + 1) / 8) ((step + 1) % 8)
      ({ s with beam }.nextCursor c) ({ s with beam }.nextBackground start c g) := by
  rw [nextCursor_of_fetch _ c fetches inside,
    nextBackground_of_fetch _ start c g fetches (by dsimp only; omega)]
  dsimp only
  rw [turn]
  show s.Fetching start row (t + (step + 1) / 8) ((step + 1) % 8)
    (if (step + 1) % 8 = 7 then c.nextTile else c) (s.fetched ((step + 1) % 8) start c g.shift)
  by_cases last : step = 7
  · subst last
    exact h.wrap
  · have whole : (step + 1) / 8 = 0 := by omega
    have part : (step + 1) % 8 = step + 1 := by omega
    rw [whole, part]
    exact h.next (by omega)

/-- To fetch the number of the next tile once more changes nothing. -/
theorem Fetching.idle (h : s.Fetching start row t 0 c g) :
    s.Fetching start row t 0 c { g with tile := s.tileAt start c } := by
  have here : c = row.tilesOn t := h.cursor
  refine ⟨h.cursor, ?_, h.palette, h.low, h.high, ?_⟩
  · rw [← here]
  · intro second
    obtain ⟨older, oldest, holds⟩ := h.before second
    exact ⟨older, oldest, holds.low, holds.high, holds.paletteLow, holds.paletteHigh⟩

/-! ## Every place of the beam -/

/-- The row that is fetched at the end of a line. The pre-render line leads to the first row. -/
def rowBehind (s : Setup) (line : Nat) : Scroll :=
  if line < 240 then s.origin.linesOn (line + 1) else s.origin

/-- What is known of cursor and background at each place of the beam between the start of the
pre-render line and the end of the last visible line. -/
structure OnTrack (s : Setup) (start : β) (beam : Beam) (c : Scroll) (g : Background) : Prop where
  /-- While a line is drawn, two tiles are in the registers and the third is on its way. -/
  drawing : beam.line < 240 → beam.dot ≤ 256 →
    s.Fetching start (s.origin.linesOn beam.line) (2 + (beam.dot - 2) / 8) ((beam.dot - 2) % 8) c g
  turning : beam.line < 240 → beam.dot = 257 → c.toColumnOf s.origin = s.rowBehind beam.line
  /-- Before the first visible line the columns are set right before the lines. -/
  rising : ¬ beam.line < 240 → 258 ≤ beam.dot → beam.dot ≤ 304 → c.toLineOf s.origin = s.origin
  waiting : (¬ beam.line < 240 → 305 ≤ beam.dot) → 258 ≤ beam.dot → beam.dot ≤ 321 →
    c = s.rowBehind beam.line
  /-- The first two tiles of the next row, and the number of the third. -/
  coming : 322 ≤ beam.dot →
    s.Fetching start (s.rowBehind beam.line) ((min beam.dot 338 - 322) / 8)
      ((min beam.dot 338 - 322) % 8) c g

namespace OnTrack

variable {beam : Beam}

theorem rowBehind_eq (line : Nat) (region : Region)
    (place : line < 240 ∨ line = region.preRenderLine) :
    s.rowBehind line =
      s.origin.linesOn (if line < region.preRenderLine then line + 1 else 0) := by
  have rest : 240 < region.preRenderLine := Beam.screenHeight_lt _
  unfold rowBehind
  obtain visible | last := place
  · rw [if_pos visible, if_pos (by omega)]
  · rw [if_neg (by omega), if_neg (by omega)]
    rfl

theorem visible_eq (beam : Beam) : beam.visible = decide (beam.line < 240) := rfl

/-! The dots within a line, by what comes behind them. -/

section Within

variable (h : s.OnTrack start beam c g)
include h

theorem drawing_next (visible : beam.line < 240) (left : beam.dot + 1 ≤ 256) :
    s.Fetching start (s.origin.linesOn beam.line) (2 + (beam.dot + 1 - 2) / 8)
      ((beam.dot + 1 - 2) % 8) ({ s with beam }.nextCursor c)
      ({ s with beam }.nextBackground start c g) := by
  have now := h.drawing visible (by omega)
  by_cases early : beam.dot < 2
  · have rest : fetchesBackground beam.dot = false := by
      rw [← Bool.not_eq_true, fetchesBackground_iff]
      omega
    have same : beam.dot + 1 - 2 = beam.dot - 2 := by omega
    rw [nextCursor_of_rest { s with beam } c rest, nextBackground_of_rest _ start c g rest, same]
    dsimp only
    rw [if_neg (by omega), if_neg (by omega)]
    exact now
  · have fetches : fetchesBackground beam.dot = true := by
      rw [fetchesBackground_iff]
      omega
    have moved := now.dot (Nat.mod_lt _ (by decide)) beam fetches (by omega) (.inl (by omega))
    have tile : 2 + (beam.dot - 2) / 8 + ((beam.dot - 2) % 8 + 1) / 8 =
        2 + (beam.dot + 1 - 2) / 8 := by omega
    have step : ((beam.dot - 2) % 8 + 1) % 8 = (beam.dot + 1 - 2) % 8 := by omega
    rw [tile, step] at moved
    exact moved

theorem turning_next (visible : beam.line < 240) (last : beam.dot + 1 = 257) :
    ({ s with beam }.nextCursor c).toColumnOf s.origin = s.rowBehind beam.line := by
  have dot : beam.dot = 256 := by omega
  have now := (h.drawing visible (by omega)).cursor
  rw [nextCursor_of_end { s with beam } c dot, Scroll.nextLine_toColumnOf,
    Scroll.nextTile_toColumnOf, now, Scroll.tilesOn_toColumnOf, Scroll.linesOn_toColumnOf,
    ← Scroll.linesOn_succ]
  unfold rowBehind
  rw [if_pos visible]

theorem rising_next (hidden : ¬ beam.line < 240) (low : 258 ≤ beam.dot + 1)
    (high : beam.dot + 1 ≤ 304) :
    ({ s with beam }.nextCursor c).toLineOf s.origin = s.origin := by
  by_cases turn : beam.dot = 257
  · rw [nextCursor_of_turn { s with beam } c turn]
    rfl
  · have rest : fetchesBackground beam.dot = false := by
      rw [← Bool.not_eq_true, fetchesBackground_iff]
      omega
    have now := h.rising hidden (by omega) (by omega)
    rw [nextCursor_of_rest { s with beam } c rest]
    split
    · exact now
    · exact now

theorem waiting_next (late : ¬ beam.line < 240 → 305 ≤ beam.dot + 1) (low : 258 ≤ beam.dot + 1)
    (high : beam.dot + 1 ≤ 321) :
    { s with beam }.nextCursor c = s.rowBehind beam.line := by
  by_cases turn : beam.dot = 257
  · have visible : beam.line < 240 := by
      by_contra hidden
      have := late hidden
      omega
    rw [nextCursor_of_turn { s with beam } c turn]
    exact h.turning visible turn
  · have rest : fetchesBackground beam.dot = false := by
      rw [← Bool.not_eq_true, fetchesBackground_iff]
      omega
    rw [nextCursor_of_rest { s with beam } c rest, visible_eq]
    dsimp only
    by_cases hidden : ¬ beam.line < 240
    · have := late hidden
      by_cases risen : beam.dot = 304
      · have behind : s.rowBehind beam.line = s.origin := if_neg hidden
        rw [if_pos (by simp only [risen, hidden]; decide), behind]
        exact h.rising hidden (by omega) (by omega)
      · rw [if_neg (by omega)]
        exact h.waiting (by omega) (by omega) (by omega)
    · rw [if_neg (by simp only [not_not.mp hidden]; simp)]
      exact h.waiting (fun n => absurd n hidden) (by omega) (by omega)

theorem coming_next (low : 322 ≤ beam.dot + 1) :
    s.Fetching start (s.rowBehind beam.line) ((min (beam.dot + 1) 338 - 322) / 8)
      ((min (beam.dot + 1) 338 - 322) % 8) ({ s with beam }.nextCursor c)
      ({ s with beam }.nextBackground start c g) := by
  by_cases first : beam.dot = 321
  · have fetches : fetchesBackground beam.dot = true := by
      rw [first]
      decide
    have here : c = s.rowBehind beam.line := h.waiting (by omega) (by omega) (by omega)
    rw [nextCursor_of_fetch { s with beam } c fetches (.inr (by dsimp only; omega)),
      nextBackground_of_fetch _ start c g fetches (by dsimp only; omega)]
    dsimp only
    rw [first, here]
    exact Fetching.first s start _ _
  have now := h.coming (by omega)
  by_cases busy : beam.dot < 338
  · have fetches : fetchesBackground beam.dot = true := by
      rw [fetchesBackground_iff]
      omega
    have moved := now.dot (Nat.mod_lt _ (by decide)) beam fetches (by omega) (.inr (by omega))
    have tile : (min beam.dot 338 - 322) / 8 + ((min beam.dot 338 - 322) % 8 + 1) / 8 =
        (min (beam.dot + 1) 338 - 322) / 8 := by omega
    have step : ((min beam.dot 338 - 322) % 8 + 1) % 8 = (min (beam.dot + 1) 338 - 322) % 8 := by
      omega
    rw [tile, step] at moved
    exact moved
  · have rest : fetchesBackground beam.dot = false := by
      rw [← Bool.not_eq_true, fetchesBackground_iff]
      omega
    have full : min beam.dot 338 = 338 := by omega
    have full' : min (beam.dot + 1) 338 = 338 := by omega
    rw [nextCursor_of_rest { s with beam } c rest, nextBackground_of_rest _ start c g rest, full']
    rw [full] at now
    dsimp only
    rw [if_neg (by omega)]
    split
    · exact now.idle
    · exact now

end Within

/-- A dot keeps the background on its track, within a line and from one line to the next. -/
theorem next (h : s.OnTrack start beam c g)
    (rendered : beam.line < 240 ∨ beam.line = s.region.preRenderLine) :
    s.OnTrack start (beam.advance s.region true) ({ s with beam }.nextCursor c)
      ({ s with beam }.nextBackground start c g) := by
  cases ends : beam.lastDot s.region true with
  | false =>
    rw [Beam.advance_of_not_last _ _ ends]
    exact {
      drawing := h.drawing_next
      turning := h.turning_next
      rising := h.rising_next
      waiting := h.waiting_next
      coming := h.coming_next }
  | true =>
    have last := (Beam.lastDot_iff _ _).mp ends
    have behind := h.coming_next (by omega)
    have full : min (beam.dot + 1) 338 = 338 := by omega
    rw [full] at behind
    rw [Beam.advance_of_last _ _ ends]
    refine ⟨?_, ?_, ?_, ?_, ?_⟩ <;>
      simp only [Beam.nextLine_dot, Beam.nextLine_line]
    · intro shown _
      rw [rowBehind_eq _ _ rendered] at behind
      exact behind
    · intro _ turn
      contradiction
    · intro _ low
      contradiction
    · intro _ low
      contradiction
    · intro low
      contradiction

end OnTrack

end Famiclone.Picture.Setup
