import Famiclone.Proofs.Picture.Run
import Famiclone.Proofs.Picture.SlotPattern

/-!
# The sprites along a frame

The sprites of a line are chosen and fetched on the line before it. Which of the slots are filled is known
at each place of the beam; what they held before the pre-render line is gone behind it.
-/
namespace Famiclone.Picture

variable {β : Type} [PictureBus β] {start : Picture} {board : β} {beam : Beam}
  {chosen : List (Fin 64)} {slots : Vector SpriteSlot 8}

/-- The sprites of the line behind a given one; the pre-render line leads to the first one. -/
def spritesBehind (start : Picture) (line : Nat) : List (Fin 64) :=
  if line < 240 then start.spritesOn (line + 1) else []

/-- What is known of the sprites at each place of the beam between the start of the pre-render line and
the end of the last visible line. -/
structure SpritesOnTrack (start : Picture) (board : β) (beam : Beam) (chosen : List (Fin 64))
    (slots : Vector SpriteSlot 8) : Prop where
  /-- While a line is drawn, its sprites have been fetched on the line before. -/
  drawing : beam.line < 240 → beam.dot ≤ 257 → start.SlotsReady board beam.line chosen slots
  coming : 258 ≤ beam.dot → chosen = start.spritesBehind beam.line
  half : ∀ k : Fin 8, 262 + 8 * k.val ≤ beam.dot → beam.dot ≤ 263 + 8 * k.val →
    (slots.get k).low = start.memory.peek board (start.setup.addressIn beam.line chosen k)
  whole : ∀ k : Fin 8, 264 + 8 * k.val ≤ beam.dot →
    slots.get k = start.setup.slotOf board beam.line chosen k

namespace SpritesOnTrack

variable (h : start.SpritesOnTrack board beam chosen slots)
  {slots' : Vector SpriteSlot 8}
  (moved : ∀ k, slots'.get k = { start.setup with beam }.nextSlot board
    ({ start.setup with beam }.nextChosen chosen) k (slots.get k))
include h

omit h in
theorem nextChosen_of_other (other : beam.dot ≠ 257) :
    { start.setup with beam }.nextChosen chosen = chosen := if_neg other

omit h in
theorem nextChosen_of_end (last : beam.dot = 257) :
    { start.setup with beam }.nextChosen chosen = start.spritesBehind beam.line := by
  unfold Setup.nextChosen spritesBehind
  rw [if_pos last, spritesOn_succ]
  have seen : beam.visible = decide (beam.line < 240) := rfl
  by_cases visible : beam.line < 240
  · rw [if_pos (seen.trans (decide_eq_true visible)), if_pos visible]
    rfl
  · rw [if_neg (by dsimp only; rw [seen, decide_eq_false visible]; exact Bool.false_ne_true),
      if_neg visible]

theorem coming_next (low : 258 ≤ beam.dot + 1) :
    { start.setup with beam }.nextChosen chosen = start.spritesBehind beam.line := by
  by_cases last : beam.dot = 257
  · exact nextChosen_of_end last
  · rw [nextChosen_of_other last]
    exact h.coming (by omega)

include moved

theorem half_next (k : Fin 8) (low : 262 + 8 * k.val ≤ beam.dot + 1)
    (high : beam.dot + 1 ≤ 263 + 8 * k.val) : (slots'.get k).low =
      start.memory.peek board (start.setup.addressIn beam.line
        ({ start.setup with beam }.nextChosen chosen) k) := by
  rw [moved, nextChosen_of_other (by omega)]
  by_cases own : beam.dot = 261 + 8 * k.val
  · exact Setup.nextSlot_low _ board chosen k _ own
  · rw [Setup.nextSlot_of_other _ board chosen k _ own (by dsimp only; omega)]
    exact h.half k (by omega) (by omega)

theorem whole_next (k : Fin 8) (low : 264 + 8 * k.val ≤ beam.dot + 1) : slots'.get k =
    start.setup.slotOf board beam.line ({ start.setup with beam }.nextChosen chosen) k := by
  rw [moved, nextChosen_of_other (by omega)]
  by_cases own : beam.dot = 263 + 8 * k.val
  · exact Setup.nextSlot_of_high _ board chosen k _ own (h.half k (by omega) (by omega))
  · rw [Setup.nextSlot_of_other _ board chosen k _ (by dsimp only; omega) own]
    exact h.whole k (by omega)

theorem drawing_next (visible : beam.line < 240) (high : beam.dot + 1 ≤ 257) :
    start.SlotsReady board beam.line ({ start.setup with beam }.nextChosen chosen) slots' := by
  have ready := h.drawing visible (by omega)
  rw [nextChosen_of_other (by omega)]
  refine ⟨ready.list, fun k used => ?_⟩
  rw [moved, nextChosen_of_other (by omega),
    Setup.nextSlot_of_other _ board chosen k _ (by dsimp only; omega) (by dsimp only; omega)]
  exact ready.filled k used

/-- A dot keeps the sprites on their track, within a line and from one line to the next. -/
theorem next (rendered : beam.line < 240 ∨ beam.line = start.region.preRenderLine) :
    start.SpritesOnTrack board (beam.advance start.region true)
      ({ start.setup with beam }.nextChosen chosen) slots' := by
  cases ends : beam.lastDot start.region true with
  | false =>
    rw [Beam.advance_of_not_last _ _ ends]
    exact {
      drawing := h.drawing_next moved
      coming := h.coming_next
      half := h.half_next moved
      whole := h.whole_next moved }
  | true =>
    have last := (Beam.lastDot_iff _ _).mp ends
    have rest : 240 < start.region.preRenderLine := Beam.screenHeight_lt _
    have list := h.coming_next (by omega)
    rw [Beam.advance_of_last _ _ ends]
    refine ⟨?_, ?_, ?_, ?_⟩ <;> simp only [Beam.nextLine_dot, Beam.nextLine_line]
    · intro shown _
      obtain visible | last := rendered
      · rw [if_pos (by omega)]
        refine ⟨?_, fun k _ => h.whole_next moved k (by omega)⟩
        rw [list, spritesBehind, if_pos visible]
      · rw [if_neg (by omega), list, spritesBehind, if_neg (by omega)]
        exact ⟨(start.spritesOn_zero).symm, fun k used => absurd used (Nat.not_lt_zero _)⟩
    · intro low
      contradiction
    · intro k low
      omega
    · intro k low
      omega

end SpritesOnTrack

end Famiclone.Picture
