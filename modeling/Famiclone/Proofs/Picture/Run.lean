import Famiclone.Proofs.Picture.Dot

/-!
# Runs of dots

Between two accesses of the processor the picture unit passes dots, and the board is clocked behind
some of them. What the unit draws in such a run does not depend on where the clocks fall. The beam
moves by a rule of its own, so the place where it stands behind a number of dots is known beforehand.
-/
namespace Famiclone

/-! ## The beam -/

namespace Beam

/-- The line of rest comes before the pre-render line. -/
theorem screenHeight_lt (region : Region) : screenHeight < region.preRenderLine := by
  cases region <;> decide

variable (b : Beam) (region : Region)

/-- Whether a dot is the last of its line. -/
def lastDot (rendering : Bool) : Bool :=
  b.skips region rendering || decide (dotsPerLine ≤ b.dot + 1)

theorem nextLine_line : (b.nextLine region).line =
    if b.line < region.preRenderLine then b.line + 1 else 0 := by
  have rest := screenHeight_lt region
  unfold nextLine
  split
  · rw [if_pos (by omega)]
  · split <;> rfl

@[simp] theorem nextLine_dot : (b.nextLine region).dot = 0 := by
  unfold nextLine
  split
  · rfl
  · split <;> rfl

theorem nextLine_odd (h : b.line < region.preRenderLine) : (b.nextLine region).odd = b.odd := by
  unfold nextLine
  rw [if_pos h]
  split <;> rfl

theorem advance_of_last {rendering : Bool} (h : b.lastDot region rendering = true) :
    b.advance region rendering = { b with elapsed := b.elapsed + 1 }.nextLine region := by
  unfold advance
  dsimp only
  obtain skips | last := Bool.or_eq_true_iff.mp h
  · exact if_pos skips
  · have outside : ¬ b.dot + 1 < dotsPerLine := Nat.not_lt.mpr (of_decide_eq_true last)
    rw [if_neg outside]
    split <;> rfl

theorem advance_of_not_last {rendering : Bool} (h : b.lastDot region rendering = false) :
    b.advance region rendering =
      { b with elapsed := b.elapsed + 1, dot := b.dot + 1 } := by
  obtain ⟨skips, last⟩ := Bool.or_eq_false_iff.mp h
  have inside : b.dot + 1 < dotsPerLine := Nat.not_le.mp (of_decide_eq_false last)
  have same : Beam.skips { b with elapsed := b.elapsed + 1 } region rendering = false := skips
  unfold advance
  dsimp only
  rw [same, if_neg Bool.false_ne_true, if_pos inside]

/-- The dots that will be left out at the end of the pre-render line. -/
def leftOut : Nat := (b.odd && region.skipsOddDot).toNat

/-- The line of rest begins in `left` dots, all of which are on lines that are rendered. -/
def RestIn (left : Nat) : Prop :=
  b.line < 240 ∧ b.dot ≤ 340 ∧ left + b.dot = 341 * (240 - b.line) ∨
    b.line = region.preRenderLine ∧ b.dot + b.leftOut region ≤ 340 ∧
      left + b.dot + b.leftOut region = 341 * 241 ∨
    b.line = 240 ∧ b.dot = 0 ∧ left = 0

variable {b region} {left : Nat}

theorem RestIn.line_eq_iff (h : b.RestIn region left) : b.line = 240 ↔ left = 0 := by
  have rest : 240 < region.preRenderLine := screenHeight_lt region
  unfold RestIn at h
  omega

theorem RestIn.rendered (h : b.RestIn region (left + 1)) :
    b.line < 240 ∨ b.line = region.preRenderLine := by
  unfold RestIn at h
  omega

theorem skips_iff (b : Beam) (region : Region) : b.skips region true = true ↔
    b.line = region.preRenderLine ∧ b.dot = 339 ∧ b.leftOut region = 1 := by
  have one (f : Bool) : f.toNat = 1 ↔ f = true := by cases f <;> decide
  unfold skips leftOut
  rw [one]
  simp only [Bool.and_eq_true, beq_iff_eq, Bool.and_true, and_assoc]

theorem lastDot_iff (b : Beam) (region : Region) : b.lastDot region true = true ↔
    (b.line = region.preRenderLine ∧ b.dot = 339 ∧ b.leftOut region = 1) ∨ 340 ≤ b.dot := by
  have width : dotsPerLine ≤ b.dot + 1 ↔ 340 ≤ b.dot := by
    unfold dotsPerLine
    omega
  unfold lastDot
  rw [Bool.or_eq_true, skips_iff, decide_eq_true_eq, width]

/-- A dot brings the line of rest nearer by one, also where a dot is left out. -/
theorem RestIn.next (h : b.RestIn region (left + 1)) :
    (b.advance region true).RestIn region left := by
  have rest : 240 < region.preRenderLine := screenHeight_lt region
  have flag : b.leftOut region < 2 := Bool.toNat_lt _
  have last := b.lastDot_iff region
  unfold RestIn at h ⊢
  cases ends : b.lastDot region true with
  | true =>
    have last := last.mp ends
    rw [advance_of_last _ _ ends, nextLine_line, nextLine_dot]
    dsimp only
    obtain ⟨visible, width, count⟩ | ⟨pre, width, count⟩ | ⟨_, _, none⟩ := h
    · rw [if_pos (by omega)]
      omega
    · rw [if_neg (by omega)]
      omega
    · omega
  | false =>
    have last := last.not.mp (by rw [ends]; exact Bool.false_ne_true)
    have odd : leftOut { b with elapsed := b.elapsed + 1, dot := b.dot + 1 } region =
        b.leftOut region := rfl
    rw [advance_of_not_last _ _ ends, odd]
    dsimp only
    have inside : b.dot ≤ 339 := by omega
    obtain ⟨visible, width, count⟩ | ⟨pre, width, count⟩ | ⟨_, _, none⟩ := h
    · exact .inl ⟨visible, by omega, by omega⟩
    · have before : b.dot + b.leftOut region ≤ 339 := by omega
      exact .inr (.inl ⟨pre, by omega, by omega⟩)
    · omega

/-- The beam is behind a dot of a line of the screen. -/
def Passed (b : Beam) (y dot : Nat) : Prop := y < b.line ∨ y = b.line ∧ dot < b.dot

/-- A dot on the screen passes itself, and a dot of the pre-render line passes nothing. -/
theorem RestIn.passed_next (h : b.RestIn region (left + 1))
    (below : (b.advance region true).line ≤ 240) {y dot : Nat} (width : dot ≤ 340) :
    (b.advance region true).Passed y dot ↔
      b.line < 240 ∧ (b.Passed y dot ∨ y = b.line ∧ dot = b.dot) := by
  have rest : 240 < region.preRenderLine := screenHeight_lt region
  have rendered := h.rendered
  unfold Passed
  cases ends : b.lastDot region true with
  | true =>
    have last := (lastDot_iff _ _).mp ends
    rw [advance_of_last _ _ ends] at below ⊢
    rw [nextLine_line] at below
    rw [nextLine_line, nextLine_dot]
    dsimp only at below ⊢
    obtain visible | pre := rendered
    · rw [if_pos (by omega)]
      omega
    · rw [if_neg (by omega)]
      omega
  | false =>
    rw [advance_of_not_last _ _ ends] at below ⊢
    dsimp only at below ⊢
    omega

/-- Something has happened in a dot of the screen that the beam has passed. -/
def Gathered (b : Beam) (event : Nat → Nat → Prop) : Prop :=
  ∃ y < 240, ∃ dot ≤ 340, b.Passed y dot ∧ event y dot

/-- What a dot gathers is what happens in it. -/
theorem RestIn.gathered_next (h : b.RestIn region (left + 1))
    (below : (b.advance region true).line ≤ 240) (event : Nat → Nat → Prop) :
    (b.advance region true).Gathered event ↔
      b.line < 240 ∧ (b.Gathered event ∨ event b.line b.dot) := by
  have width : b.dot ≤ 340 := by
    unfold RestIn at h
    omega
  constructor
  · rintro ⟨y, shown, dot, inside, passed, happened⟩
    obtain ⟨visible, before | ⟨rfl, rfl⟩⟩ := (h.passed_next below inside).mp passed
    · exact ⟨visible, .inl ⟨y, shown, dot, inside, before, happened⟩⟩
    · exact ⟨visible, .inr happened⟩
  · rintro ⟨visible, ⟨y, shown, dot, inside, before, happened⟩ | happened⟩
    · exact ⟨y, shown, dot, inside, (h.passed_next below inside).mpr ⟨visible, .inl before⟩, happened⟩
    · exact ⟨b.line, visible, b.dot, width,
        (h.passed_next below width).mpr ⟨visible, .inr ⟨rfl, rfl⟩⟩, happened⟩

/-- A flag that has been raised by what was gathered, and is raised by what happens, is raised by what is
gathered then. In front of the screen it is low. -/
theorem RestIn.flag_next (h : b.RestIn region (left + 1))
    (below : (b.advance region true).line ≤ 240) {event : Nat → Nat → Prop} {flag raised : Bool}
    (before : b.line ≤ 240 → (flag = true ↔ b.Gathered event)) (low : ¬ b.line ≤ 240 → flag = false)
    (now : raised = true ↔ b.line < 240 ∧ event b.line b.dot) :
    (flag || raised) = true ↔ (b.advance region true).Gathered event := by
  rw [Bool.or_eq_true, now, h.gathered_next below]
  obtain visible | pre := h.rendered
  · rw [before (Nat.le_of_lt visible)]
    simp only [visible, true_and]
  · have rest : 240 < region.preRenderLine := screenHeight_lt region
    have hidden : ¬ b.line < 240 := by omega
    rw [low (by omega)]
    simp only [hidden, false_and, or_false, Bool.false_eq_true]

end Beam

/-! ## What the bus shows -/

/-- Two states of a bus that show the same patterns and nametables. -/
structure SameView {β : Type} [PictureBus β] (a b : β) : Prop where
  readChr : PictureBus.readChr a = PictureBus.readChr b
  mirroring : PictureBus.mirroring a = PictureBus.mirroring b

namespace SameView

variable {β : Type} [PictureBus β] {a b c : β}

theorem refl (a : β) : SameView a a := ⟨rfl, rfl⟩

theorem trans (h : SameView a b) (k : SameView b c) : SameView a c :=
  ⟨h.readChr.trans k.readChr, h.mirroring.trans k.mirroring⟩

theorem peek (h : SameView a b) (m : VideoMemory) (address : UInt16) :
    m.peek a address = m.peek b address := by
  unfold VideoMemory.peek
  rw [h.readChr, h.mirroring]

variable [LawfulPictureBus β]

theorem foldl_observe (a : β) (heard : List UInt16) :
    SameView (heard.foldl PictureBus.observe a) a := by
  induction heard generalizing a with
  | nil => exact .refl a
  | cons address heard ih =>
    have first : SameView (PictureBus.observe a address) a :=
      ⟨LawfulPictureBus.readChr_observe a address, LawfulPictureBus.mirroring_observe a address⟩
    exact (ih _).trans first

theorem tick (p : Picture) (a : β) : SameView (p.tick a).2 a := by
  rw [p.tick_snd]
  exact foldl_observe a _

end SameView

/-- What a board hears moves none of its windows. -/
instance : LawfulPictureBus Board where
  readChr_observe board address := by
    cases board with
    | mmc3 b =>
      have banks : (b.observe address).banks = b.banks := by
        unfold Mmc3.observe Mmc3.countRise
        dsimp only
        split
        · split <;> rfl
        · split <;> rfl
      show (b.observe address).banks.readChr = b.banks.readChr
      rw [banks]
    | _ => rfl
  mirroring_observe board address := by
    cases board with
    | mmc3 b =>
      show (b.observe address).mirroring = b.mirroring
      unfold Mmc3.observe Mmc3.countRise
      dsimp only
      split
      · split <;> rfl
      · split <;> rfl
    | _ => rfl

theorem SameView.clock (board : Board) : SameView board.clock board := by
  cases board with
  | mmc3 b =>
    have kept : b.clock.banks = b.banks ∧ b.clock.mirroring = b.mirroring := by
      unfold Mmc3.clock
      split <;> exact ⟨rfl, rfl⟩
    refine ⟨?_, kept.2⟩
    show b.clock.banks.readChr = b.banks.readChr
    rw [kept.1]
  | _ => exact ⟨rfl, rfl⟩

/-! ## Dots in a row -/

namespace Picture

variable {β : Type} [PictureBus β]

/-- A dot, behind which a processor cycle may end. -/
def dot (clock : β → β) (cycleEnds : Bool) (s : Picture × β) : Picture × β :=
  let (p, board) := s.1.tick s.2
  (p, if cycleEnds then clock board else board)

/-- A number of dots without any access; `ends` tells behind which of them a cycle ends. -/
def run (clock : β → β) (ends : Nat → Bool) : Nat → Picture × β → Picture × β
  | 0, s => s
  | n + 1, s => dot clock (ends n) (run clock ends n s)

/-- What a dot keeps while it counts down, a run keeps. -/
theorem run_countdown {clock : β → β} {ends : Nat → Bool} {P : Nat → Picture × β → Prop}
    (step : ∀ {left : Nat} {p : Picture} {b : β} (cycleEnds : Bool),
      P (left + 1) (p, b) → P left (dot clock cycleEnds (p, b)))
    {s : Picture × β} {total n : Nat} (first : P total s) (within : n ≤ total) :
    P (total - n) (run clock ends n s) := by
  induction n with
  | zero => exact first
  | succ n ih =>
    have before := ih (by omega)
    rw [show total - n = total - (n + 1) + 1 by omega] at before
    exact step (ends n) before

end Picture

end Famiclone
