import Famiclone.Proofs.Console.Clocks
import Famiclone.Proofs.Picture.FrameEnd

/-!
# What happens to a picture unit

Dots pass, the processor reads and writes registers, the reset line is pulled, and the board does what
it does by itself. A history of the unit is a row of such events in any order. Only a dot moves the beam,
and it moves the beam to the next dot or to the next line.
-/
namespace Famiclone

namespace Beam

/-- Where the beam is, and in which frame. -/
def place (b : Beam) : Nat × Nat × Nat := (b.frame, b.line, b.dot)

/-- A dot moves the beam on in its line or ends the line. -/
theorem advance_cases (b : Beam) (region : Region) (rendering : Bool) :
    (b.advance region rendering).place = (b.frame, b.line, b.dot + 1) ∨
      339 ≤ b.dot ∧ b.line < region.preRenderLine ∧
        (b.advance region rendering).place = (b.frame, b.line + 1, 0) ∨
      339 ≤ b.dot ∧ region.preRenderLine ≤ b.line ∧
        (b.advance region rendering).place = (b.frame + 1, 0, 0) := by
  have rest := screenHeight_lt region
  cases last : b.lastDot region rendering with
  | true =>
    have late : 339 ≤ b.dot := by
      unfold lastDot skips at last
      simp only [Bool.or_eq_true, Bool.and_eq_true, beq_iff_eq, decide_eq_true_eq] at last
      unfold dotsPerLine at last
      omega
    rw [advance_of_last b region last]
    unfold nextLine place
    split_ifs with rests upper
    · exact .inr (.inl ⟨late, by dsimp only at rests; omega, rfl⟩)
    · exact .inr (.inl ⟨late, upper, rfl⟩)
    · exact .inr (.inr ⟨late, Nat.not_lt.mp upper, rfl⟩)
  | false =>
    rw [advance_of_not_last b region last]
    exact .inl rfl

/-- The beam is at the dot at which the vertical blank is reported. -/
def AtReport (b : Beam) (region : Region) : Prop := b.line = region.vblankLine ∧ b.dot = 1

/-- The beam is at the dot at which the flags are cleared. -/
def AtClear (b : Beam) (region : Region) : Prop := b.line = region.preRenderLine ∧ b.dot = 1

instance (b : Beam) (region : Region) : Decidable (b.AtReport region) :=
  inferInstanceAs (Decidable (_ ∧ _))

instance (b : Beam) (region : Region) : Decidable (b.AtClear region) :=
  inferInstanceAs (Decidable (_ ∧ _))

instance (b : Beam) (y dot : Nat) : Decidable (b.Passed y dot) :=
  inferInstanceAs (Decidable (_ ∨ _))

/-- The beam is behind the report of its frame and not behind the dot that clears it. -/
def InBlank (b : Beam) (region : Region) : Prop :=
  b.Passed region.vblankLine 1 ∧ ¬ b.Passed region.preRenderLine 1

/-- How often the vertical blank has been due since power-on. -/
def reports (b : Beam) (region : Region) : Nat :=
  b.frame + if b.Passed region.vblankLine 1 then 1 else 0

variable {b c : Beam} {region : Region}

theorem vblankLine_lt (region : Region) : region.vblankLine < region.preRenderLine := by
  cases region <;> decide

theorem reports_of_atReport (h : b.AtReport region) : b.reports region = b.frame := by
  obtain ⟨line, dot⟩ := h
  have before : ¬ b.Passed region.vblankLine 1 := by
    unfold Passed
    omega
  unfold reports
  rw [if_neg before]
  rfl

theorem Passed.of_place (same : c.place = b.place) {y dot : Nat} :
    c.Passed y dot ↔ b.Passed y dot := by
  unfold place at same
  simp only [Prod.mk.injEq] at same
  unfold Passed
  rw [same.2.1, same.2.2]

theorem AtReport.of_place (same : c.place = b.place) : c.AtReport region ↔ b.AtReport region := by
  unfold place at same
  simp only [Prod.mk.injEq] at same
  unfold AtReport
  rw [same.2.1, same.2.2]

theorem reports_of_place (same : c.place = b.place) : c.reports region = b.reports region := by
  have frame : c.frame = b.frame := congrArg Prod.fst same
  unfold reports
  rw [frame, if_congr (Passed.of_place same) rfl rfl]

theorem InBlank.of_place (same : c.place = b.place) : c.InBlank region ↔ b.InBlank region :=
  and_congr (Passed.of_place same) (not_congr (Passed.of_place same))

theorem InRange.of_place (same : c.place = b.place) (h : b.InRange region) :
    c.InRange region := by
  unfold place at same
  simp only [Prod.mk.injEq] at same
  obtain ⟨line, dot⟩ := h
  exact ⟨by rw [same.2.1]; exact line, by rw [same.2.2]; exact dot⟩

theorem InRange.line_le (h : b.InRange region) : b.line ≤ region.preRenderLine := by
  have line := h.line
  rw [scanlines_eq] at line
  omega

/-- The vertical blank is due in one dot of a frame. -/
theorem InRange.reports_advance (h : b.InRange region) (rendering : Bool) :
    (b.advance region rendering).reports region =
      b.reports region + if b.AtReport region then 1 else 0 := by
  have due := vblankLine_lt region
  have line := h.line_le
  have cases := b.advance_cases region rendering
  unfold place at cases
  simp only [Prod.mk.injEq] at cases
  unfold reports
  split_ifs with after now before <;> unfold Passed at * <;> unfold AtReport at * <;> omega

/-- In any other dot the beam does not come behind the report. -/
theorem InRange.inBlank_advance (h : b.InRange region) (rendering : Bool) :
    (b.advance region rendering).InBlank region ↔
      b.AtReport region ∨ b.InBlank region ∧ ¬ b.AtClear region := by
  have due := vblankLine_lt region
  have line := h.line_le
  have cases := b.advance_cases region rendering
  unfold place at cases
  simp only [Prod.mk.injEq] at cases
  unfold InBlank AtReport AtClear Passed
  omega

end Beam

namespace Picture

/-- Something that happens to a picture unit and its board. -/
inductive Event (β : Type) where
  | tick
  | read (register : Fin 8)
  | write (register : Fin 8) (value : UInt8)
  | reset
  /-- Someone asks whether a frame is finished. -/
  | ask
  /-- The board changes by itself, in whatever way. -/
  | board (next : β)

namespace Event

variable {β : Type}

def isTick : Event β → Bool
  | tick => true
  | _ => false

def isReset : Event β → Bool
  | reset => true
  | _ => false

def readsStatus : Event β → Bool
  | read register => register == 2
  | _ => false

end Event

variable {β : Type} [PictureBus β]

def happen (s : Picture × β) : Event β → Picture × β
  | .tick => s.1.tick s.2
  | .read register => (s.1.read s.2 register).2
  | .write register value => s.1.write s.2 register value
  | .reset => (s.1.reset, s.2)
  | .ask => ({ s.1 with beam := { s.1.beam with finished := false } }, s.2)
  | .board next => (s.1, next)

def behind (s : Picture × β) (events : List (Event β)) : Picture × β := events.foldl happen s

@[simp] theorem behind_nil (s : Picture × β) : behind s [] = s := rfl

@[simp] theorem behind_cons (s : Picture × β) (event : Event β) (rest : List (Event β)) :
    behind s (event :: rest) = behind (happen s event) rest := rfl

theorem behind_append (s : Picture × β) (first second : List (Event β)) :
    behind s (first ++ second) = behind (behind s first) second := List.foldl_append

/-- A fact that every event keeps holds behind every row of events. -/
theorem behind_keeps {P : Picture × β → Prop} (step : ∀ s event, P s → P (happen s event))
    {s : Picture × β} (h : P s) (events : List (Event β)) : P (behind s events) := by
  induction events generalizing s with
  | nil => exact h
  | cons event rest ih => exact ih (step s event h)

/-- Where a row of events brings about what did not hold before, one of its events does so. -/
theorem exists_turn {P : Picture × β → Prop} {s : Picture × β} {events : List (Event β)}
    (before : ¬ P s) (now : P (behind s events)) :
    ∃ first event rest, events = first ++ event :: rest ∧ ¬ P (behind s first) ∧
      P (happen (behind s first) event) := by
  induction events generalizing s with
  | nil => exact absurd now before
  | cons event rest ih =>
    by_cases turn : P (happen s event)
    · exact ⟨[], event, rest, rfl, before, turn⟩
    · obtain ⟨first, next, last, split, still, turns⟩ := ih turn now
      exact ⟨event :: first, next, last, congrArg (event :: ·) split, still, turns⟩

/-- How many events of a row are of a kind, which may depend on what they find. -/
def tally (kind : Picture × β → Event β → Bool) (s : Picture × β) : List (Event β) → Nat
  | [] => 0
  | event :: rest => (kind s event).toNat + tally kind (happen s event) rest

/-! ## Only a dot moves the beam -/

theorem happen_region (s : Picture × β) (event : Event β) :
    (happen s event).1.region = s.1.region := by
  cases event with
  | tick => exact congrArg Prod.fst (tick_timing s.1 s.2)
  | read register => exact congrArg Prod.fst (read_timing s.1 s.2 register)
  | write register value => exact congrArg Prod.fst (write_timing s.1 s.2 register value)
  | _ => rfl

theorem happen_place (s : Picture × β) {event : Event β} (other : event.isTick = false) :
    (happen s event).1.beam.place = s.1.beam.place := by
  cases event with
  | tick => contradiction
  | read register =>
    exact congrArg (fun timing => timing.2.place) (read_timing s.1 s.2 register)
  | write register value =>
    exact congrArg (fun timing => timing.2.place) (write_timing s.1 s.2 register value)
  | _ => rfl

theorem happen_tick_beam (s : Picture × β) :
    (happen s .tick).1.beam = s.1.beam.advance s.1.region s.1.mask.renders :=
  congrArg Prod.snd (tick_timing s.1 s.2)

/-- The beam stays on the screen. -/
theorem happen_inRange (s : Picture × β) (event : Event β)
    (h : s.1.beam.InRange s.1.region) :
    (happen s event).1.beam.InRange (happen s event).1.region := by
  rw [happen_region]
  cases ticks : event.isTick with
  | false => exact h.of_place (happen_place s ticks)
  | true =>
    cases event with
    | tick =>
      rw [happen_tick_beam]
      exact (Beam.advance_ahead h _).inRange
    | _ => contradiction

end Picture

end Famiclone
