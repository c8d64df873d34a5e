import Famiclone.Proofs.Histories
import Famiclone.Proofs.Picture.Ranges
import Famiclone.Proofs.Picture.Vblank

/-!
# What a light sensor sees

The screen keeps a pixel until the beam comes to its place again while the unit renders. A sensor looks at
the screen a few lines behind the beam, so it sees what the beam has just put out there if the unit
rendered in that dot. If it did not, the sensor sees what an earlier frame has left there.
-/
namespace Famiclone

namespace Beam

/-- The beam is behind a dot of a frame. -/
def PassedIn (b : Beam) (frame y dot : Nat) : Prop :=
  frame < b.frame ∨ frame = b.frame ∧ b.Passed y dot

instance (b : Beam) (frame y dot : Nat) : Decidable (b.PassedIn frame y dot) :=
  inferInstanceAs (Decidable (_ ∨ _))

variable {b c : Beam} {frame y dot : Nat}

theorem PassedIn.of_place (same : c.place = b.place) :
    c.PassedIn frame y dot ↔ b.PassedIn frame y dot := by
  have frames : c.frame = b.frame := congrArg Prod.fst same
  unfold PassedIn
  rw [frames, Passed.of_place same]

/-- A dot that the beam has passed and is at again belongs to a later frame. -/
theorem PassedIn.lt_of_place {now : Nat} (passed : b.PassedIn frame y dot)
    (here : b.place = (now, y, dot)) : frame < now := by
  unfold place at here
  simp only [Prod.mk.injEq] at here
  unfold PassedIn Passed at passed
  omega

/-- A dot of the screen is passed when the beam leaves it, and at no other time. -/
theorem passedIn_advance_iff (high : y < screenHeight) (wide : dot ≤ screenWidth) (region : Region)
    (rendering : Bool) : (b.advance region rendering).PassedIn frame y dot ↔
      b.PassedIn frame y dot ∨ b.place = (frame, y, dot) := by
  have rest := screenHeight_lt region
  have cases := b.advance_cases region rendering
  unfold place at cases
  unfold screenHeight screenWidth at *
  simp only [Prod.mk.injEq] at cases
  unfold PassedIn Passed place
  simp only [Prod.mk.injEq]
  omega

end Beam

namespace Picture

variable {β : Type} [PictureBus β]

/-! ## What is put out at a place -/

/-- A pixel that has been put out: the frame it belongs to and its colour. -/
structure Output where
  frame : Nat
  colour : UInt8

namespace Event

/-- What an event puts out at a place of the screen: the dot of the place does so if the unit renders. -/
def output? (place : Point) (s : Picture × β) : Event β → Option Output
  | .tick =>
    if s.1.mask.renders = true ∧ s.1.beam.line = place.y ∧ s.1.beam.dot = place.x + 1 then
      some ⟨s.1.beam.frame, (s.1.tick s.2).1.colourAt place.x⟩
    else none
  | _ => none

end Event

/-- What a row of events puts out at a place last. -/
def lastOutput? (place : Point) (s : Picture × β) (events : List (Event β)) : Option Output :=
  History.last? happen (fun s event => event.output? place s) s events

theorem lastOutput?_cons (place : Point) (s : Picture × β) (event : Event β)
    (rest : List (Event β)) : lastOutput? place s (event :: rest) =
      (lastOutput? place (happen s event) rest).or (event.output? place s) := rfl

theorem lastOutput?_append (place : Point) (s : Picture × β) (first second : List (Event β)) :
    lastOutput? place s (first ++ second) =
      (lastOutput? place (behind s first) second).or (lastOutput? place s first) :=
  History.last?_append s first second

theorem output?_place {place : Point} {s : Picture × β} {event : Event β} {o : Output}
    (out : event.output? place s = some o) :
    event.isTick = true ∧ s.1.beam.place = (o.frame, place.y, place.x + 1) := by
  cases event with
  | tick =>
    unfold Event.output? at out
    split_ifs at out with here
    cases out
    exact ⟨rfl, by unfold Beam.place; rw [here.2.1, here.2.2]⟩
  | _ => contradiction

/-! ## The screen holds what was put out last -/

/-- The colour of the screen at a place. -/
def shown (p : Picture) (place : Point) : UInt8 := p.screen[256 * place.y + place.x]?.getD 0

theorem litAt_eq_true (p : Picture) (place : Point) : p.litAt place = true ↔
    place.x < screenWidth ∧ place.y < screenHeight ∧ p.beam.Passed place.y (place.x + 1) ∧
      p.beam.line < place.y + afterglow ∧ Palette.isBright (p.shown place) = true := by
  unfold litAt screenWidth screenHeight
  split
  · have inside : place.x < 256 ∧ place.y < 240 := ‹_›
    have there : 256 * place.y + place.x < 61440 := by omega
    have colour : p.shown place = p.screen.get ⟨256 * place.y + place.x, there⟩ := by
      unfold shown
      rw [Vector.getElem?_eq_getElem there]
      rfl
    have recent : p.beam.line - place.y < afterglow ↔ p.beam.line < place.y + afterglow := by
      unfold afterglow
      omega
    simp only [Bool.and_eq_true, Bool.or_eq_true, decide_eq_true_eq, colour, recent, inside,
      true_and, and_assoc]
    rfl
  · simp only [Bool.false_eq_true, false_iff]
    tauto

variable {place : Point}

/-- A dot changes the screen at its own place, if the unit renders. -/
theorem tick_shown (s : Picture × β) (wide : place.x < screenWidth) (high : place.y < screenHeight) :
    (s.1.tick s.2).1.shown place =
      ((Event.tick.output? place s).map Output.colour).getD (s.1.shown place) := by
  unfold screenWidth screenHeight at *
  have there : 256 * place.y + place.x < 61440 := by omega
  unfold Event.output? shown
  cases rendering : s.1.rendering with
  | false =>
    rw [(Checked.tick_of_idle s.2 rendering).1, if_neg]
    · rfl
    · rintro ⟨renders, line, -⟩
      have visible : s.1.beam.visible = true := by
        unfold Beam.visible screenHeight
        rw [line]
        exact decide_eq_true high
      unfold Picture.rendering onRenderLine at rendering
      rw [renders, visible] at rendering
      contradiction
  | true =>
    have renders : s.1.mask.renders = true := by
      unfold Picture.rendering at rendering
      exact (Bool.and_eq_true_iff.mp rendering).1
    simp only [renders, true_and]
    by_cases draws : s.1.beam.line < 240 ∧ 1 ≤ s.1.beam.dot ∧ s.1.beam.dot ≤ 256
    · obtain ⟨line, left, right⟩ := draws
      have here : 256 * s.1.beam.line + (s.1.beam.dot - 1) = 256 * place.y + place.x ↔
          s.1.beam.line = place.y ∧ s.1.beam.dot = place.x + 1 := by omega
      rw [s.1.tick_screen_of_draws s.2 rendering line left right, Vector.getElem?_set,
        if_congr here rfl rfl]
      split
      · rw [show s.1.beam.dot - 1 = place.x by omega]
        rfl
      · rfl
    · rw [s.1.tick_screen_of_not_draws s.2 draws, if_neg fun here => draws (by omega)]
      rfl

/-- An event changes the screen at a place to what it puts out there. -/
theorem happen_shown (s : Picture × β) (event : Event β) (wide : place.x < screenWidth)
    (high : place.y < screenHeight) : (happen s event).1.shown place =
      ((event.output? place s).map Output.colour).getD (s.1.shown place) := by
  have kept {p : Picture} (same : p.screen = s.1.screen) : p.shown place = s.1.shown place := by
    unfold shown
    rw [same]
  cases event with
  | tick => exact tick_shown s wide high
  | read register => exact kept (congrArg (·.2.2) (Checked.read_held s.1 s.2 register))
  | write register value =>
    obtain ⟨board, address, same | same⟩ := Checked.write_held s.1 s.2 value register
    · exact kept (congrArg (·.2.2) same)
    · exact kept (congrArg (·.2.2) same)
  | _ => rfl

/-- The screen holds at a place what was put out there last. -/
theorem behind_shown (s : Picture × β) (events : List (Event β)) (wide : place.x < screenWidth)
    (high : place.y < screenHeight) : (behind s events).1.shown place =
      ((lastOutput? place s events).map Output.colour).getD (s.1.shown place) :=
  History.foldl_cell (fun s => s.1.shown place) Output.colour
    (fun s event => happen_shown s event wide high) s events

/-! ## The order of what is put out -/

/-- The beam has passed a place of the screen in a frame. -/
def Past (frame : Nat) (place : Point) (s : Picture × β) : Prop :=
  s.1.beam.PassedIn frame place.y (place.x + 1)

section

variable {frame : Nat} (wide : place.x < screenWidth) (high : place.y < screenHeight)
include wide high

theorem past_happen_iff (s : Picture × β) (event : Event β) : Past frame place (happen s event) ↔
    Past frame place s ∨
      event.isTick = true ∧ s.1.beam.place = (frame, place.y, place.x + 1) := by
  cases ticks : event.isTick with
  | true =>
    cases event with
    | tick =>
      unfold Past
      rw [happen_tick_beam, Beam.passedIn_advance_iff high wide]
      simp only [true_and]
    | _ => contradiction
  | false =>
    unfold Past
    rw [Beam.PassedIn.of_place (happen_place s ticks)]
    simp only [Bool.false_eq_true, false_and, or_false]

theorem Past.behind {s : Picture × β} (h : Past frame place s) (events : List (Event β)) :
    Past frame place (behind s events) :=
  behind_keeps (fun s event past => (past_happen_iff wide high s event).mpr (.inl past)) h events

/-- What has been put out at a place belongs to a frame in which the beam has passed the place. -/
theorem past_of_lastOutput? {s : Picture × β} {events : List (Event β)} {o : Output}
    (out : lastOutput? place s events = some o) : Past o.frame place (behind s events) := by
  induction events generalizing s with
  | nil => contradiction
  | cons event rest ih =>
    rw [lastOutput?_cons, Option.or_eq_some_iff] at out
    obtain later | ⟨-, first⟩ := out
    · exact ih later
    · have passes := (past_happen_iff wide high s event).mpr (.inr (output?_place first))
      exact passes.behind wide high rest

/-- What is put out at a place behind the beam belongs to a later frame. -/
theorem Past.lt_of_lastOutput? {s : Picture × β} (h : Past frame place s) {events : List (Event β)}
    {o : Output} (out : lastOutput? place s events = some o) : frame < o.frame := by
  induction events generalizing s with
  | nil => contradiction
  | cons event rest ih =>
    rw [lastOutput?_cons, Option.or_eq_some_iff] at out
    obtain later | ⟨-, first⟩ := out
    · exact ih (h.behind wide high [event]) later
    · exact Beam.PassedIn.lt_of_place h (output?_place first).2

/-- Behind the dot of a place in the frame that is being drawn, nothing more is put out there. -/
theorem lastOutput?_of_split {s : Picture × β} {before after : List (Event β)}
    (due : (behind s before).1.beam.place =
      ((behind s (before ++ .tick :: after)).1.beam.frame, place.y, place.x + 1)) :
    lastOutput? place s (before ++ .tick :: after) =
      (Event.tick.output? place (behind s before)).or (lastOutput? place s before) := by
  rw [lastOutput?_append, lastOutput?_cons]
  have past := (past_happen_iff wide high (behind s before) .tick).mpr (.inr ⟨rfl, due⟩)
  have none : lastOutput? place (happen (behind s before) .tick) after = none := by
    refine Option.eq_none_iff_forall_ne_some.mpr fun o out => ?_
    have later := past.lt_of_lastOutput? wide high out
    have frames := past_of_lastOutput? wide high out
    rw [behind_append, behind_cons] at later
    unfold Past Beam.PassedIn at frames
    omega
  rw [none, Option.none_or]

/-- A place that the beam has passed in the frame that is being drawn had its dot in that frame. -/
theorem exists_dot_of_past {s : Picture × β} {events : List (Event β)}
    (before : ¬ Past frame place s) (now : Past frame place (behind s events)) :
    ∃ first rest, events = first ++ .tick :: rest ∧
      (behind s first).1.beam.place = (frame, place.y, place.x + 1) := by
  obtain ⟨first, event, rest, split, still, turns⟩ := exists_turn before now
  have turn := (past_happen_iff wide high (behind s first) event).mp turns
  obtain ⟨ticks, here⟩ := turn.resolve_left still
  cases event with
  | tick => exact ⟨first, rest, split, here⟩
  | _ => contradiction

/-- Whether the colour at a place is bright is up to the dot of the place in the frame that is being drawn
if the unit renders in it, and to an earlier frame if it does not. -/
theorem isBright_shown_iff {region : Region} {board : β} {before after : List (Event β)}
    (due : (fromStart region board before).1.beam.place =
      ((fromStart region board (before ++ .tick :: after)).1.beam.frame, place.y, place.x + 1)) :
    Palette.isBright ((fromStart region board (before ++ .tick :: after)).1.shown place) = true ↔
      if (fromStart region board before).1.mask.renders then
        Palette.isBright (((fromStart region board before).1.tick
          (fromStart region board before).2).1.colourAt place.x) = true
      else ∃ o, lastOutput? place (initial region, board) before = some o ∧
        o.frame < (fromStart region board (before ++ .tick :: after)).1.beam.frame ∧
        Palette.isBright o.colour = true := by
  have black : (initial region).shown place = 0 := by
    unfold shown
    rw [Vector.getElem?_eq_getElem (by unfold screenWidth screenHeight at *; omega)]
    exact Vector.getElem_replicate _
  have last := lastOutput?_of_split wide high due
  unfold fromStart at *
  rw [behind_shown _ _ wide high, last, black]
  generalize (behind (initial region, board) (before ++ .tick :: after)).1.beam.frame = frame at due
  generalize named : behind (initial region, board) before = d at due ⊢
  have here : d.1.beam.line = place.y ∧ d.1.beam.dot = place.x + 1 := by
    unfold Beam.place at due
    simp only [Prod.mk.injEq] at due
    exact due.2
  unfold Event.output?
  cases renders : d.1.mask.renders with
  | true => simp [here]
  | false =>
    simp only [Bool.false_eq_true, false_and, if_false, Option.none_or]
    cases out : lastOutput? place (initial region, board) before with
    | none => simp [show Palette.isBright 0 = false by decide]
    | some o =>
      have earlier : o.frame < frame := by
        have past := past_of_lastOutput? wide high out
        rw [named] at past
        exact Beam.PassedIn.lt_of_place past due
      simp [earlier]

end

/-! ## What a sensor sees -/

/-- A sensor that points at a place sees the screen exactly if the dot of the place has passed in the frame
that is being drawn, fewer than 26 lines ago, and has put out a bright colour; or has put out none, since
the unit did not render in it, where an earlier frame had put out a bright colour last. -/
theorem litAt_iff (region : Region) (board : β) (events : List (Event β)) (place : Point) :
    let now := (fromStart region board events).1
    now.litAt place = true ↔
      place.x < screenWidth ∧ place.y < screenHeight ∧ now.beam.line < place.y + afterglow ∧
        ∃ before after, events = before ++ .tick :: after ∧
          let due := fromStart region board before
          due.1.beam.place = (now.beam.frame, place.y, place.x + 1) ∧
            if due.1.mask.renders then
              Palette.isBright ((due.1.tick due.2).1.colourAt place.x) = true
            else ∃ o, lastOutput? place (initial region, board) before = some o ∧
              o.frame < now.beam.frame ∧ Palette.isBright o.colour = true := by
  intro now
  rw [litAt_eq_true]
  refine and_congr_right fun wide => and_congr_right fun high => ?_
  constructor
  · rintro ⟨passed, recent, bright⟩
    have start : ¬ Past now.beam.frame place (initial region, board) := by
      unfold Past Beam.PassedIn Beam.Passed
      simp [initial, Beam.start]
    obtain ⟨before, after, rfl, due⟩ := exists_dot_of_past wide high start (.inr ⟨rfl, passed⟩)
    exact ⟨recent, before, after, rfl, due, (isBright_shown_iff wide high due).mp bright⟩
  · rintro ⟨recent, before, after, rfl, due, bright⟩
    have past := (past_happen_iff wide high _ .tick).mpr (.inr ⟨rfl, due⟩)
    have passed := past.behind wide high after
    rw [← behind_cons, fromStart, ← behind_append] at passed
    exact ⟨(passed.resolve_left (Nat.lt_irrefl _)).2, recent,
      (isBright_shown_iff wide high due).mpr bright⟩

end Picture
end Famiclone
