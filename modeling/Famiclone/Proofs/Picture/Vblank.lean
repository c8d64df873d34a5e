import Famiclone.Proofs.Picture.Events

/-!
# The report of the vertical blank

The flag of the vertical blank goes up in one dot of a frame and down in another, or earlier when the
status register is read. A read in the dot before the flag goes up holds the report back, so in that frame
the processor is not interrupted. All of it is kept together by where the beam is: the flag is up only
between the two dots, and a report is held back only at the first one.
-/
namespace Famiclone.Picture

variable {β : Type} [PictureBus β]

/-- The flag of the vertical blank, and whether the next report is held back. -/
def report (p : Picture) : Bool × Bool := (p.status.vblank, p.suppressVblank)

/-! ## What changes the report -/

theorem backgroundStage_report (p : Picture) (board : β) :
    (p.backgroundStage board).1.report = p.report := by
  unfold backgroundStage fetchBackground
  split
  · split <;> rfl
  · rfl

theorem lineStage_report (p : Picture) : p.lineStage.report = p.report := by
  unfold lineStage endLine chooseSprites
  dsimp only
  split
  · rfl
  · split
    · split <;> rfl
    · rfl

theorem spriteStage_report (p : Picture) (board : β) :
    (p.spriteStage board).1.report = p.report := by
  unfold spriteStage fetchSprite
  dsimp only
  split
  · split <;> rfl
  · rfl

theorem idleStage_report (p : Picture) (board : β) :
    (p.idleStage board).1.report = p.report := by
  unfold idleStage
  split <;> rfl

theorem frameStage_report (p : Picture) : p.frameStage.report = p.report := by
  unfold frameStage
  split <;> rfl

theorem drawPixel_report (p : Picture) : p.drawPixel.report = p.report := by
  unfold drawPixel
  split <;> rfl

/-- Drawing touches only the flags of the sprites. -/
theorem renderDot_report (p : Picture) (board : β) :
    (p.renderDot board).1.report = p.report := by
  unfold renderDot fetchDot
  dsimp only
  rw [drawPixel_report, frameStage_report, idleStage_report, spriteStage_report, lineStage_report,
    backgroundStage_report]

theorem updateStatus_report (p : Picture) : p.updateStatus.report =
    if p.beam.AtClear p.region then (false, p.suppressVblank)
    else if p.beam.AtReport p.region then (p.status.vblank || !p.suppressVblank, false)
    else p.report := by
  have clears : p.beam.AtClear p.region ↔ p.beam.line = p.region.preRenderLine ∧ p.beam.dot = 1 :=
    Iff.rfl
  have reports : p.beam.AtReport p.region ↔ p.beam.line = p.region.vblankLine ∧ p.beam.dot = 1 :=
    Iff.rfl
  unfold updateStatus
  by_cases second : p.beam.dot = 1
  · rw [if_pos second]
    by_cases last : p.beam.line = p.region.preRenderLine
    · rw [if_pos last, if_pos (clears.mpr ⟨last, second⟩)]
      rfl
    · rw [if_neg last, if_neg fun both => last (clears.mp both).1]
      by_cases first : p.beam.line = p.region.vblankLine
      · rw [if_pos first, if_pos (reports.mpr ⟨first, second⟩)]
        rfl
      · rw [if_neg first, if_neg fun both => first (reports.mp both).1]
  · rw [if_neg second, if_neg fun both => second (clears.mp both).2,
      if_neg fun both => second (reports.mp both).2]

theorem tick_report (p : Picture) (board : β) :
    (p.tick board).1.report = p.updateStatus.report := by
  have moved (q : Picture) (beam : Beam) : { q with beam }.report = q.report := rfl
  unfold tick
  dsimp only
  refine (moved _ _).trans ?_
  split
  · exact renderDot_report _ board
  · rfl

theorem moveOn_report (p : Picture) (board : β) : (p.moveOn board).1.report = p.report := by
  unfold moveOn
  split <;> rfl

theorem readData_report (p : Picture) (board : β) : (p.readData board).2.1.report = p.report := by
  unfold readData
  dsimp only
  split <;> exact moveOn_report _ _

theorem read_report (p : Picture) (board : β) (register : Fin 8) :
    (p.read board register).2.1.report =
      if register = 2 then (false, p.suppressVblank || decide (p.beam.AtReport p.region))
      else p.report := by
  have latched (r : UInt8 × Picture × β) :
      { r.2.1 with latch := r.1 }.report = r.2.1.report := rfl
  unfold read
  refine (latched _).trans ?_
  split
  · rfl
  · rfl
  · exact readData_report p board
  · rw [if_neg ‹register = 2 → False›]

theorem write_report (p : Picture) (board : β) (register : Fin 8) (value : UInt8) :
    (p.write board register value).1.report = p.report := by
  unfold write writeSprites writeScroll writeAddress writeData
  dsimp only
  split
  · rfl
  · rfl
  · rfl
  · split <;> rfl
  · split <;> rfl
  · split <;> rfl
  · exact moveOn_report _ _
  · rfl

/-- What all events but a dot do to the report. -/
theorem happen_report (s : Picture × β) {event : Event β} (other : event.isTick = false) :
    (happen s event).1.report = (s.1.status.vblank && !event.readsStatus,
      !event.isReset && (s.1.suppressVblank ||
        event.readsStatus && decide (s.1.beam.AtReport s.1.region))) := by
  cases event with
  | tick => contradiction
  | read register =>
    refine (read_report s.1 s.2 register).trans ?_
    by_cases status : register = 2
    · rw [if_pos status, status]
      simp [Event.readsStatus, Event.isReset]
    · rw [if_neg status]
      simp [Event.readsStatus, Event.isReset, status, report]
  | write register value =>
    refine (write_report s.1 s.2 register value).trans ?_
    simp [Event.readsStatus, Event.isReset, report]
  | reset => simp [happen, reset, Event.readsStatus, Event.isReset, report]
  | ask => simp [happen, Event.readsStatus, Event.isReset, report]
  | board next => simp [happen, Event.readsStatus, Event.isReset, report]

/-! ## Kinds of events -/

def raises (s : Picture × β) (event : Event β) : Bool :=
  !s.1.status.vblank && (happen s event).1.status.vblank

/-- The flag goes up in a certain frame. -/
def raisesIn (frame : Nat) (s : Picture × β) (event : Event β) : Bool :=
  raises s event && s.1.beam.frame == frame

def edges (s : Picture × β) (event : Event β) : Bool := !s.1.nmi && (happen s event).1.nmi

/-- The dot passes in which the report is due. -/
def due (s : Picture × β) (event : Event β) : Bool :=
  event.isTick && decide (s.1.beam.AtReport s.1.region)

/-- The status register is read, or the dot passes that clears the flags. -/
def clears (s : Picture × β) (event : Event β) : Bool :=
  event.readsStatus || event.isTick && decide (s.1.beam.AtClear s.1.region)

/-- The dot passes in which the report is due, and the report is held back. -/
def loses (s : Picture × β) (event : Event β) : Bool := due s event && s.1.suppressVblank

/-- The status register is read in the dot in which the report is due. -/
def races (s : Picture × β) (event : Event β) : Bool :=
  event.readsStatus && decide (s.1.beam.AtReport s.1.region)

omit [PictureBus β] in
theorem due_iff {s : Picture × β} {event : Event β} :
    due s event = true ↔ event.isTick = true ∧ s.1.beam.AtReport s.1.region := by
  unfold due
  rw [Bool.and_eq_true, decide_eq_true_eq]

omit [PictureBus β] in
theorem races_iff {s : Picture × β} {event : Event β} :
    races s event = true ↔ event.readsStatus = true ∧ s.1.beam.AtReport s.1.region := by
  unfold races
  rw [Bool.and_eq_true, decide_eq_true_eq]

omit [PictureBus β] in
/-- A read is neither a dot nor a reset. -/
theorem races_quiet {s : Picture × β} {event : Event β} (h : races s event = true) :
    event.isTick = false ∧ event.isReset = false := by
  cases event with
  | read register => exact ⟨rfl, rfl⟩
  | _ => contradiction

/-! ## Between the two dots -/

/-- The flag is up only in the blank, and a report is held back only in the dot in which it is due. -/
structure Settled (p : Picture) : Prop where
  range : p.beam.InRange p.region
  shown : p.status.vblank = true → p.beam.InBlank p.region
  held : p.suppressVblank = true → p.beam.AtReport p.region

theorem initial_settled (region : Region) : (initial region).Settled where
  range := Beam.start_inRange region
  shown := nofun
  held := nofun

theorem Settled.down {p : Picture} (h : p.Settled) (here : p.beam.AtReport p.region) :
    p.status.vblank = false := by
  rw [Bool.eq_false_iff]
  intro up
  have blank := (h.shown up).1
  unfold Beam.AtReport at here
  unfold Beam.Passed at blank
  omega

theorem Settled.free {p : Picture} (h : p.Settled) (elsewhere : ¬ p.beam.AtReport p.region) :
    p.suppressVblank = false := Bool.eq_false_iff.mpr fun held => elsewhere (h.held held)

section

variable {s : Picture × β} (h : s.1.Settled)
include h

/-- A dot raises the flag where the report is due and not held back, and clears it at the end. -/
theorem Settled.report_tick : (happen s .tick).1.report =
    (due s .tick && !s.1.suppressVblank || s.1.status.vblank && !clears s .tick, false) := by
  have ticks : due s .tick = decide (s.1.beam.AtReport s.1.region) := rfl
  have ends : clears s .tick = decide (s.1.beam.AtClear s.1.region) := rfl
  refine (tick_report s.1 s.2).trans ?_
  rw [updateStatus_report, ticks, ends]
  by_cases here : s.1.beam.AtReport s.1.region
  · have later : ¬ s.1.beam.AtClear s.1.region := by
      have lines := Beam.vblankLine_lt s.1.region
      unfold Beam.AtReport at here
      unfold Beam.AtClear
      omega
    rw [if_neg later, if_pos here, h.down here, decide_eq_true here]
    simp
  · rw [if_neg here, decide_eq_false here]
    by_cases last : s.1.beam.AtClear s.1.region
    · rw [if_pos last, decide_eq_true last, h.free here]
      simp
    · rw [if_neg last, decide_eq_false last]
      unfold report
      rw [h.free here]
      simp

/-- What every event does to the report. -/
theorem Settled.report_happen (event : Event β) : (happen s event).1.report =
    (due s event && !s.1.suppressVblank || s.1.status.vblank && !clears s event,
      !event.isTick && !event.isReset && (s.1.suppressVblank || races s event)) := by
  cases ticks : event.isTick with
  | true =>
    cases event with
    | tick => exact h.report_tick
    | _ => contradiction
  | false =>
    have undue : due s event = false := by
      unfold due
      rw [ticks, Bool.false_and]
    have read : clears s event = event.readsStatus := by
      unfold clears
      rw [ticks, Bool.false_and, Bool.or_false]
    rw [happen_report s ticks, undue, read]
    rfl

theorem Settled.vblank_happen (event : Event β) : (happen s event).1.status.vblank =
    (due s event && !s.1.suppressVblank || s.1.status.vblank && !clears s event) :=
  congrArg Prod.fst (h.report_happen event)

theorem Settled.suppressVblank_happen (event : Event β) : (happen s event).1.suppressVblank =
    (!event.isTick && !event.isReset && (s.1.suppressVblank || races s event)) :=
  congrArg Prod.snd (h.report_happen event)

theorem Settled.next (event : Event β) : (happen s event).1.Settled := by
  refine ⟨happen_inRange s event h.range, fun up => ?_, fun held => ?_⟩
  · rw [h.vblank_happen, Bool.or_eq_true, Bool.and_eq_true, Bool.and_eq_true,
      Bool.not_eq_true', Bool.not_eq_true'] at up
    rw [happen_region]
    cases ticks : event.isTick with
    | true =>
      cases event with
      | tick =>
        rw [happen_tick_beam, h.range.inBlank_advance]
        exact up.imp (fun raised => of_decide_eq_true raised.1) fun kept =>
          ⟨h.shown kept.1, of_decide_eq_false kept.2⟩
      | _ => contradiction
    | false =>
      have kept := up.resolve_left fun raised => by simp [due, ticks] at raised
      exact (Beam.InBlank.of_place (happen_place s ticks)).mpr (h.shown kept.1)
  · rw [h.suppressVblank_happen, Bool.and_eq_true, Bool.and_eq_true, Bool.not_eq_true',
      Bool.or_eq_true] at held
    obtain ⟨⟨unticked, -⟩, before⟩ := held
    rw [happen_region, Beam.AtReport.of_place (happen_place s unticked)]
    exact before.elim h.held fun now => (races_iff.mp now).2

/-- The flag goes up where a report is due that is not held back. -/
theorem Settled.raises_eq (event : Event β) :
    raises s event = (due s event && !s.1.suppressVblank) := by
  unfold raises
  rw [h.vblank_happen]
  cases now : due s event with
  | true =>
    rw [h.down (due_iff.mp now).2]
    simp
  | false => cases s.1.status.vblank <;> rfl

/-- The flag goes down when the status register is read, and in the dot that clears the flags. -/
theorem Settled.of_falls {event : Event β} (up : s.1.status.vblank = true)
    (down : (happen s event).1.status.vblank = false) :
    event.readsStatus = true ∨ event.isTick = true ∧ s.1.beam.AtClear s.1.region := by
  rw [h.vblank_happen, up, Bool.true_and, Bool.or_eq_false_iff, Bool.not_eq_false'] at down
  have cleared := down.2
  unfold clears at cleared
  rw [Bool.or_eq_true, Bool.and_eq_true, decide_eq_true_eq] at cleared
  exact cleared

omit [PictureBus β] in
/-- A report that is held back is lost with the next dot. -/
theorem Settled.loses_eq (event : Event β) :
    loses s event = (event.isTick && s.1.suppressVblank) := by
  unfold loses due
  cases held : s.1.suppressVblank with
  | true => rw [decide_eq_true (h.held held), Bool.and_true]
  | false => rw [Bool.and_false, Bool.and_false]

theorem Settled.reports_happen (event : Event β) :
    (happen s event).1.beam.reports (happen s event).1.region =
      s.1.beam.reports s.1.region + (due s event).toNat := by
  rw [happen_region]
  unfold due
  cases ticks : event.isTick with
  | true =>
    cases event with
    | tick =>
      rw [happen_tick_beam, h.range.reports_advance]
      split <;> simp [*]
    | _ => contradiction
  | false =>
    rw [Beam.reports_of_place (happen_place s ticks)]
    rfl

end

theorem behind_settled {s : Picture × β} (h : s.1.Settled) (events : List (Event β)) :
    (behind s events).1.Settled :=
  behind_keeps (P := fun s => s.1.Settled) (fun _ event h => h.next event) h events

/-! ## Rows of events -/

variable {s : Picture × β}

/-- The reports that fall due in a row of events. -/
theorem tally_due (h : s.1.Settled) (events : List (Event β)) :
    s.1.beam.reports s.1.region + tally due s events =
      (behind s events).1.beam.reports (behind s events).1.region := by
  induction events generalizing s with
  | nil => rfl
  | cons event rest ih =>
    rw [behind_cons, ← ih (h.next event), h.reports_happen event, tally]
    omega

/-- In a frame the flag goes up once at most, and not again when the report has been due. -/
theorem tally_raisesIn_le (h : s.1.Settled) (frame : Nat) (events : List (Event β)) :
    tally (raisesIn frame) s events + (if frame < s.1.beam.reports s.1.region then 1 else 0) ≤ 1 := by
  induction events generalizing s with
  | nil =>
    rw [tally]
    split <;> omega
  | cons event rest ih =>
    have further := ih (h.next event)
    have count := h.reports_happen event
    rw [tally]
    by_cases up : raisesIn frame s event = true
    · have parts := up
      unfold raisesIn at parts
      rw [Bool.and_eq_true, beq_iff_eq, h.raises_eq, Bool.and_eq_true] at parts
      obtain ⟨⟨now, -⟩, this⟩ := parts
      have before := Beam.reports_of_atReport (due_iff.mp now).2
      rw [now, Bool.toNat_true] at count
      rw [if_pos (by omega)] at further
      rw [up, Bool.toNat_true, if_neg (by omega)]
      omega
    · rw [Bool.not_eq_true] at up
      rw [up, Bool.toNat_false, Nat.zero_add]
      refine Nat.le_trans (Nat.add_le_add_left ?_ _) further
      split
      · rw [if_pos (by omega)]
      · exact Nat.zero_le _

/-! ### A row of events during which the interrupt stays enabled -/

/-- The interrupt is enabled in every state that a row of events passes. -/
def Enabled (s : Picture × β) (events : List (Event β)) : Prop :=
  ∀ before, before <+: events → (behind s before).1.control.nmiEnabled = true

theorem Enabled.first {events : List (Event β)} (h : Enabled s events) :
    s.1.control.nmiEnabled = true := h [] (List.nil_prefix)

theorem Enabled.rest {event : Event β} {rest : List (Event β)} (h : Enabled s (event :: rest)) :
    Enabled (happen s event) rest :=
  fun before part => h (event :: before) (List.cons_prefix_cons.mpr ⟨rfl, part⟩)

/-- A reset would disable the interrupt. -/
theorem Enabled.no_reset {event : Event β} {rest : List (Event β)}
    (h : Enabled s (event :: rest)) : event.isReset = false := by
  cases event with
  | reset =>
    have enabled : Control.nmiEnabled ⟨0⟩ = true := h.rest.first
    exact absurd enabled (by decide)
  | _ => rfl

/-- Each report that falls due interrupts the processor or is lost. -/
theorem tally_edges {events : List (Event β)} (settled : s.1.Settled) (h : Enabled s events) :
    tally edges s events + tally loses s events = tally due s events := by
  induction events generalizing s with
  | nil => rfl
  | cons event rest ih =>
    have further := ih (settled.next event) h.rest
    have line : edges s event = raises s event := by
      unfold edges nmi raises
      rw [h.first, h.rest.first, Bool.true_and, Bool.true_and]
    have parts : (edges s event).toNat + (loses s event).toNat = (due s event).toNat := by
      rw [line, settled.raises_eq]
      unfold loses
      cases due s event <;> cases s.1.suppressVblank <;> rfl
    rw [tally, tally, tally]
    omega

/-- A report is lost if the status register is read in the dot in which it is due. -/
theorem tally_loses {events : List (Event β)} (settled : s.1.Settled) (h : Enabled s events) :
    (0 < tally loses s events ∨ (behind s events).1.suppressVblank = true) ↔
      (s.1.suppressVblank = true ∨ 0 < tally races s events) := by
  induction events generalizing s with
  | nil => simp [tally]
  | cons event rest ih =>
    have further := ih (settled.next event) h.rest
    rw [settled.suppressVblank_happen, h.no_reset, Bool.not_false, Bool.and_true] at further
    rw [behind_cons, tally, tally, settled.loses_eq]
    cases ticks : event.isTick with
    | true =>
      have quiet : races s event = false :=
        Bool.eq_false_iff.mpr fun now => by simp [(races_quiet now).1] at ticks
      rw [ticks] at further
      rw [quiet]
      cases s.1.suppressVblank with
      | true => simp
      | false => simpa using further
    | false =>
      rw [ticks] at further
      rw [Bool.false_and, Bool.toNat_false, Nat.zero_add, further]
      cases races s event <;> cases s.1.suppressVblank <;> simp

/-! ## The race -/

/-- The status register has been read in the dot in which the report is due, and since then neither a
dot has passed nor the reset line been pulled. -/
def Raced (start : Picture × β) (events : List (Event β)) : Prop :=
  ∃ before event after, events = before ++ event :: after ∧
    races (behind start before) event = true ∧
      ∀ later ∈ after, later.isTick = false ∧ later.isReset = false

theorem not_raced_nil (start : Picture × β) : ¬ Raced start [] := by
  rintro ⟨before, event, after, parts, -⟩
  exact absurd parts (by simp)

theorem raced_concat (start : Picture × β) (events : List (Event β)) (event : Event β) :
    Raced start (events ++ [event]) ↔ races (behind start events) event = true ∨
      Raced start events ∧ event.isTick = false ∧ event.isReset = false := by
  constructor
  · rintro ⟨before, read, after, parts, now, later⟩
    obtain rfl | ⟨front, last, rfl⟩ := List.eq_nil_or_concat' after
    · obtain ⟨rfl, same⟩ := List.append_inj' parts rfl
      cases same
      exact .inl now
    · have parts' : events ++ [event] = (before ++ read :: front) ++ [last] := by
        rw [parts, List.append_assoc]
        rfl
      obtain ⟨rfl, same⟩ := List.append_inj' parts' rfl
      cases same
      refine .inr ⟨⟨before, read, front, rfl, now, fun e mem => ?_⟩, ?_⟩
      · exact later e (List.mem_append_left _ mem)
      · exact later event (List.mem_append_right _ (List.mem_singleton_self _))
  · rintro (now | ⟨⟨before, read, after, rfl, raced, later⟩, last⟩)
    · exact ⟨events, event, [], rfl, now, nofun⟩
    · refine ⟨before, read, after ++ [event], by rw [List.append_assoc]; rfl, raced, ?_⟩
      intro e mem
      obtain mem | mem := List.mem_append.mp mem
      · exact later e mem
      · rw [List.mem_singleton.mp mem]
        exact last

/-- A report is held back exactly if the race is on. -/
theorem held_iff_raced {start : Picture × β} (settled : start.1.Settled)
    (free : start.1.suppressVblank = false) (events : List (Event β)) :
    (behind start events).1.suppressVblank = true ↔ Raced start events := by
  induction events using List.reverseRecOn with
  | nil =>
    rw [behind_nil, free]
    exact iff_of_false Bool.false_ne_true (not_raced_nil start)
  | append_singleton events event ih =>
    rw [raced_concat, ← ih, behind_append]
    have now := behind_settled settled events
    show (happen (behind start events) event).1.suppressVblank = true ↔ _
    rw [now.suppressVblank_happen]
    generalize behind start events = s
    cases race : races s event with
    | true =>
      obtain ⟨unticked, unreset⟩ := races_quiet race
      rw [unticked, unreset]
      simp
    | false =>
      rw [Bool.or_false, Bool.and_eq_true, Bool.and_eq_true, Bool.not_eq_true', Bool.not_eq_true']
      simp [and_comm]

/-! ## The report of every history -/

def fromStart (region : Region) (board : β) (events : List (Event β)) : Picture × β :=
  behind (initial region, board) events

/-- A row of events from the top of a frame to the top of the next. -/
structure WholeFrame (s : Picture × β) (events : List (Event β)) : Prop where
  first : s.1.beam.line = 0 ∧ s.1.beam.dot = 0
  last : (behind s events).1.beam.place = (s.1.beam.frame + 1, 0, 0)

/-- What is to be said of the flag and of the interrupt line behind a row of events from power-on. -/
structure ReportsOnce (region : Region) (board : β) (events : List (Event β)) : Prop where
  /-- The flag is up only from the third dot of the blank to the second of the pre-render line. -/
  shown : let now := fromStart region board events
    now.1.status.vblank = true → now.1.beam.InBlank region
  /-- It goes up only in the dot in which the report is due. -/
  raised : let now := fromStart region board events
    ∀ event, raises now event = true → event.isTick = true ∧ now.1.beam.AtReport region
  /-- It goes up once in a frame at most. -/
  once : ∀ frame, tally (raisesIn frame) (initial region, board) events ≤ 1
  /-- In that dot it goes up unless the status register has been read just before. -/
  race : let now := fromStart region board events
    now.1.beam.AtReport region →
      ((happen now .tick).1.status.vblank = true ↔ ¬ Raced (initial region, board) events)
  /-- It goes down when the status register is read, and in the dot that clears the flags. -/
  cleared : let now := fromStart region board events
    ∀ event, now.1.status.vblank = true → (happen now event).1.status.vblank = false →
      event.readsStatus = true ∨ event.isTick = true ∧ now.1.beam.AtClear region
  /-- The interrupt line is high only while the interrupt is enabled. -/
  enabled : let now := fromStart region board events
    now.1.nmi = true → now.1.control.nmiEnabled = true
  /-- A frame in which the interrupt stays enabled has one interrupt, and none with the race. -/
  interrupts : ∀ before during, events = before ++ during →
    let start := fromStart region board before
    WholeFrame start during → Enabled start during →
      tally edges start during = if 0 < tally races start during then 0 else 1

theorem fromStart_settled (region : Region) (board : β) (events : List (Event β)) :
    (fromStart region board events).1.Settled := behind_settled (initial_settled region) events

theorem fromStart_region (region : Region) (board : β) (events : List (Event β)) :
    (fromStart region board events).1.region = region :=
  behind_keeps (P := fun s => s.1.region = region)
    (fun s event same => (happen_region s event).trans same) rfl events

/-- The interrupts of a frame. -/
theorem tally_edges_of_frame {s : Picture × β} {events : List (Event β)} (settled : s.1.Settled)
    (frame : WholeFrame s events) (enabled : Enabled s events) :
    tally edges s events = if 0 < tally races s events then 0 else 1 := by
  have region : (behind s events).1.region = s.1.region :=
    behind_keeps (P := fun t => t.1.region = s.1.region)
      (fun t event same => (happen_region t event).trans same) rfl events
  have top {b : Beam} (line : b.line = 0) (dot : b.dot = 0) :
      ¬ b.AtReport s.1.region ∧ b.reports s.1.region = b.frame := by
    have before : ¬ b.Passed s.1.region.vblankLine 1 := by
      unfold Beam.Passed
      omega
    refine ⟨fun here => ?_, ?_⟩
    · unfold Beam.AtReport at here
      omega
    · unfold Beam.reports
      rw [if_neg before]
      rfl
  have last := frame.last
  unfold Beam.place at last
  simp only [Prod.mk.injEq] at last
  have here := top frame.first.1 frame.first.2
  have there := top last.2.1 last.2.2
  have count := tally_due settled events
  have split := tally_edges settled enabled
  have lost := tally_loses settled enabled
  have free := settled.free here.1
  have free' := (behind_settled settled events).free (by rw [region]; exact there.1)
  rw [region, here.2, there.2, last.1] at count
  rw [free, free'] at lost
  simp only [Bool.false_eq_true, or_false, false_or] at lost
  rw [if_congr lost.symm rfl rfl]
  split_ifs <;> omega

theorem reports_once (region : Region) (board : β) (events : List (Event β)) :
    ReportsOnce region board events := by
  have settled := fromStart_settled region board events
  have same := fromStart_region region board events
  have held : (fromStart region board events).1.suppressVblank = true ↔
      Raced (initial region, board) events := held_iff_raced (initial_settled region) rfl events
  refine ⟨?_, ?_, ?_, ?_, ?_, ?_, ?_⟩
  · intro now up
    have blank := settled.shown up
    rw [same] at blank
    exact blank
  · intro now event up
    rw [settled.raises_eq, Bool.and_eq_true] at up
    have parts := due_iff.mp up.1
    rw [same] at parts
    exact parts
  · intro frame
    exact Nat.le_trans (Nat.le_add_right _ _)
      (tally_raisesIn_le (s := (initial region, board)) (initial_settled region) frame events)
  · intro now here
    rw [← same] at here
    have ticks : due (fromStart region board events) .tick = true := decide_eq_true here
    rw [← held, Bool.not_eq_true, settled.vblank_happen, ticks, settled.down here]
    simp
  · intro now event up down
    have falls := settled.of_falls up down
    rw [same] at falls
    exact falls
  · intro now high
    unfold nmi at high
    rw [Bool.and_eq_true] at high
    exact high.1
  · intro before during _ start frame enabled
    exact tally_edges_of_frame (fromStart_settled region board before) frame enabled

/-! ## A frame without rendering -/

/-- While nothing is rendered no dot is left out. -/
theorem advance_dark {b : Beam} {region : Region} (h : b.InRange region) :
    dotsPerLine * (b.advance region false).row region + (b.advance region false).dot =
      dotsPerLine * b.row region + b.dot + 1 := by
  have moved := h.position_advance false
  have skips : b.skips region false = false := by
    unfold Beam.skips
    rw [Bool.and_false, Bool.false_and]
  rw [skips] at moved
  exact moved

/-- The dots of a unit that does not render. -/
structure Idles (n : Nat) (s t : Picture × β) : Prop where
  control : t.1.control = s.1.control
  dark : t.1.mask.renders = false
  region : t.1.region = s.1.region
  range : t.1.beam.InRange s.1.region
  dots : dotsPerLine * t.1.beam.row s.1.region + t.1.beam.dot =
    dotsPerLine * s.1.beam.row s.1.region + s.1.beam.dot + n

theorem idles {s : Picture × β} (dark : s.1.mask.renders = false)
    (range : s.1.beam.InRange s.1.region) (n : Nat) :
    Idles n s (behind s (List.replicate n .tick)) := by
  induction n with
  | zero => exact ⟨rfl, dark, rfl, range, rfl⟩
  | succ n ih =>
    rw [List.replicate_succ', behind_append]
    show Idles (n + 1) s (happen (behind s (List.replicate n .tick)) .tick)
    generalize behind s (List.replicate n .tick) = t at ih ⊢
    have setup : (happen t .tick).1.setup = _ := tick_setup t.1 t.2
    have beam := happen_tick_beam t
    rw [ih.dark, ih.region] at beam
    refine ⟨?_, ?_, ?_, ?_, ?_⟩
    · exact (congrArg Setup.control setup).trans ih.control
    · exact (congrArg (fun s => s.mask.renders) setup).trans ih.dark
    · exact (happen_region t .tick).trans ih.region
    · rw [beam]
      exact (Beam.advance_ahead ih.range false).inRange
    · rw [beam, advance_dark ih.range, ih.dots]
      rfl

/-- From the top of a frame it takes as many dots to the top of the next as a frame has. -/
theorem wholeFrame_of_ticks {s : Picture × β} (dark : s.1.mask.renders = false)
    (range : s.1.beam.InRange s.1.region) (first : s.1.beam.line = 0 ∧ s.1.beam.dot = 0) {n : Nat}
    (frame : n = dotsPerLine * s.1.region.scanlines) : WholeFrame s (List.replicate n .tick) := by
  have idle := idles dark range n
  refine ⟨first, ?_⟩
  have line := idle.range.line
  have dot := idle.range.dot
  have dots := idle.dots
  generalize (behind s (List.replicate n .tick)).1.beam = b at line dot dots ⊢
  unfold Beam.row at dots
  rw [first.1, first.2, frame] at dots
  unfold Beam.place
  simp only [Prod.mk.injEq]
  generalize s.1.region = region at line dots
  cases region <;> simp only [Region.scanlines, dotsPerLine] at line dot dots <;> omega

theorem tally_races_of_ticks (s : Picture × β) (n : Nat) :
    tally races s (List.replicate n .tick) = 0 := by
  induction n generalizing s with
  | zero => rfl
  | succ n ih =>
    rw [List.replicate_succ, tally, ih]
    rfl

/-- A program enables the interrupt and lets a frame pass. -/
def enabling : List (Event Board) := [.write 0 0x80]

def plainFrame : List (Event Board) := List.replicate (341 * 262) .tick

/-- The first frame, if a program does nothing but enable the interrupt. -/
theorem plainFrame_interrupts :
    WholeFrame (fromStart .ntsc Board.empty enabling) plainFrame ∧
      Enabled (fromStart .ntsc Board.empty enabling) plainFrame ∧
        tally edges (fromStart .ntsc Board.empty enabling) plainFrame = 1 := by
  have dark : (fromStart .ntsc Board.empty enabling).1.mask.renders = false := by
    show Mask.renders ⟨0⟩ = false
    decide
  have settled := fromStart_settled .ntsc Board.empty enabling
  have whole : WholeFrame (fromStart .ntsc Board.empty enabling) plainFrame :=
    wholeFrame_of_ticks dark settled.range ⟨rfl, rfl⟩ (by decide)
  have enabled : Enabled (fromStart .ntsc Board.empty enabling) plainFrame := by
    intro before part
    obtain ⟨-, same⟩ := List.prefix_replicate_iff.mp part
    rw [same, (idles dark settled.range before.length).control]
    show Control.nmiEnabled ⟨0x80⟩ = true
    decide
  have reports := reports_once .ntsc Board.empty (enabling ++ plainFrame)
  have one := reports.interrupts enabling plainFrame rfl whole enabled
  have quiet : tally races (fromStart .ntsc Board.empty enabling) plainFrame = 0 :=
    tally_races_of_ticks _ _
  rw [quiet, if_neg (Nat.lt_irrefl 0)] at one
  exact ⟨whole, enabled, one⟩

end Famiclone.Picture
