import Famiclone.Proofs.Sound.Past

/-!
# The schedule of the frame sequencer

The sequencer compares a counter with the steps of its schedule, so it would miss all later steps if the
counter ever ran past one, and a write to its register changes the schedule only some cycles later. A past
tells when the sequence was started last, and in which mode, without the counter: by the latest order that
has come due. The counter is then what is left of the cycles since the start in periods of the schedule.
-/
namespace Famiclone

/-- What happens at a cycle of the period, read off the schedule by kinds of clocks. -/
theorem Schedule.event_eq (region : Region) (fiveStep : Bool) (cycle : Nat) :
    let s := Schedule.of region fiveStep
    s.event fiveStep cycle = ⟨decide (cycle ∈ [s.first, s.second, s.third, s.fifth]),
      decide (cycle ∈ [s.second, s.fifth]),
      !fiveStep && decide (cycle ∈ [s.fourth, s.fifth, s.last])⟩ := by
  cases region <;> cases fiveStep <;> simp only [Schedule.of, Schedule.event, List.mem_cons,
    List.not_mem_nil, or_false, Bool.not_false, Bool.not_true, Bool.true_and, Bool.false_and] <;>
    split_ifs <;> simp <;> omega

theorem Schedule.one_lt_last (region : Region) (fiveStep : Bool) :
    1 < (Schedule.of region fiveStep).last := by
  cases region <;> cases fiveStep <;> decide

namespace Sequencer

variable {s : Sequencer}

theorem tick_of_due (due : s.restartIn = 1) : s.tick = s.restart := if_pos due

theorem tick_of_not_due (waits : s.restartIn ≠ 1) :
    s.tick = { s with restartIn := s.restartIn - 1 }.advance := if_neg waits

end Sequencer

namespace SoundChip

/-- The slow parts of the channels are clocked, as far as they are due. -/
def clocked (c : SoundChip) (quarter half : Bool) : SoundChip :=
  let c := if quarter then c.clockQuarter else c
  if half then c.clockHalf else c

theorem tick_clocked (c : SoundChip) : c.tick =
    (c.counted.clocked c.sequencer.tick.1.quarter c.sequencer.tick.1.half).clockTimers := rfl

theorem tick_sequencerValue (c : SoundChip) : c.tick.sequencerValue = c.sequencerValue := by
  unfold tick
  dsimp only
  split <;> split <;> rfl

theorem write_sequencer (c : SoundChip) (address : UInt16) (value : UInt8) :
    (c.write address value).sequencerValue = (if address = 0x4017 then value else c.sequencerValue) ∧
      (c.write address value).sequencer =
        if address = 0x4017 then c.sequencer.write value c.odd else c.sequencer := by
  by_cases own : address = 0x4017
  · subst own
    exact ⟨rfl, rfl⟩
  · rw [if_neg own, if_neg own]
    unfold write
    dsimp only
    split_ifs
    · split <;> exact ⟨rfl, rfl⟩
    · exact ⟨rfl, rfl⟩
    · exact ⟨rfl, rfl⟩

end SoundChip

namespace Sound

/-! ## Orders and starts -/

/-- An order to start the sequence again. -/
structure Order where
  value : UInt8
  /-- The cycles that had elapsed. -/
  cycles : Nat

namespace Order

/-- The mode that is ordered. -/
def fiveStep (o : Order) : Bool := bit o.value 7

/-- Whether the interrupt is inhibited, which an order does at once. -/
def inhibit (o : Order) : Bool := bit o.value 6

/-- The cycle in which the sequence starts again, always an odd one. -/
def due (o : Order) : Nat := o.cycles + 3 + o.cycles % 2

end Order

/-- A start of the sequence. -/
structure Start where
  /-- The cycle of the start. -/
  cycle : Nat
  fiveStep : Bool

namespace Past

/-- The latest order since power-on. -/
def lastOrder? : Past → Option Order
  | [] => none
  | .powerOn :: _ => none
  | event :: before => ((order? before event).map (⟨·, cycles before⟩)).or (lastOrder? before)

/-- The order that comes due in the next cycle. -/
def dueOrder? (past : Past) : Option Order := past.lastOrder?.filter (·.due = past.cycles + 1)

/-- The last start of the sequence. At power-on it starts in the shorter mode. -/
def start : Past → Start
  | [] => ⟨0, false⟩
  | .powerOn :: _ => ⟨0, false⟩
  | .tick :: before =>
    match dueOrder? before with
    | some order => ⟨cycles before + 1, order.fiveStep⟩
    | none => start before
  | _ :: before => start before

def inhibit (past : Past) : Bool := past.lastOrder?.any Order.inhibit

/-- The schedule in force. -/
def schedule (past : Past) (region : Region) : Schedule := .of region past.start.fiveStep

/-- Cycles since the start of the period. -/
def phase (past : Past) (region : Region) : Nat :=
  (past.cycles - past.start.cycle) % (past.schedule region).last

def quarter (past : Past) (region : Region) : Bool :=
  match past.dueOrder? with
  | some order => order.fiveStep
  | none =>
    let steps := past.schedule region
    past.phase region + 1 ∈ [steps.first, steps.second, steps.third, steps.fifth]

def half (past : Past) (region : Region) : Bool :=
  match past.dueOrder? with
  | some order => order.fiveStep
  | none =>
    let steps := past.schedule region
    past.phase region + 1 ∈ [steps.second, steps.fifth]

/-- Whether the next cycle sets the interrupt flag. -/
def interrupts (past : Past) (region : Region) : Bool :=
  let steps := past.schedule region
  past.dueOrder?.isNone && !past.start.fiveStep && !past.inhibit &&
    decide (past.phase region + 1 ∈ [steps.fourth, steps.fifth, steps.last])

/-- A past in which neither a cycle has passed nor an order has been given since another one. -/
structure Like (past before : Past) : Prop where
  cycles : past.cycles = before.cycles
  start : past.start = before.start

theorem Like.phase {past before : Past} (h : Like past before) (region : Region) :
    past.phase region = before.phase region := by
  unfold Past.phase schedule
  rw [h.cycles, h.start]

/-- Nothing but a cycle and the return of the power makes a difference. -/
theorem Like.still {event : Event} (still : event ≠ .tick) (powered : event ≠ .powerOn)
    (before : Past) : Like (event :: before) before := by
  cases event with
  | tick => exact absurd rfl still
  | powerOn => exact absurd rfl powered
  | write | readStatus | deliver | takeSamples | reset | setSettings => exact ⟨rfl, rfl⟩

section Order

variable {before : Past} {event : Event}

/-- An order is neither a cycle nor the return of the power. -/
theorem Like.order {value : UInt8} (told : order? before event = some value) :
    Like (event :: before) before :=
  .still (by rintro rfl; contradiction) (by rintro rfl; contradiction) before

theorem lastOrder?_of_order {value : UInt8} (told : order? before event = some value) :
    lastOrder? (event :: before) = some ⟨value, before.cycles⟩ := by
  rw [lastOrder?, told]
  · rfl
  · rintro rfl
    contradiction

theorem lastOrder?_of_none (powered : event ≠ .powerOn) (none : order? before event = none) :
    lastOrder? (event :: before) = before.lastOrder? := by
  rw [lastOrder?, none]
  · rfl
  · exact powered

end Order

/-- A cycle in which an order comes due starts the sequence. -/
theorem start_of_due {past : Past} {o : Order} (due : past.dueOrder? = some o) :
    Past.start (.tick :: past) = ⟨past.cycles + 1, o.fiveStep⟩ := by
  rw [Past.start, due]

theorem start_of_none {past : Past} (waits : past.dueOrder? = none) :
    Past.start (.tick :: past) = past.start := by
  rw [Past.start, waits]

theorem start_le (past : Past) : past.start.cycle ≤ past.cycles := by
  induction past with
  | nil => exact Nat.le_refl 0
  | cons event before ih =>
    cases event with
    | tick =>
      cases due : Past.dueOrder? before with
      | none =>
        rw [start_of_none due]
        exact Nat.le_succ_of_le ih
      | some o =>
        rw [start_of_due due]
        exact Nat.le_refl _
    | powerOn => exact Nat.le_refl 0
    | write | readStatus | deliver | takeSamples | reset | setSettings => exact ih

/-- With a start a period begins. -/
theorem phase_of_due {past : Past} {o : Order} (due : past.dueOrder? = some o) (region : Region) :
    Past.phase (.tick :: past) region = 0 := by
  unfold Past.phase
  rw [start_of_due due]
  show (past.cycles + 1 - (past.cycles + 1)) % _ = 0
  rw [Nat.sub_self, Nat.zero_mod]

/-- Other cycles bring a period on, and behind its last one the next begins. -/
theorem phase_of_none {past : Past} (waits : past.dueOrder? = none) (region : Region) :
    Past.phase (.tick :: past) region =
      if past.phase region + 1 = (past.schedule region).last then 0 else past.phase region + 1 := by
  have started := past.start_le
  have long : 1 < (past.schedule region).last := Schedule.one_lt_last region past.start.fiveStep
  have elapsed : past.cycles + 1 - past.start.cycle = past.cycles - past.start.cycle + 1 := by omega
  have next : Past.phase (.tick :: past) region =
      (past.cycles - past.start.cycle + 1) % (past.schedule region).last := by
    rw [← elapsed, Past.phase, Past.schedule, start_of_none waits]
    rfl
  have below := Nat.mod_lt (past.cycles - past.start.cycle) (Nat.lt_trans Nat.one_pos long)
  rw [next, Nat.add_mod_eq_ite, Nat.mod_eq_of_lt long]
  unfold Past.phase
  split_ifs <;> omega

end Past

/-! ## The sequencer of a unit with a past -/

/-- The sequence goes on as the past has started it. -/
structure Running (region : Region) (past : Past) (c : SoundChip) : Prop where
  cycles : c.cycles = past.cycles
  fiveStep : c.sequencer.fiveStep = past.start.fiveStep
  cycle : c.sequencer.cycle = past.phase region
  region : c.sequencer.region = region

/-- The sequencer stands where the past has brought it. -/
structure Scheduled (region : Region) (past : Past) (c : SoundChip) : Prop
    extends Running region past c where
  value : c.sequencerValue = past.last 0x4017
  next : c.sequencer.nextFiveStep = past.lastOrder?.any Order.fiveStep
  inhibit : c.sequencer.inhibit = past.inhibit
  restartIn : c.sequencer.restartIn = past.lastOrder?.elim 0 Order.due - past.cycles

theorem Running.like {region : Region} {past later : Past} {c d : SoundChip}
    (h : Running region past c) (like : Past.Like later past) (cycles : d.cycles = c.cycles)
    (fiveStep : d.sequencer.fiveStep = c.sequencer.fiveStep)
    (cycle : d.sequencer.cycle = c.sequencer.cycle)
    (region' : d.sequencer.region = c.sequencer.region) : Running region later d where
  cycles := by rw [cycles, h.cycles, like.cycles]
  fiveStep := by rw [fiveStep, h.fiveStep, like.start]
  cycle := by rw [cycle, h.cycle, like.phase]
  region := region'.trans h.region

namespace Scheduled

variable {region : Region} {past : Past} {c : SoundChip}

/-- What the return of the power leaves. -/
theorem initial (region : Region) {past : Past} (cycles : past.cycles = 0)
    (value : past.last 0x4017 = 0) (start : past.start = ⟨0, false⟩)
    (order : past.lastOrder? = none) : Scheduled region past (.initial region) where
  cycles := cycles.symm
  fiveStep := by
    rw [start]
    rfl
  cycle := by
    unfold Past.phase Past.schedule
    rw [start, cycles, Nat.zero_sub, Nat.zero_mod]
    rfl
  region := rfl
  value := value.symm
  next := by
    rw [order]
    rfl
  inhibit := by
    unfold Past.inhibit
    rw [order]
    rfl
  restartIn := by
    rw [order, cycles]
    rfl

/-- An order tells what comes due, and changes nothing before. -/
theorem order (h : Scheduled region past c) {event : Event} {value : UInt8}
    (order : Past.order? past event = some value) (kept : Past.last 0x4017 (event :: past) = value)
    {d : SoundChip} (cycles : d.cycles = c.cycles) (written : d.sequencerValue = value)
    (same : ∃ irqFlag, d.sequencer = { c.sequencer with irqFlag }.write value c.odd) :
    Scheduled region (event :: past) d := by
  obtain ⟨irqFlag, same⟩ := same
  have like := Past.Like.order order
  have told := Past.lastOrder?_of_order order
  have odd : c.odd = (past.cycles % 2 == 1) := by
    rw [← h.cycles]
    rfl
  refine { h.toRunning.like like cycles ?_ ?_ ?_ with
    value := written.trans kept.symm, next := ?_, inhibit := ?_, restartIn := ?_ }
  · rw [same]
    rfl
  · rw [same]
    rfl
  · rw [same]
    rfl
  · rw [same, told]
    rfl
  · rw [same, Past.inhibit, told]
    rfl
  · rw [same, told, like.cycles]
    show (if c.odd then 4 else 3) = past.cycles + 3 + past.cycles % 2 - past.cycles
    rw [odd]
    split_ifs with parity <;> rw [beq_iff_eq] at parity <;> omega

/-- What the sequencer does not hear of leaves it where it stands; the flag may be taken back. -/
theorem other (h : Scheduled region past c) (event : Event) (still : event ≠ .tick)
    (powered : event ≠ .powerOn) (none : Past.order? past event = none)
    (kept : Past.last 0x4017 (event :: past) = past.last 0x4017)
    {d : SoundChip} (cycles : d.cycles = c.cycles) (value : d.sequencerValue = c.sequencerValue)
    (same : ∃ irqFlag, d.sequencer = { c.sequencer with irqFlag }) :
    Scheduled region (event :: past) d := by
  obtain ⟨irqFlag, same⟩ := same
  have like := Past.Like.still still powered past
  have told := Past.lastOrder?_of_none powered none
  refine { h.toRunning.like like cycles ?_ ?_ ?_ with
    value := value.trans (h.value.trans kept.symm), next := ?_, inhibit := ?_, restartIn := ?_ }
  · rw [same]
  · rw [same]
  · rw [same]
  · rw [same, told]
    exact h.next
  · rw [same, Past.inhibit, told]
    exact h.inhibit
  · rw [same, told, like.cycles]
    exact h.restartIn

/-- The counter of cycles until a restart tells whether an order comes due. -/
theorem restartIn_eq_one_iff (h : Scheduled region past c) :
    c.sequencer.restartIn = 1 ↔ past.dueOrder?.isSome := by
  rw [h.restartIn]
  unfold Past.dueOrder?
  cases past.lastOrder? with
  | none => simp
  | some o =>
    simp only [Option.elim_some, Option.isSome_filter, Option.any_some, decide_eq_true_eq]
    omega

theorem dueOrder?_eq (h : Scheduled region past c) (due : c.sequencer.restartIn = 1) :
    ∃ o, past.dueOrder? = some o ∧ past.lastOrder? = some o ∧ o.due = past.cycles + 1 ∧
      o.fiveStep = c.sequencer.nextFiveStep := by
  obtain ⟨o, found⟩ := Option.isSome_iff_exists.mp (h.restartIn_eq_one_iff.mp due)
  have parts := Option.filter_eq_some_iff.mp found
  refine ⟨o, found, parts.1, of_decide_eq_true parts.2, ?_⟩
  rw [h.next, parts.1]
  rfl

theorem dueOrder?_eq_none (h : Scheduled region past c) (waits : c.sequencer.restartIn ≠ 1) :
    past.dueOrder? = none := by
  rw [ne_eq, h.restartIn_eq_one_iff] at waits
  exact Option.not_isSome_iff_eq_none.mp waits

/-- The schedule that the sequencer looks at is the one in force. -/
theorem schedule (h : Scheduled region past c) :
    Schedule.of c.sequencer.region c.sequencer.fiveStep = past.schedule region := by
  rw [h.region, h.fiveStep]
  rfl

/-- A cycle in which an order comes due starts the sequence. -/
theorem starts (h : Scheduled region past c) (due : c.sequencer.restartIn = 1) :
    Scheduled region (.tick :: past) c.tick := by
  obtain ⟨o, found, latest, now, mode⟩ := h.dueOrder?_eq due
  have seq : c.tick.sequencer = c.sequencer.restart.2 := by
    rw [c.tick_sequencer, Sequencer.tick_of_due due]
  refine ⟨⟨(SoundChip.tick_cycles c).trans (congrArg (· + 1) h.cycles), ?_, ?_, ?_⟩,
    (SoundChip.tick_sequencerValue c).trans h.value, ?_, ?_, ?_⟩
  · rw [seq, Past.start_of_due found, mode]
    rfl
  · rw [seq, Past.phase_of_due found]
    rfl
  · rw [seq]
    exact h.region
  · rw [seq]
    exact h.next
  · rw [seq]
    exact h.inhibit
  · rw [seq]
    show 0 = past.lastOrder?.elim 0 Order.due - (past.cycles + 1)
    rw [latest, ← now]
    exact (Nat.sub_self o.due).symm

/-- In any other cycle the counter goes on by one in its period. -/
theorem goesOn (h : Scheduled region past c) (due : c.sequencer.restartIn ≠ 1) :
    Scheduled region (.tick :: past) c.tick := by
  have waits := h.dueOrder?_eq_none due
  have seq : c.tick.sequencer =
      { c.sequencer with restartIn := c.sequencer.restartIn - 1 }.advance.2 := by
    rw [c.tick_sequencer, Sequencer.tick_of_not_due due]
  refine ⟨⟨(SoundChip.tick_cycles c).trans (congrArg (· + 1) h.cycles), ?_, ?_, ?_⟩,
    (SoundChip.tick_sequencerValue c).trans h.value, ?_, ?_, ?_⟩
  · rw [seq, Past.start_of_none waits]
    exact h.fiveStep
  · rw [seq, Past.phase_of_none waits, ← h.cycle, ← h.schedule]
    rfl
  · rw [seq]
    exact h.region
  · rw [seq]
    exact h.next
  · rw [seq]
    exact h.inhibit
  · rw [seq]
    show c.sequencer.restartIn - 1 = past.lastOrder?.elim 0 Order.due - (past.cycles + 1)
    rw [h.restartIn]
    omega

theorem tick (h : Scheduled region past c) : Scheduled region (.tick :: past) c.tick := by
  by_cases due : c.sequencer.restartIn = 1
  · exact h.starts due
  · exact h.goesOn due

/-- A write to the register of the sequencer is an order, and the sequencer hears of no other one. -/
theorem write (h : Scheduled region past c) (address : UInt16) (value : UInt8) :
    Scheduled region (.write address value :: past) (c.write address value) := by
  obtain ⟨kept, same⟩ := c.write_sequencer address value
  have cycles := c.write_cycles address value
  by_cases own : address = 0x4017
  · subst own
    exact h.order rfl rfl cycles kept ⟨c.sequencer.irqFlag, same⟩
  · rw [if_neg own] at kept same
    exact h.other (.write address value) nofun nofun (if_neg own) (if_neg own) cycles kept
      ⟨c.sequencer.irqFlag, same⟩

end Scheduled

theorem aged_scheduled (region : Region) (settings : AudioSettings) (past : Past) :
    Scheduled region past ((initial region settings).aged past).chip := by
  induction past with
  | nil => exact .initial region rfl rfl rfl rfl
  | cons event before ih =>
    have built := (initial region settings).aged_region before
    rw [aged_cons]
    generalize (initial region settings).aged before = s at ih built ⊢
    cases event with
    | tick =>
      show Scheduled region _ s.tick.chip
      rw [s.tick_chip]
      exact ih.tick
    | write address value => exact ih.write address value
    | readStatus => exact ih.other .readStatus nofun nofun rfl rfl rfl rfl ⟨false, rfl⟩
    | reset =>
      exact ih.order rfl rfl rfl ih.value ⟨false, congrArg (Sequencer.write _ · _) ih.value⟩
    | powerOn =>
      show Scheduled region (.powerOn :: before) (.initial s.region)
      rw [built]
      exact .initial region rfl rfl rfl rfl
    | deliver value =>
      exact ih.other (.deliver value) nofun nofun rfl rfl rfl rfl ⟨s.chip.sequencer.irqFlag, rfl⟩
    | takeSamples =>
      exact ih.other .takeSamples nofun nofun rfl rfl rfl rfl ⟨s.chip.sequencer.irqFlag, rfl⟩
    | setSettings settings =>
      exact ih.other (.setSettings settings) nofun nofun rfl rfl rfl rfl
        ⟨s.chip.sequencer.irqFlag, rfl⟩

/-! ## The events of the next cycle -/

namespace Scheduled

variable {region : Region} {past : Past} {c : SoundChip}

/-- The clocks of the next cycle, and the interrupt. -/
theorem event (h : Scheduled region past c) :
    c.sequencer.tick.1.quarter = past.quarter region ∧ c.sequencer.tick.1.half = past.half region ∧
      c.sequencer.tick.2.irqFlag = (c.sequencer.irqFlag || past.interrupts region) := by
  unfold Past.quarter Past.half Past.interrupts
  by_cases due : c.sequencer.restartIn = 1
  · obtain ⟨o, found, -, -, mode⟩ := h.dueOrder?_eq due
    rw [Sequencer.tick_of_due due, found]
    exact ⟨mode.symm, mode.symm, (Bool.or_false _).symm⟩
  · have event := Schedule.event_eq c.sequencer.region c.sequencer.fiveStep (c.sequencer.cycle + 1)
    dsimp only at event
    rw [h.schedule, h.cycle] at event
    rw [Sequencer.tick_of_not_due due, h.dueOrder?_eq_none due]
    unfold Sequencer.advance
    dsimp only
    rw [h.schedule, h.cycle, event]
    refine ⟨rfl, rfl, ?_⟩
    rw [← h.fiveStep, ← h.inhibit]
    dsimp only
    cases c.sequencer.fiveStep <;> cases c.sequencer.inhibit <;> simp

end Scheduled

/-! ## What an order does -/

namespace Past

/-- Neither an order nor the return of the power, behind a past. -/
def Quiet (before : Past) : Past → Prop
  | [] => True
  | event :: later => event ≠ .powerOn ∧ order? (later ++ before) event = none ∧ Quiet before later

variable {before later : Past}

theorem Quiet.lastOrder? (quiet : Quiet before later) :
    Past.lastOrder? (later ++ before) = before.lastOrder? := by
  induction later with
  | nil => rfl
  | cons event later ih =>
    obtain ⟨powered, none, rest⟩ := quiet
    exact (lastOrder?_of_none powered none).trans (ih rest)

/-- The order that comes due, as long as no other one is given. -/
theorem Quiet.dueOrder? {o : Order} (quiet : Quiet before later) (latest : before.lastOrder? = some o) :
    Past.dueOrder? (later ++ before) =
      if o.due = Past.cycles (later ++ before) + 1 then some o else none := by
  unfold Past.dueOrder?
  rw [quiet.lastOrder?, latest, Option.filter_some]
  simp only [decide_eq_true_eq]

/-- What is in force stays so until the order comes due, and the sequence starts when it does. -/
theorem Quiet.start {o : Order} (quiet : Quiet before later) (latest : before.lastOrder? = some o)
    (ahead : before.cycles < o.due) :
    Past.start (later ++ before) =
      if o.due ≤ Past.cycles (later ++ before) then ⟨o.due, o.fiveStep⟩ else before.start := by
  induction later with
  | nil => exact (if_neg (Nat.not_le.mpr ahead)).symm
  | cons event later ih =>
    obtain ⟨powered, -, rest⟩ := quiet
    have ih := ih rest
    rw [List.cons_append]
    cases event with
    | tick =>
      rw [Past.start, rest.dueOrder? latest, Past.cycles]
      by_cases now : o.due = Past.cycles (later ++ before) + 1
      · rw [if_pos now, if_pos (Nat.le_of_eq now), now]
      · have same : o.due ≤ Past.cycles (later ++ before) + 1 ↔
            o.due ≤ Past.cycles (later ++ before) := by
          omega
        rw [if_neg now, if_congr same rfl rfl]
        exact ih
    | powerOn => exact absurd rfl powered
    | write | readStatus | deliver | takeSamples | reset | setSettings => exact ih

/-- Without an order the sequence of the start goes on. -/
theorem Quiet.start_of_none (quiet : Quiet before later) (never : before.lastOrder? = none) :
    Past.dueOrder? (later ++ before) = none ∧ Past.start (later ++ before) = before.start := by
  induction later with
  | nil =>
    refine ⟨?_, rfl⟩
    unfold Past.dueOrder?
    rw [List.nil_append, never, Option.filter_none]
  | cons event later ih =>
    have nothing : Past.dueOrder? ((event :: later) ++ before) = none := by
      unfold Past.dueOrder?
      rw [quiet.lastOrder?, never, Option.filter_none]
    obtain ⟨powered, -, rest⟩ := quiet
    obtain ⟨waits, same⟩ := ih rest
    refine ⟨nothing, ?_⟩
    rw [List.cons_append]
    cases event with
    | tick =>
      rw [Past.start, waits]
      exact same
    | powerOn => exact absurd rfl powered
    | write | readStatus | deliver | takeSamples | reset | setSettings => exact same

end Past

/-! ## The interrupt flag -/

/-- What takes the interrupt flag back. -/
inductive Acknowledges : Event → Prop where
  | readStatus : Acknowledges .readStatus
  | inhibit {value : UInt8} (set : bit value 6 = true) : Acknowledges (.write 0x4017 value)
  | reset : Acknowledges .reset
  | powerOn : Acknowledges .powerOn

theorem acknowledges_write {address : UInt16} {value : UInt8} :
    Acknowledges (.write address value) ↔ address = 0x4017 ∧ bit value 6 = true := by
  constructor
  · rintro (_ | set)
    exact ⟨rfl, set⟩
  · rintro ⟨rfl, set⟩
    exact .inhibit set

/-- Only a cycle sets the flag, and only its acknowledgements take it back. -/
theorem irqFlag_happen (s : Sound) {event : Event} (still : event ≠ .tick) :
    (s.happen event).chip.sequencer.irqFlag = true ↔
      s.chip.sequencer.irqFlag = true ∧ ¬ Acknowledges event := by
  have falls {event : Event} (taken : Acknowledges event)
      (none : (s.happen event).chip.sequencer.irqFlag = false) :
      (s.happen event).chip.sequencer.irqFlag = true ↔
        s.chip.sequencer.irqFlag = true ∧ ¬ Acknowledges event := by
    rw [none]
    exact ⟨fun h => absurd h Bool.false_ne_true, fun h => absurd taken h.2⟩
  have stays {event : Event} (silent : ¬ Acknowledges event)
      (same : (s.happen event).chip.sequencer.irqFlag = s.chip.sequencer.irqFlag) :
      (s.happen event).chip.sequencer.irqFlag = true ↔
        s.chip.sequencer.irqFlag = true ∧ ¬ Acknowledges event := by
    rw [same]
    exact (and_iff_left silent).symm
  cases event with
  | tick => exact absurd rfl still
  | readStatus => exact falls .readStatus rfl
  | reset => exact falls .reset rfl
  | powerOn => exact falls .powerOn rfl
  | deliver value => exact stays (by rintro ⟨⟩) rfl
  | takeSamples => exact stays (by rintro ⟨⟩) rfl
  | setSettings settings => exact stays (by rintro ⟨⟩) rfl
  | write address value =>
    show (s.chip.write address value).sequencer.irqFlag = true ↔ _
    rw [(s.chip.write_sequencer address value).2, acknowledges_write]
    by_cases own : address = 0x4017
    · rw [if_pos own]
      show (s.chip.sequencer.irqFlag && !bit value 6) = true ↔ _
      simp [own]
    · simp [own]

/-! ## The whole schedule -/

/-- A unit whose sequencer does what the past of the unit says, and nothing else. -/
structure OnSchedule (region : Region) (past : Past) (s : Sound) : Prop where
  /-- The mode in force is that of the last start. -/
  fiveStep : s.chip.sequencer.fiveStep = past.start.fiveStep
  /-- The next cycle has the clocks of the schedule, with no others. -/
  clocks : s.tick.chip =
    (s.chip.counted.clocked (past.quarter region) (past.half region)).clockTimers
  /-- It sets the interrupt flag at the cycles of the schedule, unless that is inhibited. -/
  sets : s.tick.chip.sequencer.irqFlag = (s.chip.sequencer.irqFlag || past.interrupts region)
  /-- Nothing else sets it, and only its acknowledgements take it back. -/
  falls : ∀ event, event ≠ .tick → ((s.happen event).chip.sequencer.irqFlag = true ↔
    s.chip.sequencer.irqFlag = true ∧ ¬ Acknowledges event)
  /-- An order that no other one follows starts the sequence when it comes due, in an odd cycle. Until
  then what was in force when it was given stays so. -/
  ordered : ∀ event value (later before : Past), past = later ++ event :: before →
    Past.order? before event = some value → Past.Quiet (event :: before) later →
    let order : Order := ⟨value, before.cycles⟩
    order.due % 2 = 1 ∧
      past.dueOrder? = (if order.due = past.cycles + 1 then some order else none) ∧
      past.start = if order.due ≤ past.cycles then ⟨order.due, order.fiveStep⟩ else before.start
  /-- Without an order the sequence of the shorter mode goes on from power-on. -/
  unordered : ∀ later before : Past, past = later ++ before →
    before = [] ∨ before.head? = some .powerOn → Past.Quiet before later →
    past.dueOrder? = none ∧ past.start = ⟨0, false⟩

/-- The sequencer follows its schedule, whatever happens to the unit. -/
theorem sequencer_keeps_schedule (region : Region) (settings : AudioSettings) (past : Past) :
    OnSchedule region past ((initial region settings).aged past) := by
  have h := aged_scheduled region settings past
  generalize (initial region settings).aged past = s at h
  obtain ⟨quarter, half, flag⟩ := h.event
  refine ⟨h.fiveStep, ?_, ?_, fun event still => s.irqFlag_happen still, ?_, ?_⟩
  · rw [s.tick_chip, s.chip.tick_clocked, quarter, half]
  · rw [s.tick_chip, s.chip.tick_sequencer]
    exact flag
  · rintro event value later before rfl told quiet
    have latest := Past.lastOrder?_of_order told
    have like := Past.Like.order told
    have ahead : Past.cycles (event :: before) < before.cycles + 3 + before.cycles % 2 := by
      rw [like.cycles]
      omega
    refine ⟨?_, quiet.dueOrder? latest, ?_⟩
    · show (before.cycles + 3 + before.cycles % 2) % 2 = 1
      omega
    · rw [quiet.start latest ahead, like.start]
  · rintro later before rfl fresh quiet
    have start : before.lastOrder? = none ∧ before.start = ⟨0, false⟩ := by
      rcases fresh with rfl | first
      · exact ⟨rfl, rfl⟩
      · obtain ⟨rest, rfl⟩ : ∃ rest, before = .powerOn :: rest := by
          cases before with
          | nil => contradiction
          | cons event rest =>
            obtain rfl : event = .powerOn := Option.some.inj first
            exact ⟨rest, rfl⟩
        exact ⟨rfl, rfl⟩
    have goes := quiet.start_of_none start.1
    exact ⟨goes.1, goes.2.trans start.2⟩

example : Past.start [.tick, .tick, .tick, .write 0x4017 0x80] = ⟨3, true⟩ := rfl

end Sound

end Famiclone
