import Famiclone.Proofs.Sound.Schedule
import Mathlib.Logic.Function.Iterate

/-!
# How notes run down

A write to the last register of a pulse channel or the noise channel starts a note. The half-frame clocks
take its length down and the quarter-frame clocks its level, each after periods of their own, while timers
and sweeps are clocked in between. A channel is followed through any row of clocks, and only how many
there are of a kind matters. In the unit the clocks are those of the schedule.
-/
namespace Famiclone

/-! ## Envelopes and length counters under many clocks -/

/-- One clock more ends a round of clocks, or is one more in it. -/
theorem next_in_round (clocks last : Nat) :
    (clocks % (last + 1) = last ∧ (clocks + 1) % (last + 1) = 0 ∧
        (clocks + 1) / (last + 1) = clocks / (last + 1) + 1) ∨
      (clocks % (last + 1) < last ∧ (clocks + 1) % (last + 1) = clocks % (last + 1) + 1 ∧
        (clocks + 1) / (last + 1) = clocks / (last + 1)) := by
  by_cases ends : clocks % (last + 1) = last
  · have whole := Nat.succ_mod_succ_eq_zero_iff.mpr ends
    refine .inl ⟨ends, whole, ?_⟩
    rw [Nat.succ_div, if_pos (Nat.dvd_of_mod_eq_zero whole)]
  · have inside : ¬ last + 1 ∣ clocks + 1 := fun whole =>
      ends (Nat.succ_mod_succ_eq_zero_iff.mp (Nat.mod_eq_zero_of_dvd whole))
    have below : clocks % (last + 1) < last + 1 := Nat.mod_lt clocks (Nat.succ_pos last)
    refine .inr ⟨by omega, ?_, ?_⟩
    · rw [← Nat.mod_add_mod, Nat.mod_eq_of_lt (by omega)]
    · rw [Nat.succ_div, if_neg inside, Nat.add_zero]

namespace Envelope

/-- An envelope some clocks behind the one that has started it. -/
def fallen (e : Envelope) (clocks : Nat) : Envelope :=
  let steps := clocks / (e.volume + 1)
  { e with
    start := false
    divider := e.volume - clocks % (e.volume + 1)
    decay := if e.looping then 15 - steps % 16 else 15 - min 15 steps }

variable {e : Envelope}

theorem clock_of_start (started : e.start = true) : e.clock = e.fallen 0 := by
  unfold clock fallen
  dsimp only
  rw [if_pos started, Nat.zero_mod, Nat.zero_div]
  cases e.looping <;> rfl

/-- The divider goes round every volume plus one clocks, and each time the level falls by one. -/
theorem clock_fallen (e : Envelope) (clocks : Nat) :
    (e.fallen clocks).clock = e.fallen (clocks + 1) := by
  unfold clock fallen
  dsimp only
  rw [if_neg Bool.false_ne_true]
  obtain ⟨ends, first, steps⟩ | ⟨inside, more, steps⟩ := next_in_round clocks e.volume
  · rw [if_pos (by omega), first, steps]
    congr 1
    generalize clocks / (e.volume + 1) = steps
    cases e.looping <;> simp only [if_true, Bool.false_eq_true, if_false] <;> split_ifs <;> omega
  · rw [if_neg (by omega), more, steps, Nat.sub_sub]

/-- Clocks leave the bit for loops as it is. -/
theorem clock_looping (e : Envelope) : e.clock.looping = e.looping := by
  unfold clock
  split_ifs <;> rfl

/-- The clocks of a note, of which the first one starts it. -/
theorem iterate_clock (started : e.start = true) (clocks : Nat) :
    clock^[clocks + 1] e = e.fallen clocks := by
  induction clocks with
  | zero => exact clock_of_start started
  | succ clocks ih => rw [Function.iterate_succ_apply', ih, clock_fallen]

end Envelope

namespace LengthCounter

theorem iterate_clock (c : LengthCounter) (clocks : Nat) :
    clock^[clocks] c = if c.halt then c else { c with value := c.value - clocks } := by
  induction clocks with
  | zero => exact (ite_self c).symm
  | succ clocks ih =>
    rw [Function.iterate_succ_apply', ih]
    unfold clock
    cases halt : c.halt with
    | true => rw [if_pos rfl, if_pos halt, if_pos rfl]
    | false => rfl

theorem load_halt (c : LengthCounter) (value : UInt8) : (c.load value).halt = c.halt := by
  unfold load
  split <;> rfl

theorem clock_halt (c : LengthCounter) : c.clock.halt = c.halt := by
  unfold clock
  split <;> rfl

end LengthCounter

/-! ## Channels under rows of clocks -/

/-- A channel that plays notes through an envelope. -/
inductive Channel where
  | pulse (c : Pulse)
  | noise (c : Noise)

namespace Channel

inductive Clock where
  /-- The quarter-frame clock, for the envelope. -/
  | quarter
  /-- The half-frame clock, for the length counter. -/
  | half
  | sweep
  | timer
  deriving DecidableEq

def envelope : Channel → Envelope
  | .pulse c => c.envelope
  | .noise c => c.envelope

def length : Channel → LengthCounter
  | .pulse c => c.length
  | .noise c => c.length

def output : Channel → Nat
  | .pulse c => c.output
  | .noise c => c.output

def write (c : Channel) (register : Fin 4) (value : UInt8) : Channel :=
  match c with
  | .pulse c => .pulse (c.write register value)
  | .noise c => .noise (c.write register value)

/-- One clock. The noise channel has no sweep. -/
def clock : Channel → Clock → Channel
  | .pulse c, .quarter => .pulse { c with envelope := c.envelope.clock }
  | .pulse c, .half => .pulse { c with length := c.length.clock }
  | .pulse c, .sweep => .pulse c.clockSweep
  | .pulse c, .timer => .pulse c.clockTimer
  | .noise c, .quarter => .noise { c with envelope := c.envelope.clock }
  | .noise c, .half => .noise { c with length := c.length.clock }
  | .noise c, .sweep => .noise c
  | .noise c, .timer => .noise c.clockTimer

def run (c : Channel) (clocks : List Clock) : Channel := clocks.foldl clock c

theorem run_append (c : Channel) (first second : List Clock) :
    c.run (first ++ second) = (c.run first).run second := List.foldl_append

theorem write_last (c : Channel) (value : UInt8) :
    (c.write 3 value).envelope = { c.envelope with start := true } ∧
      (c.write 3 value).length = c.length.load value := by
  cases c <;> exact ⟨rfl, rfl⟩

/-- Each of the two counters has a kind of clocks of its own. -/
theorem clock_parts (c : Channel) (k : Clock) :
    (c.clock k).envelope = (if k = .quarter then c.envelope.clock else c.envelope) ∧
      (c.clock k).length = if k = .half then c.length.clock else c.length := by
  cases c with
  | pulse c =>
    cases k with
    | quarter | half => exact ⟨rfl, rfl⟩
    | sweep =>
      show c.clockSweep.envelope = c.envelope ∧ c.clockSweep.length = c.length
      unfold Pulse.clockSweep
      dsimp only
      split <;> exact ⟨rfl, rfl⟩
    | timer =>
      show c.clockTimer.envelope = c.envelope ∧ c.clockTimer.length = c.length
      unfold Pulse.clockTimer
      split <;> exact ⟨rfl, rfl⟩
  | noise c =>
    cases k with
    | quarter | half | sweep => exact ⟨rfl, rfl⟩
    | timer =>
      show c.clockTimer.envelope = c.envelope ∧ c.clockTimer.length = c.length
      unfold Noise.clockTimer
      split <;> exact ⟨rfl, rfl⟩

/-- In a row of clocks only their numbers matter to the two counters. -/
theorem run_parts (c : Channel) (clocks : List Clock) :
    (c.run clocks).envelope = Envelope.clock^[clocks.count .quarter] c.envelope ∧
      (c.run clocks).length = LengthCounter.clock^[clocks.count .half] c.length := by
  induction clocks generalizing c with
  | nil => exact ⟨rfl, rfl⟩
  | cons k clocks ih =>
    obtain ⟨envelope, length⟩ := c.clock_parts k
    obtain ⟨envelopes, lengths⟩ := ih (c.clock k)
    refine ⟨envelopes.trans ?_, lengths.trans ?_⟩
    · rw [envelope, List.count_cons]
      cases k <;> rfl
    · rw [length, List.count_cons]
      cases k <;> rfl

/-- Without a length a channel is silent. -/
theorem output_of_ended {c : Channel} (ended : c.length.value = 0) : c.output = 0 := by
  have silent : ¬ c.length.active := by
    rw [LengthCounter.active, ended]
    decide
  cases c with
  | pulse c => exact if_pos (.inr (.inl silent))
  | noise c => exact if_pos (.inr silent)

/-! ## Notes -/

/-- What is left of a note, after so many half-frame and quarter-frame clocks behind the write of a value
that has started it in a channel. -/
structure RunsDown (c : Channel) (value : UInt8) (halves quarters : Nat) (now : Channel) : Prop where
  /-- Every half-frame clock takes one off the length, down to zero. -/
  shortens : c.length.halt = false → now.length.value = noteLength value - halves
  /-- The channel is silent from the clock on that leaves no length. -/
  silent : c.length.halt = false → noteLength value ≤ halves → now.output = 0
  /-- A halted length stays as it was given. -/
  held : c.length.halt = true → now.length.value = noteLength value
  /-- The first quarter-frame clock sets the level, and after every period it is lower, down to zero. -/
  falls : c.envelope.looping = false → 0 < quarters →
    now.envelope.decay = 15 - min 15 ((quarters - 1) / (c.envelope.volume + 1))
  /-- A looping level is set again behind the zero. -/
  loops : c.envelope.looping = true → 0 < quarters →
    now.envelope.decay = 15 - (quarters - 1) / (c.envelope.volume + 1) % 16

/-- In any row of clocks a note runs down by their numbers. -/
theorem run_runsDown {c : Channel} (enabled : c.length.enabled = true) (value : UInt8)
    (clocks : List Clock) :
    RunsDown c value (clocks.count .half) (clocks.count .quarter) ((c.write 3 value).run clocks) := by
  obtain ⟨envelope, length⟩ := (c.write 3 value).run_parts clocks
  obtain ⟨envelope', length'⟩ := c.write_last value
  have loaded : c.length.load value = { c.length with value := noteLength value } := if_pos enabled
  rw [length', loaded, LengthCounter.iterate_clock] at length
  rw [envelope'] at envelope
  have level (began : 0 < clocks.count .quarter) : ((c.write 3 value).run clocks).envelope =
      { c.envelope with start := true }.fallen (clocks.count Clock.quarter - 1) := by
    rw [envelope, ← Envelope.iterate_clock rfl, Nat.sub_add_cancel began]
  have shortens (runs : c.length.halt = false) :
      ((c.write 3 value).run clocks).length.value = noteLength value - clocks.count .half := by
    rw [length, if_neg (ne_true_of_eq_false runs)]
  refine ⟨shortens, fun runs ends => ?_, fun halted => ?_, fun once began => ?_, fun again began => ?_⟩
  · refine output_of_ended ?_
    rw [shortens runs, Nat.sub_eq_zero_of_le ends]
  · rw [length, if_pos halted]
  · rw [level began]
    exact if_neg (ne_true_of_eq_false once)
  · rw [level began]
    exact if_pos again

/-! ## The bit of halted lengths and looping envelopes -/

/-- A channel in which one bit halts the length and lets the envelope loop. -/
def OneBit (c : Channel) : Prop := c.length.halt = c.envelope.looping

namespace OneBit

variable {c : Channel}

theorem write (h : c.OneBit) (register : Fin 4) (value : UInt8) : (c.write register value).OneBit := by
  unfold OneBit at h ⊢
  match register with
  | 0 => cases c <;> rfl
  | 1 | 2 => cases c <;> exact h
  | 3 =>
    obtain ⟨envelope, length⟩ := c.write_last value
    rw [envelope, length, LengthCounter.load_halt]
    exact h

theorem clock (h : c.OneBit) (k : Clock) : (c.clock k).OneBit := by
  obtain ⟨envelope, length⟩ := c.clock_parts k
  unfold OneBit at h ⊢
  rw [envelope, length, apply_ite Envelope.looping, apply_ite LengthCounter.halt,
    Envelope.clock_looping, LengthCounter.clock_halt, ite_self, ite_self, h]

theorem run (h : c.OneBit) (clocks : List Clock) : (c.run clocks).OneBit := by
  induction clocks generalizing c with
  | nil => exact h
  | cons k clocks ih => exact ih (h.clock k)

end OneBit

end Channel

/-! ## The channels of the unit -/

/-- The channels of the unit that play notes through an envelope. -/
inductive Voice where
  | pulse1
  | pulse2
  | noise
  deriving DecidableEq

namespace Voice

def base : Voice → Nat
  | .pulse1 => 0x4000
  | .pulse2 => 0x4004
  | .noise => 0x400C

def register (voice : Voice) (register : Fin 4) : UInt16 := .ofNat (voice.base + register)

theorem register_toNat (voice : Voice) (register : Fin 4) :
    (voice.register register).toNat = voice.base + register := by
  have low : voice.base ≤ 0x400C := by cases voice <;> decide
  exact UInt16.toNat_ofNat_of_lt' (show voice.base + register < 0x10000 by omega)

/-- The clocks of one cycle. The timers of the pulse channels run at half speed. -/
def clocks (voice : Voice) (quarter half odd : Bool) : List Channel.Clock :=
  (if quarter then [.quarter] else []) ++ (if half then [.half, .sweep] else []) ++
    if odd ∧ voice ≠ .noise then [] else [.timer]

theorem count_clocks (voice : Voice) (quarter half odd : Bool) :
    (voice.clocks quarter half odd).count .quarter = quarter.toNat ∧
      (voice.clocks quarter half odd).count .half = half.toNat := by
  cases voice <;> cases quarter <;> cases half <;> cases odd <;> exact ⟨rfl, rfl⟩

end Voice

namespace SoundChip

def channel (c : SoundChip) : Voice → Channel
  | .pulse1 => .pulse c.pulse1
  | .pulse2 => .pulse c.pulse2
  | .noise => .noise c.noise

theorem clocked_channel (c : SoundChip) (voice : Voice) (quarter half : Bool) :
    (c.clocked quarter half).channel voice = (c.channel voice).run
      ((if quarter then [.quarter] else []) ++ if half then [.half, .sweep] else []) := by
  cases voice <;> cases quarter <;> cases half <;> rfl

theorem clockTimers_channel (c : SoundChip) (voice : Voice) :
    c.clockTimers.channel voice =
      (c.channel voice).run (if c.odd ∧ voice ≠ .noise then [] else [.timer]) := by
  unfold clockTimers
  cases c.odd <;> cases voice <;> rfl

theorem tick_channel (c : SoundChip) (voice : Voice) : c.tick.channel voice = (c.channel voice).run
    (voice.clocks c.sequencer.tick.1.quarter c.sequencer.tick.1.half c.counted.odd) := by
  have odd (quarter half : Bool) : (c.counted.clocked quarter half).odd = c.counted.odd := by
    cases quarter <;> cases half <;> rfl
  have counted : c.counted.channel voice = c.channel voice := by cases voice <;> rfl
  rw [c.tick_clocked, clockTimers_channel, clocked_channel, counted, odd, ← Channel.run_append]
  rfl

theorem write_channel (c : SoundChip) (voice : Voice) (register : Fin 4) (value : UInt8) :
    (c.write (voice.register register) value).channel voice =
      (c.channel voice).write register value := by
  cases voice <;> match register with
  | 0 | 1 | 2 | 3 => rfl

theorem write_channel_of_apart (c : SoundChip) {voice : Voice} {address : UInt16} (value : UInt8)
    (status : address ≠ 0x4015) (apart : ∀ register, address ≠ voice.register register) :
    (c.write address value).channel voice = c.channel voice := by
  have apart := apart (.ofNat 4 address.toNat)
  rw [ne_eq, ← UInt16.toNat_inj, voice.register_toNat, Fin.val_ofNat] at apart
  unfold write
  dsimp only
  by_cases inside : 0x4000 ≤ address ∧ address ≤ 0x4013
  · have low : 0x4000 ≤ address.toNat := UInt16.le_iff_toNat_le.mp inside.1
    rw [if_pos inside]
    cases voice <;> unfold Voice.base at apart <;> dsimp only at apart <;> split <;> first | rfl | omega
  · rw [if_neg inside, if_neg status]
    split <;> cases voice <;> rfl

end SoundChip

namespace Sound

/-! ## Notes in the unit -/

/-- Whether an event does more to a voice than a clock does. -/
def Event.touches (voice : Voice) : Event → Bool
  | .write address _ => address = 0x4015 ∨ ∃ register, address = voice.register register
  | .reset | .powerOn => true
  | .tick | .readStatus | .deliver _ | .takeSamples | .setSettings _ => false

theorem happen_channel (s : Sound) {voice : Voice} {event : Event} (still : event ≠ .tick)
    (untouched : event.touches voice = false) :
    (s.happen event).chip.channel voice = s.chip.channel voice := by
  cases event with
  | tick => exact absurd rfl still
  | reset | powerOn => contradiction
  | write address value =>
    obtain ⟨status, apart⟩ := not_or.mp (of_decide_eq_false untouched)
    exact s.chip.write_channel_of_apart value status (not_exists.mp apart)
  | readStatus | deliver | takeSamples | setSettings => cases voice <;> rfl

/-- One bit halts the length and lets the envelope loop, whatever has happened. -/
theorem aged_oneBit (region : Region) (settings : AudioSettings) (past : Past) (voice : Voice) :
    (((initial region settings).aged past).chip.channel voice).OneBit := by
  induction past with
  | nil => cases voice <;> rfl
  | cons event before ih =>
    rw [aged_cons]
    generalize (initial region settings).aged before = s at ih ⊢
    cases event with
    | tick =>
      show (s.tick.chip.channel voice).OneBit
      rw [s.tick_chip, s.chip.tick_channel]
      exact ih.run _
    | write address value =>
      show ((s.chip.write address value).channel voice).OneBit
      by_cases own : ∃ register, address = voice.register register
      · obtain ⟨register, rfl⟩ := own
        rw [s.chip.write_channel]
        exact ih.write register value
      · by_cases status : address = 0x4015
        · subst status
          cases voice <;> exact ih
        · rw [s.chip.write_channel_of_apart value status (not_exists.mp own)]
          exact ih
    | powerOn => cases voice <;> rfl
    | readStatus | deliver | takeSamples | reset | setSettings => cases voice <;> exact ih

namespace Past

/-- Of the cycles that have passed behind a past, the ones before which something held. -/
def cyclesWith (held : Past → Bool) (before : Past) : Past → Nat
  | [] => 0
  | .tick :: later => cyclesWith held before later + (held (later ++ before)).toNat
  | _ :: later => cyclesWith held before later

theorem cyclesWith_cons {event : Event} (still : event ≠ .tick) (held : Past → Bool)
    (before later : Past) : cyclesWith held before (event :: later) = cyclesWith held before later := by
  cases event with
  | tick => exact absurd rfl still
  | write | readStatus | deliver | takeSamples | reset | powerOn | setSettings => rfl

/-- The quarter-frame clocks behind a past. -/
def quarters (before : Past) (region : Region) (later : Past) : Nat :=
  cyclesWith (quarter · region) before later

/-- The half-frame clocks behind a past. -/
def halves (before : Past) (region : Region) (later : Past) : Nat :=
  cyclesWith (half · region) before later

end Past

/-- A voice that nothing touches runs through the clocks of the schedule. -/
theorem aged_channel (region : Region) (settings : AudioSettings) (voice : Voice) (before : Past)
    {later : Past} (untouched : ∀ event ∈ later, event.touches voice = false) :
    ∃ clocks : List Channel.Clock,
      clocks.count .quarter = before.quarters region later ∧
      clocks.count .half = before.halves region later ∧
      ((initial region settings).aged (later ++ before)).chip.channel voice =
        (((initial region settings).aged before).chip.channel voice).run clocks := by
  induction later with
  | nil => exact ⟨[], rfl, rfl, rfl⟩
  | cons event later ih =>
    obtain ⟨clocks, quarters, halves, runs⟩ :=
      ih fun event among => untouched event (List.mem_cons_of_mem _ among)
    rw [List.cons_append, aged_cons]
    have scheduled := (aged_scheduled region settings (later ++ before)).event
    generalize (initial region settings).aged (later ++ before) = s at runs scheduled ⊢
    by_cases still : event = .tick
    · subst still
      obtain ⟨quarter, half, -⟩ := scheduled
      have next := s.chip.tick_channel voice
      have counts := voice.count_clocks (Past.quarter (later ++ before) region)
        (Past.half (later ++ before) region) s.chip.counted.odd
      rw [quarter, half, runs, ← Channel.run_append] at next
      refine ⟨_, ?_, ?_, (congrArg (SoundChip.channel · voice) s.tick_chip).trans next⟩
      · rw [List.count_append, quarters, counts.1]
        rfl
      · rw [List.count_append, halves, counts.2]
        rfl
    · rw [s.happen_channel still (untouched event List.mem_cons_self)]
      refine ⟨clocks, quarters.trans ?_, halves.trans ?_, runs⟩
      · exact (Past.cyclesWith_cons still (Past.quarter · region) before later).symm
      · exact (Past.cyclesWith_cons still (Past.half · region) before later).symm

/-- Notes run down by the numbers of their clocks, in any row of clocks, and so they do in the unit, by
the schedule of the sequencer, as long as nothing else touches the voice. -/
theorem notes_run_down :
    (∀ (c : Channel) (value : UInt8) (clocks : List Channel.Clock), c.length.enabled = true →
      c.RunsDown value (clocks.count .half) (clocks.count .quarter) ((c.write 3 value).run clocks)) ∧
    ∀ (region : Region) (settings : AudioSettings) (voice : Voice) (before later : Past) (value : UInt8),
      let c := ((initial region settings).aged before).chip.channel voice
      let start : Past := .write (voice.register 3) value :: before
      c.length.enabled = true → (∀ event ∈ later, event.touches voice = false) →
      c.length.halt = c.envelope.looping ∧
        c.RunsDown value (start.halves region later) (start.quarters region later)
          (((initial region settings).aged (later ++ start)).chip.channel voice) := by
  refine ⟨fun c value clocks enabled => Channel.run_runsDown enabled value clocks, ?_⟩
  intro region settings voice before later value c start enabled untouched
  obtain ⟨clocks, quarters, halves, runs⟩ := aged_channel region settings voice start untouched
  have started : ((initial region settings).aged start).chip.channel voice = c.write 3 value :=
    SoundChip.write_channel _ voice 3 value
  refine ⟨aged_oneBit region settings before voice, ?_⟩
  rw [runs, started, ← quarters, ← halves]
  exact Channel.run_runsDown enabled value clocks

/-- A looping level that has come round once, and a note that an order of the longer mode has clocked
once. -/
theorem two_notes_run_down :
    let c : Channel := .noise { Noise.initial .pal with
      length := ⟨true, true, 0⟩, envelope := { Envelope.initial with looping := true } }
    let clocks : List Channel.Clock := .timer :: .half :: .replicate 18 .quarter
    let before : Past := [.write 0x4015 1, .write 0x4000 2]
    let later : Past := [.tick, .tick, .tick, .write 0x4017 0x80]
    let start : Past := .write (Voice.pulse1.register 3) 0 :: before
    let now := ((initial .pal {}).aged (later ++ start)).chip.channel .pulse1
    (c.length.enabled = true ∧
        ((c.write 3 0x18).run clocks).length.value = 2 ∧
        ((c.write 3 0x18).run clocks).envelope.decay = 14) ∧
      (((initial .pal {}).aged before).chip.channel .pulse1).length.enabled = true ∧
      (∀ event ∈ later, event.touches .pulse1 = false) ∧
      now.length.value = 9 ∧ now.envelope.decay = 15 := by
  intro c clocks before later start now
  have enabled : (((initial .pal {}).aged before).chip.channel .pulse1).length.enabled = true := rfl
  have untouched : ∀ event ∈ later, event.touches .pulse1 = false := by decide
  have looped := notes_run_down.1 c 0x18 clocks rfl
  have ordered := (notes_run_down.2 .pal {} .pulse1 before later 0 enabled untouched).2
  have count : clocks.count .quarter = 18 := by decide
  have halves : start.halves .pal later = 1 := by decide
  have quarters : start.quarters .pal later = 1 := by decide
  rw [count] at looped
  rw [halves, quarters] at ordered
  exact ⟨⟨rfl, looped.held rfl, (looped.loops rfl (by decide)).trans (by decide)⟩, enabled, untouched,
    ordered.shortens rfl, (ordered.falls rfl (by decide)).trans (by decide)⟩

end Sound

end Famiclone
