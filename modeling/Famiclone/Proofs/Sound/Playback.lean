import Famiclone.Proofs.Sound.Passes

/-!
# The playback of a sample

The bytes of a sample meet the output unit in a buffer of one byte. The reader and the output unit go at
different rates, and a pass may end, begin again or be stopped between any two bits. All the same the bits
that are still to be played are at any time what the bytes handed over have in all, less as many from the
front as have been played.
-/
namespace Famiclone

namespace Delta

/-! ## The bits to be played -/

/-- The bits of a byte in the order in which they are played. -/
def bitsOf (byte : UInt8) : List Bool := (List.range 8).map (bit byte)

theorem bitsOf_length (byte : UInt8) : (bitsOf byte).length = 8 := by
  rw [bitsOf, List.length_map, List.length_range]

/-- The bits that are still to be played: those of the current byte and those of the buffer. -/
def pending (c : Delta) : List Bool :=
  (if c.silent then [] else (List.range c.bits).map c.shift.testBit) ++ c.buffer.elim [] bitsOf

/-- Whether the next timer clock plays a bit. -/
def plays (c : Delta) : Bool := c.timer == 0 && !c.silent

theorem plays_iff (c : Delta) : c.plays = true ↔ c.timer = 0 ∧ c.silent = false := by
  simp [plays]

/-- The lowest bit is played first, and the shift brings the next one there. -/
theorem bits_shift (shift n : Nat) : (List.range (n + 1)).map shift.testBit =
    decide (shift % 2 = 1) :: (List.range n).map (shift / 2).testBit := by
  rw [List.range_succ_eq_map, List.map_cons, List.map_map, Nat.testBit_zero]
  congr 1
  refine List.map_congr_left fun i _ => ?_
  rw [Nat.testBit_div_two]
  rfl

/-- The level moves by two, unless that would lead out of seven bits. -/
theorem moved_eq {level : Nat} (range : level ≤ 127) (up : Bool) :
    let next := (level : Int) + if up then 2 else -2
    (moved level up : Int) = if 0 ≤ next ∧ next ≤ 127 then next else level := by
  cases up <;> simp only [moved, if_true, Bool.false_eq_true, if_false] <;> split_ifs <;> omega

section Clock

variable {c : Delta}

def nextLevel (c : Delta) : Nat := if c.silent then c.level else moved c.level (c.shift % 2 = 1)

/-- Within a byte the next bit follows. -/
theorem clockTimer_next (due : c.timer = 0) (more : c.bits - 1 ≠ 0) : c.clockTimer =
    { c with timer := c.period, level := c.nextLevel, shift := c.shift / 2, bits := c.bits - 1 } := by
  simp [clockTimer, due, play, more, nextLevel]

/-- Behind a byte the one in the buffer follows. -/
theorem clockTimer_takes (due : c.timer = 0) (last : c.bits - 1 = 0) {byte : UInt8}
    (full : c.buffer = some byte) : c.clockTimer =
      { c with
        timer := c.period, level := c.nextLevel, shift := byte.toNat, bits := 8, buffer := none
        silent := false } := by
  simp [clockTimer, due, play, last, full, nextLevel]

/-- Without a byte in the buffer a pause follows. -/
theorem clockTimer_pauses (due : c.timer = 0) (last : c.bits - 1 = 0) (empty : c.buffer = none) :
    c.clockTimer =
      { c with
        timer := c.period, level := c.nextLevel, shift := c.shift / 2, bits := 8, silent := true } := by
  simp [clockTimer, due, play, last, empty, nextLevel]

/-- What a clock that plays a bit does. -/
theorem clockTimer_plays (bits : 1 ≤ c.bits) (plays : c.plays = true) :
    ∃ up, c.pending = up :: c.clockTimer.pending ∧ c.clockTimer.level = moved c.level up := by
  obtain ⟨due, sounds⟩ := c.plays_iff.mp plays
  obtain ⟨n, count⟩ : ∃ n, c.bits = n + 1 := ⟨c.bits - 1, by omega⟩
  have level : c.nextLevel = moved c.level (c.shift % 2 = 1) := by
    rw [nextLevel, sounds, if_neg Bool.false_ne_true]
  refine ⟨decide (c.shift % 2 = 1), ?_⟩
  rw [← level, pending, sounds, count, if_neg Bool.false_ne_true, bits_shift]
  cases n with
  | zero =>
    have last : c.bits - 1 = 0 := by omega
    cases buffer : c.buffer with
    | none =>
      rw [clockTimer_pauses due last buffer, pending, buffer]
      exact ⟨rfl, rfl⟩
    | some byte =>
      rw [clockTimer_takes due last buffer]
      exact ⟨congrArg (List.cons _) (List.append_nil _).symm, rfl⟩
  | succ n =>
    have more : c.bits - 1 = n + 1 := by omega
    rw [clockTimer_next due (by omega), pending, sounds, more]
    exact ⟨rfl, rfl⟩

/-- A clock that plays none takes at most a byte from the buffer, which is played next. -/
theorem clockTimer_rests (rests : c.plays = false) :
    c.clockTimer.pending = c.pending ∧ c.clockTimer.level = c.level := by
  by_cases due : c.timer = 0
  · have silent : c.silent = true := by
      rw [plays, due] at rests
      simpa using rests
    have level : c.nextLevel = c.level := by
      rw [nextLevel, silent, if_pos rfl]
    by_cases last : c.bits - 1 = 0
    · cases buffer : c.buffer with
      | none =>
        rw [clockTimer_pauses due last buffer, pending, pending, silent, buffer]
        exact ⟨rfl, level⟩
      | some byte =>
        rw [clockTimer_takes due last buffer, pending, pending, silent, buffer]
        exact ⟨List.append_nil _, level⟩
    · rw [clockTimer_next due last, pending, pending, silent]
      exact ⟨rfl, level⟩
  · rw [clockTimer_waits due]
    exact ⟨rfl, rfl⟩

end Clock

/-- A byte is played behind all others. -/
theorem fill_pending {c : Delta} (wanted : c.request.isSome) (value : UInt8) :
    (c.fill value).pending = c.pending ++ bitsOf value := by
  obtain ⟨address, remaining, irqFlag, filled⟩ := c.fill_eq value
  rw [filled, pending, pending, buffer_of_request wanted]
  exact congrArg (· ++ _) (List.append_nil _).symm

/-- A write leaves the output unit alone, but for its level and its rate. -/
theorem writeAt_output (c : Delta) (address : UInt16) (value : UInt8) :
    ((c.writeAt address value).timer, (c.writeAt address value).shift,
      (c.writeAt address value).bits, (c.writeAt address value).silent,
      (c.writeAt address value).buffer) = (c.timer, c.shift, c.bits, c.silent, c.buffer) := by
  have written (register : Fin 4) : ((c.write register value).timer, (c.write register value).shift,
      (c.write register value).bits, (c.write register value).silent,
      (c.write register value).buffer) = (c.timer, c.shift, c.bits, c.silent, c.buffer) := by
    match register with
    | 0 | 1 | 2 | 3 => rfl
  unfold writeAt setEnabled
  split_ifs
  · exact written _
  all_goals rfl

/-! ## How soon bits are played -/

def wait (c : Delta) (left : Nat) : Nat :=
  c.timer + 1 + 428 * ((if c.silent then c.bits else 0) + left - 1)

/-- The longest bit has 428 cycles. -/
structure Slow (c : Delta) : Prop where
  timer : c.timer < 428
  period : c.period < 428

theorem slow_clockTimer {c : Delta} (h : Slow c) : Slow c.clockTimer := by
  have timer := h.timer
  by_cases due : c.timer = 0
  · by_cases last : c.bits ≤ 1
    · obtain ⟨_, _, _, looks⟩ := clockTimer_looks due last
      rw [looks]
      exact ⟨h.period, h.period⟩
    · obtain ⟨_, _, shifts⟩ := clockTimer_shifts due (Nat.lt_of_not_le last)
      rw [shifts]
      exact ⟨h.period, h.period⟩
  · rw [clockTimer_waits due]
    exact ⟨by dsimp only; omega, h.period⟩

theorem slow_writeAt {c : Delta} (h : Slow c) (address : UInt16) (value : UInt8) :
    Slow (c.writeAt address value) := by
  have rates : ∀ region rate, (periods region).get rate - 1 < 428 := by
    intro region
    cases region <;> decide
  unfold writeAt setEnabled
  split_ifs
  · generalize Fin.ofNat 4 address.toNat = register
    match register with
    | 0 => exact ⟨h.timer, rates c.region _⟩
    | 1 | 2 | 3 => exact ⟨h.timer, h.period⟩
  all_goals exact ⟨h.timer, h.period⟩

section Wait

variable {c : Delta} {left : Nat}

/-- A byte is taken from the buffer when the current one ends, so there is no pause between them. -/
theorem wait_plays (h : Slow c) (bits : 1 ≤ c.bits) (plays : c.plays = true)
    (there : left ≤ c.pending.length) (more : 1 < left) :
    c.clockTimer.wait (left - 1) + 1 ≤ c.wait left := by
  have period := h.period
  obtain ⟨due, sounds⟩ := c.plays_iff.mp plays
  obtain ⟨up, now, -⟩ := clockTimer_plays bits plays
  rw [now, List.length_cons] at there
  rw [wait, wait, sounds, due, if_neg Bool.false_ne_true]
  by_cases last : c.bits - 1 = 0
  · cases buffer : c.buffer with
    | none =>
      rw [clockTimer_pauses due last buffer, pending, buffer] at there
      have none : left ≤ 1 := there
      omega
    | some byte =>
      rw [clockTimer_takes due last buffer]
      dsimp only
      rw [if_neg Bool.false_ne_true]
      omega
  · rw [clockTimer_next due last]
    dsimp only
    rw [sounds, if_neg Bool.false_ne_true]
    omega

/-- The bits of a pause are waited for like those that are played. -/
theorem wait_pauses (h : Slow c) (bits : 1 ≤ c.bits) (due : c.timer = 0) (silent : c.silent = true)
    (pos : 0 < left) (there : left ≤ c.pending.length) :
    c.clockTimer.wait left + 1 ≤ c.wait left := by
  have period := h.period
  rw [wait, wait, silent, due, if_pos rfl]
  by_cases last : c.bits - 1 = 0
  · cases buffer : c.buffer with
    | none =>
      rw [pending, silent, buffer] at there
      exact absurd there (Nat.not_le.mpr pos)
    | some byte =>
      rw [clockTimer_takes due last buffer]
      dsimp only
      rw [if_neg Bool.false_ne_true]
      omega
  · rw [clockTimer_next due last]
    dsimp only
    rw [silent, if_pos rfl]
    omega

/-- Within a bit the timer counts. -/
theorem wait_waits (within : c.timer ≠ 0) : c.clockTimer.wait left + 1 ≤ c.wait left := by
  rw [clockTimer_waits within]
  unfold wait
  dsimp only
  omega

/-- With each cycle the bits that are to be played come nearer. -/
theorem wait_clockTimer (h : Slow c) (bits : 1 ≤ c.bits) (left : Nat) (pos : 0 < left)
    (there : left ≤ c.pending.length) :
    left = c.plays.toNat ∨ c.clockTimer.wait (left - c.plays.toNat) + 1 ≤ c.wait left := by
  cases plays : c.plays with
  | true => exact (Nat.eq_or_lt_of_le pos).imp Eq.symm (wait_plays h bits plays there)
  | false =>
    refine .inr ?_
    rw [Bool.toNat_false, Nat.sub_zero]
    by_cases due : c.timer = 0
    · have silent : c.silent = true := by
        rw [Delta.plays, due] at plays
        simpa using plays
      exact wait_pauses h bits due silent pos there
    · exact wait_waits due

end Wait

/-- At most sixteen bits are to be played, or eight behind a pause. -/
theorem wait_pending {c : Delta} (h : Slow c) (bits : c.bits ≤ 8) (pos : 0 < c.pending.length) :
    c.wait c.pending.length ≤ 16 * 428 := by
  have timer := h.timer
  have buffer : (c.buffer.elim [] bitsOf).length ≤ 8 := by
    cases c.buffer with
    | none => exact Nat.zero_le _
    | some byte => exact Nat.le_of_eq (bitsOf_length byte)
  unfold wait
  unfold pending at *
  rw [List.length_append] at *
  cases silent : c.silent with
  | true =>
    simp only [silent, if_true, List.length_nil] at pos ⊢
    omega
  | false =>
    simp only [Bool.false_eq_true, if_false, List.length_map, List.length_range]
    omega

end Delta

namespace Sound

/-! ## The output unit of a unit with a past -/

namespace Past

/-- The bits of the bytes that have been handed over since power-on, the first one first. -/
def stream : Past → List Bool
  | [] => []
  | .powerOn :: _ => []
  | .deliver value :: before => stream before ++ Delta.bitsOf value
  | _ :: before => stream before

/-- Nothing but the return of the power takes a bit back. -/
theorem stream_append (before : Past) {later : Past} (powered : ∀ event ∈ later, event ≠ .powerOn) :
    ∃ more, Past.stream (later ++ before) = before.stream ++ more ∧
      more.length = 8 * deliveries later := by
  induction later with
  | nil => exact ⟨[], (List.append_nil _).symm, rfl⟩
  | cons event later ih =>
    obtain ⟨more, grows, count⟩ := ih fun other member => powered other (List.mem_cons_of_mem _ member)
    have other := powered event List.mem_cons_self
    unfold deliveries at *
    rw [List.cons_append, List.countP_cons]
    cases event with
    | powerOn => exact absurd rfl other
    | deliver value =>
      refine ⟨more ++ Delta.bitsOf value, ?_, ?_⟩
      · rw [stream, grows, List.append_assoc]
      · rw [List.length_append, Delta.bitsOf_length, count]
        simp only [Event.isDelivery, if_true]
        omega
    | tick | write | readStatus | takeSamples | reset | setSettings => exact ⟨more, grows, count⟩

end Past

/-- The bits that have been played since power-on. -/
def played (s : Sound) : Past → Nat
  | [] => 0
  | .powerOn :: _ => 0
  | .tick :: before => s.played before + (s.aged before).chip.delta.plays.toNat
  | _ :: before => s.played before

/-- The output unit stands where the past has brought it. -/
structure Playing (past : Past) (played : Nat) (c : Delta) : Prop extends Delta.Slow c where
  pending : past.stream.drop played = c.pending
  inside : played ≤ past.stream.length

namespace Playing

variable {past : Past} {played : Nat} {c : Delta}

theorem initial (region : Region) {past : Past} (stream : past.stream = []) :
    Playing past 0 (.initial region) where
  timer := Nat.succ_pos _
  period := by cases region <;> decide
  pending := by
    rw [stream]
    rfl
  inside := Nat.zero_le _

theorem length (h : Playing past played c) : played + c.pending.length = past.stream.length := by
  have inside := h.inside
  rw [← h.pending, List.length_drop]
  omega

/-- What the output unit does not hear of. -/
theorem other (h : Playing past played c) (later : Past) (stream : later.stream = past.stream)
    {d : Delta} (slow : d.Slow) (pending : d.pending = c.pending) : Playing later played d where
  toSlow := slow
  pending := by
    rw [stream, pending]
    exact h.pending
  inside := stream ▸ h.inside

theorem tick (h : Playing past played c) (bits : 1 ≤ c.bits) :
    Playing (.tick :: past) (played + c.plays.toNat) c.clockTimer := by
  have pending := h.pending
  have length := h.length
  refine ⟨Delta.slow_clockTimer h.toSlow, ?_, ?_⟩
  · show past.stream.drop (played + c.plays.toNat) = _
    cases plays : c.plays with
    | false => exact pending.trans (Delta.clockTimer_rests plays).1.symm
    | true =>
      obtain ⟨up, now, -⟩ := Delta.clockTimer_plays bits plays
      rw [Bool.toNat_true, ← List.drop_drop, pending, now]
      rfl
  · show played + c.plays.toNat ≤ past.stream.length
    cases plays : c.plays with
    | false => exact h.inside
    | true =>
      obtain ⟨up, now, -⟩ := Delta.clockTimer_plays bits plays
      rw [now, List.length_cons] at length
      rw [Bool.toNat_true]
      omega

theorem write (h : Playing past played c) (address : UInt16) (value : UInt8) :
    Playing (.write address value :: past) played (c.writeAt address value) := by
  have output := c.writeAt_output address value
  simp only [Prod.mk.injEq] at output
  obtain ⟨-, shift, bits, silent, buffer⟩ := output
  refine h.other (.write address value :: past) rfl (Delta.slow_writeAt h.toSlow address value) ?_
  unfold Delta.pending
  rw [shift, bits, silent, buffer]

theorem deliver (h : Playing past played c) (wanted : c.request.isSome) (value : UInt8) :
    Playing (.deliver value :: past) played (c.fill value) where
  toSlow := by
    obtain ⟨address, remaining, irqFlag, filled⟩ := c.fill_eq value
    rw [filled]
    exact ⟨h.timer, h.period⟩
  pending := by
    rw [Delta.fill_pending wanted, Past.stream, List.drop_append_of_le_length h.inside, h.pending]
  inside := by
    rw [Past.stream, List.length_append]
    exact Nat.le_add_right_of_le h.inside

end Playing

theorem aged_playing (region : Region) (settings : AudioSettings) {past : Past}
    (served : (initial region settings).Served past) :
    Playing past ((initial region settings).played past)
      ((initial region settings).aged past).chip.delta := by
  induction past with
  | nil => exact .initial region rfl
  | cons event before ih =>
    have range := (initial_inRange region settings).aged before
    have ih := ih served.2
    have wanted := served.1
    cases event with
    | tick =>
      show Playing (.tick :: before) (_ + _) ((initial region settings).aged before).tick.chip.delta
      rw [Sound.tick_delta]
      exact ih.tick range.chip.delta.bits_pos
    | write address value =>
      show Playing (.write address value :: before) ((initial region settings).played before)
        (((initial region settings).aged before).chip.write address value).delta
      rw [SoundChip.write_delta]
      exact ih.write address value
    | deliver value => exact ih.deliver (wanted rfl) value
    | powerOn => exact .initial _ rfl
    | reset => exact ih.other (.reset :: before) rfl ⟨ih.timer, ih.period⟩ rfl
    | readStatus | takeSamples | setSettings => exact ih.other (_ :: before) rfl ih.toSlow rfl

/-! ## How soon bytes are heard -/

/-- Only cycles bring the output unit on. -/
theorem happen_wait (s : Sound) {event : Event} (still : event ≠ .tick) (powered : event ≠ .powerOn)
    (left : Nat) : (s.happen event).chip.delta.wait left = s.chip.delta.wait left := by
  cases event with
  | tick => exact absurd rfl still
  | powerOn => exact absurd rfl powered
  | write address value =>
    have output := s.chip.delta.writeAt_output address value
    simp only [Prod.mk.injEq] at output
    obtain ⟨timer, -, bits, silent, -⟩ := output
    show (s.chip.write address value).delta.wait left = _
    rw [s.chip.write_delta]
    unfold Delta.wait
    rw [timer, bits, silent]
  | deliver value =>
    obtain ⟨address, remaining, irqFlag, filled⟩ := s.chip.delta.fill_eq value
    show (s.chip.delta.fill value).wait left = _
    rw [filled]
    rfl
  | readStatus | takeSamples | reset | setSettings => rfl

/-- Nor is a bit played, or a cycle counted, by anything else. -/
theorem happen_counts (s : Sound) {event : Event} (still : event ≠ .tick) (powered : event ≠ .powerOn)
    (past later : Past) : s.played (event :: past) = s.played past ∧
      Past.cycles (event :: later) = Past.cycles later := by
  cases event with
  | tick => exact absurd rfl still
  | powerOn => exact absurd rfl powered
  | write | readStatus | deliver | takeSamples | reset | setSettings => exact ⟨rfl, rfl⟩

/-- The last bit is at most as far as a buffer and a byte have bits. -/
theorem Playing.near {past : Past} {played : Nat} {c : Delta} (h : Playing past played c)
    (bits : c.bits ≤ 8) :
    past.stream.length ≤ played ∨ c.wait (past.stream.length - played) ≤ 16 * 428 := by
  have length := h.length
  refine or_iff_not_imp_left.mpr fun more => ?_
  have left : past.stream.length - played = c.pending.length := by omega
  rw [left]
  exact Delta.wait_pending h.toSlow bits (by omega)

/-- A cycle brings a bit of the stream nearer by one cycle. -/
theorem Playing.nearer {past : Past} {played : Nat} {c : Delta} (h : Playing past played c)
    (bits : 1 ≤ c.bits) {total elapsed bound : Nat} (there : total ≤ past.stream.length)
    (near : total ≤ played ∨ c.wait (total - played) + elapsed ≤ bound) :
    total ≤ played + c.plays.toNat ∨
      c.clockTimer.wait (total - (played + c.plays.toNat)) + (elapsed + 1) ≤ bound := by
  have length := h.length
  by_cases done : total ≤ played
  · exact .inl (Nat.le_add_right_of_le done)
  · have next := Delta.wait_clockTimer h.toSlow bits (total - played) (by omega) (by omega)
    rw [← Nat.sub_sub]
    omega

/-- The bits of the bytes handed over so far are played, or are as near as the cycles since then have
brought them. -/
theorem played_or_near (region : Region) (settings : AudioSettings) {before later : Past}
    (served : (initial region settings).Served (later ++ before))
    (powered : ∀ event ∈ later, event ≠ .powerOn) :
    before.stream.length ≤ (initial region settings).played (later ++ before) ∨
      ((initial region settings).aged (later ++ before)).chip.delta.wait
        (before.stream.length - (initial region settings).played (later ++ before)) +
          Past.cycles later ≤ 16 * 428 := by
  have range (past : Past) := ((initial_inRange region settings).aged past).chip.delta
  induction later with
  | nil => exact (aged_playing region settings served).near (range before).bits_le
  | cons event later ih =>
    have powered' : ∀ event ∈ later, event ≠ .powerOn :=
      fun other member => powered other (List.mem_cons_of_mem _ member)
    have ih := ih served.2 powered'
    rw [List.cons_append]
    by_cases ticks : event = .tick
    · subst ticks
      obtain ⟨more, grows, -⟩ := Past.stream_append before powered'
      have there : before.stream.length ≤ (Past.stream (later ++ before)).length := by
        rw [grows, List.length_append]
        exact Nat.le_add_right _ _
      rw [played, aged_cons, Past.cycles]
      show _ ∨ (Sound.tick _).chip.delta.wait _ + _ ≤ _
      rw [Sound.tick_delta]
      exact (aged_playing region settings served.2).nearer (range _).bits_pos there ih
    · have other : event ≠ .powerOn := powered event List.mem_cons_self
      obtain ⟨plays, cycles⟩ :=
        (initial region settings).happen_counts ticks other (later ++ before) later
      rw [plays, cycles, aged_cons, happen_wait _ ticks other]
      exact ih

/-- Within the time of sixteen bits all bytes handed over so far are played. -/
theorem stream_played (region : Region) (settings : AudioSettings) {before later : Past}
    (served : (initial region settings).Served (later ++ before))
    (powered : ∀ event ∈ later, event ≠ .powerOn) (long : 16 * 428 ≤ Past.cycles later) :
    before.stream.length ≤ (initial region settings).played (later ++ before) := by
  rcases played_or_near region settings served powered with done | near
  · exact done
  · unfold Delta.wait at near
    omega

/-- So the buffer is empty then, if nothing has come meanwhile. -/
theorem buffer_emptied (region : Region) (settings : AudioSettings) {before later : Past}
    (served : (initial region settings).Served (later ++ before))
    (powered : ∀ event ∈ later, event ≠ .powerOn) (nothing : Past.deliveries later = 0)
    (long : 16 * 428 ≤ Past.cycles later) :
    ((initial region settings).aged (later ++ before)).chip.delta.buffer = none := by
  have played := stream_played region settings served powered long
  have length := (aged_playing region settings served).length
  obtain ⟨more, grows, count⟩ := Past.stream_append before powered
  rw [grows, List.length_append] at length
  cases buffer : ((initial region settings).aged (later ++ before)).chip.delta.buffer with
  | none => rfl
  | some byte =>
    have eight : 8 ≤ ((initial region settings).aged
        (later ++ before)).chip.delta.pending.length := by
      rw [Delta.pending, buffer, List.length_append]
      exact Nat.le_add_left_of_le (Nat.le_of_eq (Delta.bitsOf_length byte).symm)
    omega

/-! ## What moves the level and raises the interrupt -/

/-- A cycle that plays a bit plays the next one of the stream. -/
theorem Playing.sounds {past : Past} {played : Nat} {s : Sound} (range : s.InRange)
    (h : Playing past played s.chip.delta) (plays : s.chip.delta.plays = true) :
    ∃ up, past.stream[played]? = some up ∧
      s.tick.chip.delta.level = Delta.moved s.chip.delta.level up := by
  obtain ⟨up, now, level⟩ := Delta.clockTimer_plays range.chip.delta.bits_pos plays
  have front := congrArg List.head? (h.pending.trans now)
  rw [List.head?_drop] at front
  exact ⟨up, front, by rw [s.tick_delta, level]⟩

/-- What the program does to the level. -/
inductive SetsLevel : Event → Prop where
  | write (value : UInt8) : SetsLevel (.write 0x4011 value)
  | reset : SetsLevel .reset
  | powerOn : SetsLevel .powerOn

theorem happen_level (s : Sound) {event : Event} (still : event ≠ .tick) (keeps : ¬ SetsLevel event) :
    (s.happen event).chip.delta.level = s.chip.delta.level := by
  cases event with
  | tick => exact absurd rfl still
  | powerOn => exact absurd .powerOn keeps
  | reset => exact absurd .reset keeps
  | write address value =>
    show (s.chip.write address value).delta.level = _
    rw [s.chip.write_delta]
    have other : address ≠ 0x4011 := by
      rintro rfl
      exact keeps (.write value)
    unfold Delta.writeAt Delta.setEnabled
    split_ifs with own
    · rcases Delta.address_cases own with rfl | rfl | rfl | rfl
      · rfl
      · exact absurd rfl other
      · rfl
      · rfl
    all_goals rfl
  | deliver value =>
    obtain ⟨address, remaining, irqFlag, filled⟩ := s.chip.delta.fill_eq value
    show (s.chip.delta.fill value).level = _
    rw [filled]
  | readStatus | takeSamples | setSettings => rfl

/-- The interrupt of the channel rises only with a byte. -/
theorem irqFlag_of_happen (s : Sound) {event : Event} (silent : event.isDelivery = false)
    (raised : (s.happen event).chip.delta.irqFlag = true) : s.chip.delta.irqFlag = true := by
  cases event with
  | deliver value => contradiction
  | tick =>
    have kept : s.tick.chip.delta.irqFlag = s.chip.delta.irqFlag := by
      rw [s.tick_delta]
      obtain ⟨_, _, _, _, _, _, same⟩ := s.chip.delta.clockTimer_eq
      rw [same]
    exact kept.symm.trans raised
  | write address value =>
    have written : (s.chip.delta.writeAt address value).irqFlag = true := by
      rw [← s.chip.write_delta]
      exact raised
    unfold Delta.writeAt at written
    split_ifs at written with own
    · rcases Delta.address_cases own with rfl | rfl | rfl | rfl
      · exact (Bool.and_eq_true_iff.mp written).1
      · exact written
      · exact written
      · exact written
    · exact written
  | reset | powerOn => contradiction
  | readStatus | takeSamples | setSettings => exact raised

/-! ## The whole playback -/

/-- A unit whose sample channel plays each byte of its passes once and in order. It is told of the unit
that `start` has become behind a past. -/
structure PlaysOnce (start : Sound) (past : Past) : Prop where
  /-- What is wanted is the next byte of the pass under way, if the buffer is empty. -/
  request : (start.aged past).chip.delta.request =
    if (start.aged past).chip.delta.buffer.isNone then past.pass?.map Pass.next else none
  /-- The buffer is empty if nothing has come for as long as sixteen bits take. -/
  asks : ∀ later before : Past, past = later ++ before → (∀ event ∈ later, event ≠ .powerOn) →
    Past.deliveries later = 0 → 16 * 428 ≤ Past.cycles later →
    (start.aged past).chip.delta.buffer = none
  /-- The bytes of a pass that nothing stops are those at its address and the next ones, whatever the
  registers are set to. -/
  pass : ∀ (later before : Past) address length, past = later ++ before →
    before.pass? = some ⟨address, length, 0⟩ → (∀ event ∈ later, ¬ Stops event) →
    (Past.deliveries later ≤ length → (start.aged before).answered later =
      (List.range (Past.deliveries later)).map (Delta.next^[·] address)) ∧
    (Past.deliveries later < length → past.pass? = some ⟨address, length, Past.deliveries later⟩)
  /-- The last byte of a pass begins another one, if the channel is looping, or raises the interrupt, if
  that is enabled. -/
  last : ∀ value pass, past.pass? = some pass → pass.taken + 1 = pass.length →
    Past.pass? (.deliver value :: past) = (if past.looping then some past.newPass else none) ∧
      (start.aged (.deliver value :: past)).chip.delta.irqFlag =
        ((start.aged past).chip.delta.irqFlag || (!past.looping && past.irqEnabled))
  /-- Nothing else raises it. -/
  irq : ∀ event, start.Served (event :: past) →
    (start.aged (event :: past)).chip.delta.irqFlag = true →
    (start.aged past).chip.delta.irqFlag = true ∨ event.isDelivery = true ∧
      past.looping = false ∧ past.irqEnabled = true ∧
      ∃ pass, past.pass? = some pass ∧ pass.taken + 1 = pass.length
  /-- Without a pass nothing is wanted until the channel is enabled. -/
  idle : ∀ later before : Past, past = later ++ before → before.pass? = none →
    (∀ event ∈ later, ¬ Enables event) → (start.aged past).chip.delta.request = none
  /-- A cycle that plays a bit plays the next one of the bytes that have been handed over, and moves the
  level by it. -/
  sounds : (start.aged past).chip.delta.plays = true → ∃ up,
    past.stream[start.played past]? = some up ∧
      let next := ((start.aged past).chip.delta.level : Int) + if up then 2 else -2
      ((start.aged (.tick :: past)).chip.delta.level : Int) =
        if 0 ≤ next ∧ next ≤ 127 then next else (start.aged past).chip.delta.level
  /-- Other cycles leave the level where it is. -/
  rests : (start.aged past).chip.delta.plays = false →
    (start.aged (.tick :: past)).chip.delta.level = (start.aged past).chip.delta.level
  /-- So does all but what the program does to it. -/
  still : ∀ event, event ≠ .tick → ¬ SetsLevel event →
    (start.aged (event :: past)).chip.delta.level = (start.aged past).chip.delta.level
  /-- All bytes are played when as much time has passed as sixteen bits take. -/
  heard : ∀ later before : Past, past = later ++ before → (∀ event ∈ later, event ≠ .powerOn) →
    16 * 428 ≤ Past.cycles later → before.stream.length ≤ start.played past

/-- The sample channel plays each byte once and in order, whatever happens to the unit, as long as bytes
come only when they are wanted. -/
theorem samples_play_once (region : Region) (settings : AudioSettings) {past : Past}
    (served : (initial region settings).Served past) : PlaysOnce (initial region settings) past := by
  have reading := aged_reading region settings served
  have playing := aged_playing region settings served
  have range := (initial_inRange region settings).aged past
  refine ⟨reading.request_eq, ?_, ?_, ?_, ?_, ?_, ?_, ?_, fun event => happen_level _, ?_⟩
  · rintro later before rfl
    exact buffer_emptied region settings served
  · rintro later before address length rfl begins goes
    exact ⟨answered_of_unstopped region settings served begins goes,
      Past.pass?_of_unstopped begins goes⟩
  · intro value pass under last
    have stops : ¬ pass.taken + 1 < pass.length := Nat.not_lt.mpr (Nat.le_of_eq last.symm)
    have flag := (reading.deliver under value).2
    rw [decide_eq_true last, Bool.true_and] at flag
    refine ⟨?_, flag⟩
    rw [Past.pass?, under, Option.bind_some, Past.passBehind, if_neg stops]
  · intro event served' raised
    cases delivers : event.isDelivery with
    | false => exact .inl (irqFlag_of_happen _ delivers raised)
    | true =>
      obtain ⟨pass, under, -⟩ := reading.pass_of_request (served'.1 delivers)
      cases event with
      | deliver value =>
        have flag := (reading.deliver under value).2.symm.trans raised
        simp only [Bool.or_eq_true, Bool.and_eq_true, Bool.not_eq_true', decide_eq_true_eq] at flag
        rcases flag with old | ⟨⟨last, loops⟩, enabled⟩
        · exact .inl old
        · exact .inr ⟨rfl, loops, enabled, pass, under, last⟩
      | _ => contradiction
  · rintro later before rfl none rests
    rw [reading.request_eq, Past.pass?_of_none none rests]
    exact ite_self _
  · intro plays
    obtain ⟨up, next, moved⟩ := playing.sounds range plays
    refine ⟨up, next, ?_⟩
    rw [aged_cons]
    exact (congrArg Int.ofNat moved).trans (Delta.moved_eq range.chip.delta.level up)
  · intro rests
    show (Sound.tick _).chip.delta.level = _
    rw [Sound.tick_delta]
    exact (Delta.clockTimer_rests rests).2
  · rintro later before rfl
    exact stream_played region settings served

/-- A pass of one byte, which raises the interrupt. -/
theorem samples_play_once_of_one_byte :
    (initial .pal {}).Served [.deliver 0x55, .write 0x4015 0x10, .write 0x4010 0x8F] ∧
      PlaysOnce (initial .pal {}) [.deliver 0x55, .write 0x4015 0x10, .write 0x4010 0x8F] := by
  have served : (initial .pal {}).Served [.deliver 0x55, .write 0x4015 0x10, .write 0x4010 0x8F] :=
    ⟨fun _ => rfl, nofun, nofun, trivial⟩
  exact ⟨served, samples_play_once .pal {} served⟩

end Sound

end Famiclone
