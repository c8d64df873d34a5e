import Famiclone.Sound
import Famiclone.Sound.Supply
import Mathlib.Tactic.SplitIfs

/-!
# The deadline of a sample

The output unit plays eight bits between two looks at the buffer, and no bit is shorter than fifty
cycles. So a byte that comes within 399 cycles of the look that asked for it comes in time at every rate.
With more cycles to wait, up to 527, only the fastest rate leaves it too late. What is kept is how long a
byte may have been wanted, and that the bits since the last look have taken their time.
-/
namespace Famiclone

namespace Delta

/-- Cycles of a bit at the fastest rate. -/
def fastest (region : Region) : Nat := (periods region).get 15

theorem fifty_le_periods (region : Region) (rate : Fin 16) : 50 ≤ (periods region).get rate := by
  cases region <;> revert rate <;> decide

/-- At all rates but the fastest eight bits take 528 cycles or more. -/
theorem periods_eq_fastest {region : Region} {rate : Fin 16}
    (short : 8 * (periods region).get rate < 528) : (periods region).get rate = fastest region := by
  have all : ∀ region rate, 8 * (periods region).get rate < 528 →
      (periods region).get rate = fastest region := by
    intro region
    cases region <;> decide
  exact all region rate short

/-- A write at an address of the sound unit. -/
def writeAt (c : Delta) (address : UInt16) (value : UInt8) : Delta :=
  if 0x4010 ≤ address ∧ address ≤ 0x4013 then c.write (.ofNat 4 address.toNat) value
  else if address = 0x4015 then { c.setEnabled (bit value 4) with irqFlag := false }
  else c

@[simp] theorem writeAt_region (c : Delta) (address : UInt16) (value : UInt8) :
    (c.writeAt address value).region = c.region := by
  have written (register : Fin 4) : (c.write register value).region = c.region := by
    match register with
    | 0 | 1 | 2 | 3 => rfl
  unfold writeAt setEnabled
  split
  · exact written _
  · split_ifs <;> rfl

theorem fill_eq (c : Delta) (value : UInt8) : ∃ address remaining irqFlag,
    c.fill value = { c with buffer := some value, address, remaining, irqFlag } := by
  unfold fill
  dsimp only
  split_ifs <;> exact ⟨_, _, _, rfl⟩

@[simp] theorem fill_region (c : Delta) (value : UInt8) : (c.fill value).region = c.region := by
  obtain ⟨address, remaining, irqFlag, filled⟩ := c.fill_eq value
  rw [filled]

/-- A channel whose buffer is full asks for nothing. -/
theorem fill_request (c : Delta) (value : UInt8) : (c.fill value).request = none := by
  obtain ⟨address, remaining, irqFlag, filled⟩ := c.fill_eq value
  simp [filled, request]

theorem buffer_of_request {c : Delta} (wanted : c.request.isSome) : c.buffer = none := by
  cases full : c.buffer with
  | none => rfl
  | some byte => simp [request, full] at wanted

/-! ## What a timer clock does -/

theorem clockTimer_waits {c : Delta} (waits : c.timer ≠ 0) :
    c.clockTimer = { c with timer := c.timer - 1 } := by
  simp [clockTimer, waits]

theorem clockTimer_shifts {c : Delta} (due : c.timer = 0) (more : 1 < c.bits) :
    ∃ level shift, c.clockTimer = { c with timer := c.period, level, shift, bits := c.bits - 1 } := by
  have left : c.bits - 1 ≠ 0 := by omega
  simp [clockTimer, due, play, left]

/-- Behind the last bit the buffer is empty, whatever was in it. -/
theorem clockTimer_looks {c : Delta} (due : c.timer = 0) (last : c.bits ≤ 1) :
    ∃ level shift silent, c.clockTimer =
      { c with timer := c.period, level, shift, bits := 8, buffer := none, silent } := by
  have left : c.bits - 1 = 0 := by omega
  cases h : c.buffer with
  | none =>
    simp only [clockTimer, due, play, left, h, if_true]
    exact ⟨_, _, _, rfl⟩
  | some byte =>
    simp only [clockTimer, due, play, left, h, if_true]
    exact ⟨_, _, _, rfl⟩

/-- A clock moves the output unit and takes from the buffer, and leaves the reader alone. -/
theorem clockTimer_eq (c : Delta) : ∃ timer level shift bits buffer silent,
    c.clockTimer = { c with timer, level, shift, bits, buffer, silent } := by
  by_cases due : c.timer = 0
  · by_cases last : c.bits ≤ 1
    · obtain ⟨_, _, _, looks⟩ := clockTimer_looks due last
      exact ⟨_, _, _, _, _, _, looks⟩
    · obtain ⟨_, _, shifts⟩ := clockTimer_shifts due (Nat.lt_of_not_le last)
      exact ⟨_, _, _, _, _, _, shifts⟩
  · exact ⟨_, _, _, _, _, _, clockTimer_waits due⟩

@[simp] theorem clockTimer_region (c : Delta) : c.clockTimer.region = c.region := by
  obtain ⟨_, _, _, _, _, _, clocked⟩ := c.clockTimer_eq
  rw [clocked]

end Delta

/-- A miss that only a transfer of sprites can bring about: eight bits, some of them at the fastest rate,
have passed together with a transfer. -/
structure Miss.Crowded (m : Miss) (region : Region) : Prop where
  cycles : m.cycles < 528
  shortest : m.shortest = Delta.fastest region
  sprites : ∃ ago, m.sprites = some ago ∧ ago ≤ 518

namespace Supply

/-- Cycles since the look from which on a byte of the pass under way has been wanted. -/
def waiting (s : Supply) (c : Delta) : Nat := if s.begun ∧ c.request.isSome then s.since else 0

theorem waiting_of_not_begun {s : Supply} (c : Delta) (fresh : s.begun = false) : s.waiting c = 0 := by
  simp [waiting, fresh]

theorem waiting_of_none (s : Supply) {c : Delta} (content : c.request = none) : s.waiting c = 0 := by
  simp [waiting, content]

/-- The bits since the last look have taken their time. -/
structure Paced (c : Delta) (s : Supply) : Prop where
  period : ∃ rate, c.period + 1 = (Delta.periods c.region).get rate
  bits : 1 ≤ c.bits ∧ c.bits ≤ 8
  shortest : s.begun → ∃ rate, s.shortest = (Delta.periods c.region).get rate
  pace : s.begun → s.shortest * (9 - c.bits) ≤ s.since + c.timer + 1

/-- A channel that no byte has been wanted for longer than a number of cycles, and that has missed none
without need. -/
structure Supplied (w : Nat) (c : Delta) (s : Supply) : Prop extends Paced c s where
  waiting : s.waiting c ≤ w
  misses : ∀ miss ∈ s.misses, miss.Crowded c.region

theorem Supplied.mono {v w : Nat} {c : Delta} {s : Supply} (h : Supplied v c s) (le : v ≤ w) :
    Supplied w c s := { h with waiting := Nat.le_trans h.waiting le }

/-- Who wants nothing has not waited. -/
theorem Supplied.of_none {w : Nat} {c : Delta} {s : Supply} (h : Supplied w c s)
    (content : c.request = none) : Supplied 0 c s :=
  { h with waiting := Nat.le_of_eq (waiting_of_none s content) }

/-! ## What a cycle does -/

theorem clock_waits {c : Delta} (s : Supply) (waits : c.timer ≠ 0) :
    s.clock c = { s with since := s.since + 1, sprites := s.sprites.map (· + 1) } := by
  simp [clock, waits]

theorem clock_shifts {c : Delta} (s : Supply) (due : c.timer = 0) (more : 1 < c.bits) :
    s.clock c = { s with
      since := s.since + 1
      shortest := min s.shortest (c.period + 1)
      sprites := s.sprites.map (· + 1) } := by
  simp [clock, due, more]

theorem clock_looks {c : Delta} (s : Supply) (due : c.timer = 0) (last : c.bits ≤ 1) :
    s.clock c = look { s with since := s.since + 1, sprites := s.sprites.map (· + 1) } c := by
  simp [clock, due, Nat.not_lt.mpr last]

theorem look_since (s : Supply) (c : Delta) : (s.look c).since = 0 := by
  unfold look
  dsimp only
  split_ifs <;> rfl

theorem look_shortest (s : Supply) (c : Delta) : (s.look c).shortest = c.period + 1 := by
  unfold look
  dsimp only
  split_ifs <;> rfl

/-- A look misses a byte only where one is wanted. -/
theorem look_misses (s : Supply) (c : Delta) : (s.look c).misses =
    if s.begun ∧ c.request.isSome then ⟨s.since, s.shortest, s.sprites⟩ :: s.misses
    else s.misses := by
  unfold look
  dsimp only
  cases h : c.buffer with
  | none => by_cases wanted : s.begun ∧ 0 < c.remaining <;> simp [Delta.request, h, wanted]
  | some byte => simp [Delta.request, h]

@[simp] theorem clock_sprites (s : Supply) (c : Delta) :
    (s.clock c).sprites = s.sprites.map (· + 1) := by
  unfold clock look
  dsimp only
  split_ifs <;> rfl

/-- The pace is set anew by each look, and each bit takes its period. -/
theorem Paced.clock {c : Delta} {s : Supply} (h : Paced c s) : Paced c.clockTimer (s.clock c) := by
  by_cases due : c.timer = 0
  · by_cases last : c.bits ≤ 1
    · obtain ⟨level, shift, silent, looks⟩ := Delta.clockTimer_looks due last
      rw [looks, clock_looks s due last]
      refine ⟨h.period, by simp, fun _ => ?_, fun _ => ?_⟩
      · rw [look_shortest]
        exact h.period
      · rw [look_shortest, look_since]
        simp only
        omega
    · have more : 1 < c.bits := Nat.lt_of_not_le last
      obtain ⟨level, shift, shifts⟩ := Delta.clockTimer_shifts due more
      have bits := h.bits
      rw [shifts, clock_shifts s due more]
      refine ⟨h.period, by simp only; omega, fun begun => ?_, fun begun => ?_⟩
      · obtain ⟨rate, short⟩ := h.shortest begun
        obtain ⟨other, period⟩ := h.period
        dsimp only
        rcases Nat.le_total s.shortest (c.period + 1) with le | le
        · exact ⟨rate, (Nat.min_eq_left le).trans short⟩
        · exact ⟨other, (Nat.min_eq_right le).trans period⟩
      · have pace := h.pace begun
        dsimp only
        have one : 9 - (c.bits - 1) = 9 - c.bits + 1 := by omega
        have old := Nat.mul_le_mul_right (9 - c.bits) (Nat.min_le_left s.shortest (c.period + 1))
        have new := Nat.min_le_right s.shortest (c.period + 1)
        rw [one, Nat.mul_succ]
        omega
  · rw [Delta.clockTimer_waits due, clock_waits s due]
    refine ⟨h.period, h.bits, h.shortest, fun begun => ?_⟩
    have pace := h.pace begun
    simp only
    omega

theorem waiting_of_same {c d : Delta} {s t : Supply} (request : d.request = c.request)
    (begun : t.begun = s.begun) (since : t.since = s.since + 1) :
    t.waiting d = if c.request.isSome ∧ s.begun then s.waiting c + 1 else 0 := by
  unfold waiting
  rw [request, begun, since]
  cases c.request <;> cases s.begun <;> simp

/-- A byte that is wanted has been wanted for one cycle more; a look begins to want one. -/
theorem waiting_clock (c : Delta) (s : Supply) : (s.clock c).waiting c.clockTimer ≤
    if c.request.isSome ∧ s.begun then s.waiting c + 1 else 0 := by
  by_cases due : c.timer = 0
  · by_cases last : c.bits ≤ 1
    · have zero : (s.clock c).waiting c.clockTimer = 0 := by
        rw [clock_looks s due last, waiting, look_since, ite_self]
      rw [zero]
      exact Nat.zero_le _
    · obtain ⟨level, shift, shifts⟩ := Delta.clockTimer_shifts due (Nat.lt_of_not_le last)
      refine Nat.le_of_eq (waiting_of_same ?_ ?_ ?_)
      · rw [shifts]
        rfl
      · rw [clock_shifts s due (Nat.lt_of_not_le last)]
      · rw [clock_shifts s due (Nat.lt_of_not_le last)]
  · refine Nat.le_of_eq (waiting_of_same ?_ ?_ ?_)
    · rw [Delta.clockTimer_waits due]
      rfl
    · rw [clock_waits s due]
    · rw [clock_waits s due]

/-- A miss ends eight bits in which a byte has been wanted all the time. -/
theorem misses_clock {c : Delta} {s : Supply} {miss : Miss} (mem : miss ∈ (s.clock c).misses) :
    miss ∈ s.misses ∨ s.begun ∧ c.request.isSome ∧ c.timer = 0 ∧ c.bits ≤ 1 ∧
      miss = ⟨s.since + 1, s.shortest, s.sprites.map (· + 1)⟩ := by
  by_cases due : c.timer = 0
  · by_cases last : c.bits ≤ 1
    · rw [clock_looks s due last, look_misses] at mem
      split at mem
      next wanted =>
        rcases List.mem_cons.mp mem with missed | old
        · exact .inr ⟨wanted.1, wanted.2, due, last, missed⟩
        · exact .inl old
      next => exact .inl mem
    · rw [clock_shifts s due (Nat.lt_of_not_le last)] at mem
      exact .inl mem
  · rw [clock_waits s due] at mem
    exact .inl mem

/-- How long a byte may have been wanted so that the next cycle does not come too late for it: longer
while a transfer of sprites goes on. -/
def InTime (s : Supply) (w : Nat) : Prop :=
  w < 399 ∨ w < 527 ∧ ∃ ago, s.sprites = some ago ∧ ago < 518

/-- Eight bits of any rate take 400 cycles, so a miss behind fewer than 528 is one at the fastest rate
and during a transfer of sprites. -/
theorem crowded_of_wanted {w : Nat} {c : Delta} {s : Supply} (h : Supplied w c s) (soon : s.InTime w)
    (begun : s.begun) (wanted : c.request.isSome) (due : c.timer = 0) (last : c.bits ≤ 1) :
    Miss.Crowded ⟨s.since + 1, s.shortest, s.sprites.map (· + 1)⟩ c.region := by
  obtain ⟨rate, shortest⟩ := h.shortest begun
  have since : s.since ≤ w := by
    have waited := h.waiting
    rwa [waiting, if_pos ⟨begun, wanted⟩] at waited
  have eight : 8 * s.shortest ≤ s.since + 1 := by
    have pace := h.pace begun
    have one : c.bits = 1 := Nat.le_antisymm last h.bits.1
    rw [one, due] at pace
    omega
  have long := Delta.fifty_le_periods c.region rate
  rcases soon with soon | ⟨soon, ago, sprites, transfer⟩
  · omega
  · refine ⟨?_, ?_, ago + 1, ?_, transfer⟩
    · simp only
      omega
    · exact shortest.trans (Delta.periods_eq_fastest (by omega))
    · simp [sprites]

/-- A cycle passes in time. -/
theorem Supplied.clock {w : Nat} {c : Delta} {s : Supply} (h : Supplied w c s) (soon : s.InTime w) :
    Supplied (w + 1) c.clockTimer (s.clock c) where
  toPaced := h.toPaced.clock
  waiting := by
    have waited := h.waiting
    refine Nat.le_trans (waiting_clock c s) ?_
    split <;> omega
  misses miss mem := by
    rw [Delta.clockTimer_region]
    rcases misses_clock mem with old | ⟨begun, wanted, due, last, rfl⟩
    · exact h.misses miss old
    · exact crowded_of_wanted h soon begun wanted due last

/-- Behind a cycle before which nothing was wanted, nothing has waited. -/
theorem Supplied.clock_of_none {w : Nat} {c : Delta} {s : Supply} (h : Supplied w c s)
    (content : c.request = none) : Supplied 0 c.clockTimer (s.clock c) := by
  have next := (h.of_none content).clock (.inl (by decide))
  have waited := waiting_clock c s
  rw [content] at waited
  exact { next with waiting := waited }

/-! ## What registers and transfers do -/

/-- The channel may be changed where the pace does not look. -/
theorem Supplied.congr {w : Nat} {c d : Delta} {s : Supply} (h : Supplied w c s)
    (region : d.region = c.region) (bits : d.bits = c.bits) (timer : d.timer = c.timer)
    (request : d.request = c.request)
    (period : ∃ rate, d.period + 1 = (Delta.periods d.region).get rate) : Supplied w d s where
  period := period
  bits := by
    rw [bits]
    exact h.bits
  shortest := by
    rw [region]
    exact h.shortest
  pace := by
    rw [bits, timer]
    exact h.pace
  waiting := by
    have waited := h.waiting
    rwa [Supply.waiting, ← request] at waited
  misses := by
    rw [region]
    exact h.misses

/-- A write to a register may choose another rate, of the same region. -/
theorem Supplied.write_register {w : Nat} {c : Delta} {s : Supply} (h : Supplied w c s)
    (register : Fin 4) (value : UInt8) : Supplied w (c.write register value) s := by
  match register with
  | 0 =>
    have chosen := Delta.fifty_le_periods c.region (.ofNat 16 value.toNat)
    refine h.congr rfl rfl rfl rfl ⟨.ofNat 16 value.toNat, ?_⟩
    simp only [Delta.write]
    omega
  | 1 => exact h.congr rfl rfl rfl rfl h.period
  | 2 => exact h.congr rfl rfl rfl rfl h.period
  | 3 => exact h.congr rfl rfl rfl rfl h.period

/-- A disabled channel wants nothing. -/
theorem Supplied.disable {w : Nat} {c : Delta} {s : Supply} (h : Supplied w c s) :
    Supplied 0 (c.setEnabled false) s where
  toPaced := ⟨h.period, h.bits, h.shortest, h.pace⟩
  waiting := Nat.le_of_eq (waiting_of_none s (by simp [Delta.setEnabled, Delta.request]))
  misses := h.misses

/-- A pass that begins has nothing to miss before its first byte is taken. -/
theorem Supplied.begin {w : Nat} {c : Delta} {s : Supply} (h : Supplied w c s) (stale : Bool) :
    Supplied w c.restart { s with begun := false, stale } where
  period := h.period
  bits := h.bits
  shortest := nofun
  pace := nofun
  waiting := by
    rw [waiting_of_not_begun _ rfl]
    exact Nat.zero_le w
  misses := h.misses

theorem Supplied.enable {w : Nat} {c : Delta} {s : Supply} (h : Supplied w c s) (value : UInt8) :
    Supplied w (c.setEnabled (bit value 4)) (s.write c 0x4015 value) := by
  cases enabled : bit value 4 with
  | false =>
    have unchanged : s.write c 0x4015 value = s := by simp [write, enabled]
    rw [unchanged]
    exact h.disable.mono (Nat.zero_le w)
  | true =>
    by_cases finished : c.remaining = 0
    · simp only [write, Delta.setEnabled, enabled, finished, and_self, if_true]
      exact h.begin _
    · simp only [write, Delta.setEnabled, enabled, finished, and_false, if_false, if_true]
      exact h

/-- A byte that comes ends the wait. -/
theorem Supplied.fill {w : Nat} {c : Delta} {s : Supply} (h : Supplied w c s) (value : UInt8) :
    Supplied 0 (c.fill value) s := by
  have content := c.fill_request value
  obtain ⟨address, remaining, irqFlag, filled⟩ := c.fill_eq value
  rw [filled] at content ⊢
  exact {
    period := h.period
    bits := h.bits
    shortest := h.shortest
    pace := h.pace
    waiting := Nat.le_of_eq (waiting_of_none s content)
    misses := h.misses }

/-- A transfer of sprites that begins delays no byte yet. -/
theorem Supplied.transfer {w : Nat} {c : Delta} {s : Supply} (h : Supplied w c s) :
    Supplied w c s.transfer where
  toPaced := ⟨h.period, h.bits, h.shortest, h.pace⟩
  waiting := h.waiting
  misses := h.misses

theorem write_other {address : UInt16} (s : Supply) (c : Delta) (value : UInt8)
    (other : address ≠ 0x4015) : s.write c address value = s := by
  simp [write, other]

end Supply

/-! ## The sound unit -/

namespace SoundChip

/-- A write reaches the sample channel as one to its registers, as one to the status, or not at all. -/
theorem write_delta (c : SoundChip) (address : UInt16) (value : UInt8) :
    (c.write address value).delta = c.delta.writeAt address value := by
  unfold write Delta.writeAt
  dsimp only
  by_cases own : 0x4010 ≤ address ∧ address ≤ 0x4013
  · have inside : 0x4000 ≤ address ∧ address ≤ 0x4013 :=
      ⟨UInt16.le_trans (by decide) own.1, own.2⟩
    have fourth : (address.toNat - 0x4000) / 4 = 4 := by
      have low : 0x4010 ≤ address.toNat := own.1
      have high : address.toNat ≤ 0x4013 := own.2
      omega
    rw [if_pos own, if_pos inside]
    simp only [fourth]
  · rw [if_neg own]
    split
    next inside =>
      have before : (address.toNat - 0x4000) / 4 < 4 := by
        have low : ¬ (0x4010 ≤ address.toNat ∧ address.toNat ≤ 0x4013) := own
        have high : address.toNat ≤ 0x4013 := inside.2
        omega
      have other : address ≠ 0x4015 := by
        rintro rfl
        exact absurd inside.2 (by decide)
      rw [if_neg other]
      generalize (address.toNat - 0x4000) / 4 = channel at before
      match channel, before with
      | 0, _ | 1, _ | 2, _ | 3, _ => rfl
    next =>
      split
      · rfl
      · split <;> rfl

theorem tick_delta (c : SoundChip) : c.tick.delta = c.delta.clockTimer := by
  unfold tick
  dsimp only
  split <;> split <;> rfl

end SoundChip

theorem Sound.tick_delta (s : Sound) : s.tick.chip.delta = s.chip.delta.clockTimer := by
  unfold tick
  dsimp only
  split <;> exact SoundChip.tick_delta _

namespace Supply.Supplied

variable {w : Nat} {s : Supply}

/-- A write to the sound unit asks for no byte. -/
theorem write {c : Delta} (h : Supplied w c s) (address : UInt16) (value : UInt8) :
    Supplied w (c.writeAt address value) (s.write c address value) := by
  unfold Delta.writeAt
  split
  next own =>
    have other : address ≠ 0x4015 := by
      rintro rfl
      exact absurd own.2 (by decide)
    rw [write_other s _ value other]
    exact h.write_register _ value
  next =>
    split
    next status =>
      have begun := h.enable value
      rw [status]
      exact begun.congr rfl rfl rfl rfl begun.period
    next other =>
      rw [write_other s _ value other]
      exact h

/-- The reset line disables the channel. -/
theorem reset {chip : SoundChip} (h : Supplied w chip.delta s) : Supplied 0 chip.reset.delta s :=
  h.disable.congr rfl rfl rfl rfl h.period

theorem initial (region : Region) : Supplied 0 (.initial region) .initial where
  period := ⟨0, by cases region <;> rfl⟩
  bits := by simp [Delta.initial]
  shortest := nofun
  pace := nofun
  waiting := Nat.le_refl 0
  misses := nofun

end Supply.Supplied

end Famiclone
