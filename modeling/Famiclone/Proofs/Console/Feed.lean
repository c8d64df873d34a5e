import Famiclone.Proofs.Console.Transfers
import Mathlib.Logic.Function.Iterate

/-!
# What feeds the sample channel

The sample channel and its history depend on few things on the mainboard: cycles that pass, writes to
their registers, and transfers. Whatever else is read or written leaves them alone, so they can be
followed by themselves.
-/
namespace Famiclone

/-- The sample channel with its history, and the region it ought to be built for. -/
structure Feed where
  /-- The region of the sound unit. -/
  region : Region
  delta : Delta
  supply : Supply
  deriving DecidableEq, Repr

namespace Feed

def tick (f : Feed) : Feed :=
  { f with delta := f.delta.clockTimer, supply := f.supply.clock f.delta }

def write (f : Feed) (address : UInt16) (value : UInt8) : Feed :=
  { f with
    delta := f.delta.writeAt address value
    supply := f.supply.write f.delta address value }

def transfer (f : Feed) : Feed := { f with supply := f.supply.transfer }

def fill (f : Feed) (value : UInt8) : Feed := { f with delta := f.delta.fill value }

/-! ### Many cycles at once -/

/-- Cycles pass in which the timer does not run out. -/
def jump (n : Nat) (f : Feed) : Feed :=
  { f with
    delta := { f.delta with timer := f.delta.timer - n }
    supply := { f.supply with
      since := f.supply.since + n
      sprites := f.supply.sprites.map (· + n) } }

def elapse : (fuel : Nat) → (n : Nat) → Feed → Feed
  | 0, n, f => tick^[n] f
  | fuel + 1, n, f =>
    if n ≤ f.delta.timer then f.jump n
    else elapse fuel (n - f.delta.timer - 1) (f.jump f.delta.timer).tick

theorem jump_eq {n : Nat} {f : Feed} (h : n ≤ f.delta.timer) : tick^[n] f = f.jump n := by
  induction n with
  | zero => simp [jump]
  | succ n ih =>
    rw [Function.iterate_succ_apply', ih (by omega)]
    have waits : f.delta.timer - n ≠ 0 := by omega
    simp [tick, jump, Delta.clockTimer_waits, Supply.clock_waits, waits, Nat.add_assoc,
      Nat.sub_sub, Function.comp_def]

/-- The shortcut leads where the cycles lead one by one. -/
theorem elapse_eq (fuel n : Nat) (f : Feed) : f.elapse fuel n = tick^[n] f := by
  induction fuel generalizing n f with
  | zero => rfl
  | succ fuel ih =>
    unfold elapse
    split
    next short => exact (jump_eq short).symm
    next long =>
      have parts : n - f.delta.timer - 1 + (1 + f.delta.timer) = n := by omega
      have whole := Function.iterate_add_apply tick (n - f.delta.timer - 1) (1 + f.delta.timer) f
      rw [parts, Function.iterate_add_apply, jump_eq (Nat.le_refl _)] at whole
      rw [ih, whole]
      rfl

/-- Only a write at an address of the channel matters. -/
theorem write_other {address : UInt16} (f : Feed) (value : UInt8)
    (register : ¬ (0x4010 ≤ address ∧ address ≤ 0x4013)) (status : address ≠ 0x4015) :
    f.write address value = f := by
  simp [write, Delta.writeAt, Supply.write, register, status]

end Feed

/-- The registers of the sample channel can only be written. -/
theorem Place.of_register (profile : MemoryProfile) {address : UInt16}
    (register : 0x4010 ≤ address ∧ address ≤ 0x4013) : Place.of profile address = .register := by
  have low : 0x4010 ≤ address.toNat := register.1
  have high : address.toNat ≤ 0x4013 := register.2
  unfold Place.of
  dsimp only
  rw [if_neg (by omega), if_neg (by omega), if_neg (by omega), if_neg (by omega),
    if_neg (by omega), if_pos (by omega)]

namespace Mainboard

/-- The sample channel of a mainboard. -/
def feed (m : Mainboard) : Feed := ⟨m.sound.region, m.sound.chip.delta, m.supply⟩

theorem clock_feed (m : Mainboard) : m.clock.feed = m.feed.tick := by
  have region : m.sound.tick.region = m.sound.region := by
    unfold Sound.tick
    dsimp only
    split <;> rfl
  unfold feed Feed.tick clock
  dsimp only
  rw [Sound.tick_delta, region]

@[simp] theorem access_feed (m : Mainboard) (address : UInt16) :
    (m.access address).2.feed = m.feed := by
  unfold access
  split <;> rfl

theorem read_feed (m : Mainboard) (address : UInt16) : (m.read address).2.feed = m.feed.tick := by
  have found := m.access_feed address
  unfold read
  dsimp only
  rw [clock_feed]
  split
  · rw [found]
  · exact congrArg Feed.tick found

/-- A write to the sound unit, together with the history of its channel. -/
theorem writeSound_feed (m : Mainboard) (address : UInt16) (value : UInt8) :
    ({ m with
        sound := m.sound.write address value
        supply := m.supply.write m.sound.chip.delta address value } : Mainboard).feed =
      m.feed.write address value := by
  unfold feed Feed.write
  dsimp only
  rw [← SoundChip.write_delta]
  rfl

/-- Behind the decoding of addresses each write is one to the sample channel, if it matters to it. -/
theorem store_feed (m : Mainboard) (address : UInt16) (value : UInt8) :
    (m.store address value).feed = m.feed.write address value := by
  have written := m.writeSound_feed address value
  by_cases status : address = 0x4015
  · have place : Place.of m.profile address = .soundStatus := by
      rw [status]
      rfl
    unfold store
    rw [place]
    exact written
  rw [Supply.write_other _ _ _ status] at written
  by_cases register : 0x4010 ≤ address ∧ address ≤ 0x4013
  · have place := Place.of_register m.profile register
    have other : address ≠ spriteTransferAddress := by
      rintro rfl
      exact absurd register.2 (by decide)
    unfold store
    rw [place]
    dsimp only
    rw [if_neg other]
    exact written
  · have same := m.feed.write_other value register status
    rw [same] at written ⊢
    unfold store
    split
    · rfl
    · rfl
    · rfl
    · dsimp only [writeWork]
      split <;> rfl
    · rfl
    · rfl
    · rw [Supply.write_other _ _ _ status]
      exact written
    · rw [Supply.write_other _ _ _ status]
      exact written
    · split
      · rfl
      · exact written

theorem write_feed (m : Mainboard) (address : UInt16) (value : UInt8) :
    (m.write address value).feed = (m.feed.write address value).tick := by
  rw [← store_feed]
  exact clock_feed { m.store address value with openBus := value }

theorem takeTransfer_feed {m : Mainboard} {page : UInt8} (waits : m.spritePage = some page) :
    m.takeTransfer.2.feed = m.feed.transfer := by
  rw [takeTransfer_of_page waits]
  rfl

end Mainboard

end Famiclone
