import Famiclone.Proofs.Board.Past
import Famiclone.Proofs.Board.RiseFilter
import Mathlib.Tactic

/-!
# The countdown of the MMC3

The counter is clocked when the address line rises behind three cycles for which it has been low, and both
can be read off the past of a board. A clock takes one off, or reloads at zero, so that behind a reload the
counter goes round in steps of one more than the latch holds, and raises the interrupt where it reaches
zero.
-/
namespace Famiclone

namespace BoardEvent

/-- The level that an event gives to the address line. -/
def level? : BoardEvent → Option Bool
  | observe address => some (line12 address)
  | _ => none

/-- The event takes back the interrupt and disables it. -/
def Silences (e : BoardEvent) : Prop := e = .reset ∨ (e.written? 0xE000).isSome

instance : DecidablePred Silences := fun _ => inferInstanceAs (Decidable (_ ∨ _))

end BoardEvent

namespace Past

def line : Past → Bool
  | [] => false
  | e :: before => e.level?.getD (line before)

/-- The cycles since the address line last fell, or since the beginning. -/
def sinceFall : Past → Nat
  | [] => 0
  | e :: before =>
    if e.level? = some false ∧ line before then 0
    else if e = .clock then sinceFall before + 1
    else sinceFall before

/-- The next event is a rise of the address line that counts. -/
def Counts (past : Past) (e : BoardEvent) : Prop :=
  e.level? = some true ∧ past.line = false ∧ 3 ≤ past.sinceFall

instance (past : Past) : DecidablePred past.Counts := fun _ => inferInstanceAs (Decidable (_ ∧ _))

def latch : Past → UInt8
  | [] => 0
  | e :: before => (e.written? 0xC000).getD (latch before)

def enabled : Past → Bool
  | [] => false
  | e :: before => !decide e.Silences && (enabled before || (e.written? 0xE001).isSome)

/-- How often the counter is clocked in what comes later. -/
def clocksIn (start : Past) : Past → Nat
  | [] => 0
  | e :: later => clocksIn start later + if Counts (later ++ start) e then 1 else 0

/-- A reload has been asked for, and since then neither again nor has the latch been given another value. -/
structure Steady (start later : Past) : Prop where
  asks : ∃ e before, start = e :: before ∧ (e.written? 0xC001).isSome
  keeps : ∀ e ∈ later, e.written? 0xC001 = none ∧ (e.written? 0xC000).getD start.latch = start.latch

theorem Steady.tail {start later : Past} {e : BoardEvent} (h : Steady start (e :: later)) :
    Steady start later :=
  ⟨h.asks, fun other there => h.keeps other (List.mem_cons_of_mem e there)⟩

theorem clocksIn_append_le (start since before : Past) :
    start.clocksIn before ≤ start.clocksIn (since ++ before) := by
  induction since with
  | nil => exact le_rfl
  | cons e since ih => exact ih.trans (Nat.le_add_right _ _)

end Past

namespace Mmc3

/-! ## The address line -/

theorem observe_line (b : Mmc3) (address : UInt16) :
    (b.observe address).a12 = line12 address ∧ (b.observe address).lowCycles =
      if line12 address = false ∧ b.a12 = true then 0 else b.lowCycles := by
  cases high : line12 address <;> cases level : b.a12
  · simp [b.observe_of_same address (by rw [high, level]), level]
  · simp [b.observe_of_fall address high level]
  · rw [b.observe_of_rise address high level]
    split <;> simp [countRise]
  · simp [b.observe_of_same address (by rw [high, level]), level]

/-- What a board does when it sees an address. -/
theorem observe_eq (b : Mmc3) (address : UInt16) : ∃ lowCycles, b.observe address =
    { (if b.countsAt address then b.countRise else b) with a12 := line12 address, lowCycles } := by
  have level := (b.observe_line address).1
  cases counts : b.countsAt address with
  | true =>
    rw [b.observe_of_counts address counts] at level ⊢
    exact ⟨b.lowCycles, by rw [← level]; rfl⟩
  | false =>
    obtain ⟨a12, lowCycles, seen⟩ := b.observe_of_not_counts address counts
    rw [seen] at level ⊢
    exact ⟨lowCycles, by rw [← level]; rfl⟩

/-- A cycle matters to the filter alone. -/
theorem clock_eq (b : Mmc3) : ∃ lowCycles, b.clock = { b with lowCycles } := by
  unfold clock
  split
  · exact ⟨b.lowCycles, rfl⟩
  · exact ⟨_, rfl⟩

theorem happen_line (b : Mmc3) (e : BoardEvent) : (b.happen e).a12 = e.level?.getD b.a12 ∧
    (b.happen e).lowCycles =
      if e.level? = some false ∧ b.a12 = true then 0
      else if e = .clock ∧ b.a12 = false then b.lowCycles.advance 1
      else b.lowCycles := by
  cases e with
  | write address value =>
    obtain ⟨page, half, wrote, -⟩ := b.happen_write address value
    generalize b.happen (.write address value) = behind at wrote
    cases wrote <;> simp [BoardEvent.level?, update]
  | observe address => simpa [BoardEvent.level?, happen] using b.observe_line address
  | clock => cases level : b.a12 <;> simp [BoardEvent.level?, happen, clock, level]
  | _ => simp [BoardEvent.level?, happen, reset, update]

variable (banks : Banks) (wired : Mirroring)

/-- A board keeps the level of the line, and for as long as it is low the cycles since it fell, as far as
its counter goes. -/
theorem aged_line (past : Past) : ((mount banks wired).aged past).a12 = past.line ∧
    (past.line = false →
      ((mount banks wired).aged past).lowCycles.val = min past.sinceFall 255) := by
  induction past with
  | nil => exact ⟨rfl, fun _ => rfl⟩
  | cons e before ih =>
    obtain ⟨level, cycles⟩ := ih
    obtain ⟨line, low⟩ := ((mount banks wired).aged before).happen_line e
    rw [level] at line low
    refine ⟨line, fun silent => ?_⟩
    rw [aged_cons, low, Past.sinceFall]
    cases up : Past.line before with
    | false =>
      by_cases cycle : e = .clock
      · simp [cycle, cycles up]
        omega
      · simp [cycle, cycles up]
    | true =>
      have falls : e.level? = some false := by
        rw [Past.line, up] at silent
        cases taken : e.level? <;> simp_all
      simp [falls]

/-! ## The counter -/

/-- Whether an event clocks the counter. -/
def clockedBy (b : Mmc3) : BoardEvent → Bool
  | .observe address => b.countsAt address
  | _ => false

theorem clockedBy_iff (past : Past) (e : BoardEvent) :
    ((mount banks wired).aged past).clockedBy e = true ↔ past.Counts e := by
  obtain ⟨level, cycles⟩ := aged_line banks wired past
  cases e with
  | observe address =>
    rw [clockedBy, countsAt_iff, level, Past.Counts, BoardEvent.level?, Option.some_inj]
    refine and_congr_right fun _ => and_congr_right fun low => ?_
    rw [cycles low, a12LowCycles]
    omega
  | _ => simp [clockedBy, Past.Counts, BoardEvent.level?]

/-- What an event does to the counter and to its interrupt. -/
structure Counted (b : Mmc3) (e : BoardEvent) (behind : Mmc3) : Prop where
  latch : behind.irqLatch = (e.written? 0xC000).getD b.irqLatch
  counter : behind.irqCounter =
    if (e.written? 0xC001).isSome then 0
    else if b.clockedBy e then b.countRise.irqCounter else b.irqCounter
  reload : behind.irqReload =
    ((e.written? 0xC001).isSome || !b.clockedBy e && b.irqReload)
  enabled : behind.irqEnabled =
    (!decide e.Silences && (b.irqEnabled || (e.written? 0xE001).isSome))
  pending : behind.irqPending =
    (!decide e.Silences && if b.clockedBy e then b.countRise.irqPending else b.irqPending)

theorem happen_counted (b : Mmc3) (e : BoardEvent) : b.Counted e (b.happen e) := by
  cases e with
  | write address value =>
    obtain ⟨page, half, wrote, told⟩ := b.happen_write address value
    generalize b.happen (.write address value) = behind at wrote
    cases wrote with
    | below low =>
      constructor <;> simp [told, clockedBy, BoardEvent.Silences, show page ≠ 6 by omega,
        show page ≠ 7 by omega]
    | _ => constructor <;> simp [told, clockedBy, BoardEvent.Silences, update]
  | observe address =>
    obtain ⟨lowCycles, seen⟩ := b.observe_eq address
    rw [happen, seen]
    cases counts : b.countsAt address <;> constructor <;>
      simp [clockedBy, counts, countRise, BoardEvent.Silences, BoardEvent.written?]
  | clock =>
    obtain ⟨lowCycles, passed⟩ := b.clock_eq
    rw [happen, passed]
    constructor <;> simp [clockedBy, BoardEvent.Silences, BoardEvent.written?]
  | _ =>
    constructor <;>
      simp [happen, reset, update, clockedBy, BoardEvent.Silences, BoardEvent.written?]

/-- The counter, this many clocks behind the reload that has been asked for last. -/
def Rounds (b : Mmc3) : Nat → Prop
  | 0 => b.irqCounter = 0 ∧ b.irqReload = true
  | clocks + 1 => b.irqReload = false ∧
      b.irqCounter.toNat = b.irqLatch.toNat - clocks % (b.irqLatch.toNat + 1)

theorem countRise_irqCounter (b : Mmc3) : b.countRise.irqCounter =
    if b.irqCounter = 0 ∨ b.irqReload = true then b.irqLatch else b.irqCounter - 1 := by
  simp [countRise]

variable {b : Mmc3} {clocks : Nat}

/-- A clock takes the counter one further. -/
theorem Rounds.countRise (h : b.Rounds clocks) : b.countRise.Rounds (clocks + 1) := by
  refine ⟨rfl, ?_⟩
  rw [countRise_irqCounter]
  show _ = b.irqLatch.toNat - clocks % (b.irqLatch.toNat + 1)
  cases clocks with
  | zero => simp [h.1]
  | succ clocks =>
    obtain ⟨reload, counter⟩ := h
    have most : clocks % (b.irqLatch.toNat + 1) ≤ b.irqLatch.toNat :=
      Nat.le_of_lt_succ (Nat.mod_lt clocks (Nat.succ_pos _))
    by_cases zero : b.irqCounter = 0
    · have last : clocks % (b.irqLatch.toNat + 1) = b.irqLatch.toNat := by
        simp only [zero, UInt8.toNat_zero] at counter
        omega
      rw [if_pos (.inl zero), Nat.succ_mod_succ_eq_zero_iff.mpr last, Nat.sub_zero]
    · have above : 1 ≤ b.irqCounter.toNat :=
        Nat.one_le_iff_ne_zero.mpr (mt (UInt8.toNat_inj (b := 0)).mp zero)
      have next : (clocks + 1) % (b.irqLatch.toNat + 1) = clocks % (b.irqLatch.toNat + 1) + 1 := by
        rw [← Nat.mod_add_mod, Nat.mod_eq_of_lt (by omega)]
      rw [if_neg (by simp [zero, reload]), next, UInt8.toNat_sub_of_le _ _ above, counter]
      rfl

/-- It ends a round with every clock whose number is a multiple of the length of one. -/
theorem Rounds.ends_iff (h : b.Rounds clocks) :
    b.countRise.irqCounter = 0 ↔ b.irqLatch.toNat + 1 ∣ clocks + 1 := by
  have most : clocks % (b.irqLatch.toNat + 1) ≤ b.irqLatch.toNat :=
    Nat.le_of_lt_succ (Nat.mod_lt clocks (Nat.succ_pos _))
  have counter : b.countRise.irqCounter.toNat =
    b.irqLatch.toNat - clocks % (b.irqLatch.toNat + 1) := h.countRise.2
  rw [Nat.dvd_iff_mod_eq_zero, Nat.succ_mod_succ_eq_zero_iff, ← UInt8.toNat_inj, counter,
    UInt8.toNat_zero]
  omega

/-- An event that asks for no reload and keeps the latch takes the counter further if it clocks it. -/
theorem Rounds.happen (h : b.Rounds clocks) {e : BoardEvent} (quiet : e.written? 0xC001 = none)
    (same : (e.written? 0xC000).getD b.irqLatch = b.irqLatch) :
    (b.happen e).Rounds (clocks + if b.clockedBy e then 1 else 0) := by
  obtain ⟨latch, counter, reload, -, -⟩ := b.happen_counted e
  rw [same] at latch
  rw [quiet] at counter reload
  cases clocked : b.clockedBy e with
  | true =>
    rw [clocked] at counter reload
    exact ⟨reload, by rw [counter, latch]; exact h.countRise.2⟩
  | false =>
    rw [clocked] at counter reload
    cases clocks with
    | zero => exact ⟨counter.trans h.1, reload.trans h.2⟩
    | succ clocks => exact ⟨reload.trans h.1, by rw [counter, latch]; exact h.2⟩

/-! ## Behind every past -/

theorem aged_irqLatch (past : Past) : ((mount banks wired).aged past).irqLatch = past.latch := by
  induction past with
  | nil => rfl
  | cons e before ih => rw [aged_cons, (happen_counted _ e).latch, ih, Past.latch]

theorem aged_irqEnabled (past : Past) :
    ((mount banks wired).aged past).irqEnabled = past.enabled := by
  induction past with
  | nil => rfl
  | cons e before ih => rw [aged_cons, (happen_counted _ e).enabled, ih, Past.enabled]

variable {start : Past}

theorem latch_of_steady {later : Past} (steady : start.Steady later) :
    Past.latch (later ++ start) = start.latch := by
  induction later with
  | nil => rfl
  | cons e later ih =>
    rw [List.cons_append, Past.latch, ih steady.tail]
    exact (steady.keeps e List.mem_cons_self).2

/-- Behind a reload that has been asked for, the counter goes round. -/
theorem rounds_of_steady {later : Past} (steady : start.Steady later) :
    ((mount banks wired).aged (later ++ start)).Rounds (start.clocksIn later) := by
  induction later with
  | nil =>
    obtain ⟨e, before, rfl, asks⟩ := steady.asks
    have counted := happen_counted ((mount banks wired).aged before) e
    exact ⟨counted.counter.trans (if_pos asks), counted.reload.trans (by rw [asks]; rfl)⟩
  | cons e later ih =>
    obtain ⟨quiet, same⟩ := steady.keeps e List.mem_cons_self
    have latch := aged_irqLatch banks wired (later ++ start)
    rw [latch_of_steady steady.tail] at latch
    have step := (ih steady.tail).happen quiet (by rwa [latch])
    simp only [clockedBy_iff] at step
    exact step

/-- The interrupt stays unless it is silenced, and is raised by a clock that takes the counter to zero. -/
theorem aged_irqPending (past : Past) (e : BoardEvent) :
    ((mount banks wired).aged (e :: past)).irqPending = true ↔
      ¬ e.Silences ∧ (((mount banks wired).aged past).irqPending = true ∨
        past.Counts e ∧ past.enabled = true ∧
          ((mount banks wired).aged past).countRise.irqCounter = 0) := by
  have clocked := clockedBy_iff banks wired past e
  rw [aged_cons, (happen_counted _ e).pending, ← aged_irqEnabled banks wired past, ← clocked]
  generalize (mount banks wired).aged past = b
  have raised : b.countRise.irqPending =
    (b.irqPending || (b.countRise.irqCounter == 0 && b.irqEnabled)) := rfl
  rw [raised]
  cases b.clockedBy e <;> simp [and_comm]

theorem not_silences_of_counts {past : Past} {e : BoardEvent} (h : past.Counts e) :
    ¬ e.Silences := by
  cases e <;> simp_all [Past.Counts, BoardEvent.level?, BoardEvent.Silences, BoardEvent.written?]

/-- Behind a reload that has been asked for, the interrupt is raised where a round ends. -/
theorem irqPending_of_steady {later : Past} (steady : start.Steady later) (e : BoardEvent) :
    ((mount banks wired).aged (e :: (later ++ start))).irqPending = true ↔
      ¬ e.Silences ∧ (((mount banks wired).aged (later ++ start)).irqPending = true ∨
        Past.Counts (later ++ start) e ∧ Past.enabled (later ++ start) = true ∧
          start.latch.toNat + 1 ∣ start.clocksIn later + 1) := by
  rw [aged_irqPending, (rounds_of_steady banks wired steady).ends_iff, aged_irqLatch,
    latch_of_steady steady]

/-- Enabled and not silenced, it has been raised if a round has ended since. -/
theorem irqPending_since {since before : Past} (steady : start.Steady (since ++ before))
    (off : ((mount banks wired).aged (before ++ start)).irqPending = false)
    (enabled : Past.enabled (before ++ start) = true) (loud : ∀ e ∈ since, ¬ e.Silences) :
    Past.enabled (since ++ before ++ start) = true ∧
      (((mount banks wired).aged (since ++ before ++ start)).irqPending = true ↔
        ∃ m, start.latch.toNat + 1 ∣ m ∧ start.clocksIn before < m ∧
          m ≤ start.clocksIn (since ++ before)) := by
  induction since with
  | nil =>
    refine ⟨enabled, ?_⟩
    rw [List.nil_append, off]
    simp
  | cons e since ih =>
    rw [List.cons_append] at steady
    obtain ⟨here, rest⟩ := List.forall_mem_cons.mp loud
    obtain ⟨still, pending⟩ := ih steady.tail rest
    have least := start.clocksIn_append_le since before
    rw [List.cons_append, List.cons_append]
    refine ⟨by rw [Past.enabled, still]; simp [here], ?_⟩
    rw [irqPending_of_steady banks wired steady.tail e, pending, Past.clocksIn]
    by_cases clocks : Past.Counts (since ++ before ++ start) e
    · rw [if_pos clocks]
      constructor
      · rintro ⟨-, ⟨m, whole, after, upTo⟩ | ⟨-, -, whole⟩⟩
        · exact ⟨m, whole, after, by omega⟩
        · exact ⟨_, whole, by omega, le_rfl⟩
      · rintro ⟨m, whole, after, upTo⟩
        obtain upTo | rfl := Nat.le_or_eq_of_le_succ upTo
        · exact ⟨here, .inl ⟨m, whole, after, upTo⟩⟩
        · exact ⟨here, .inr ⟨clocks, still, whole⟩⟩
    · rw [if_neg clocks]
      simp only [here, clocks, not_false_eq_true, true_and, false_and, or_false, Nat.add_zero]

/-- The countdown can be read off the past of a board. A seen address clocks the counter if it makes the
line rise behind three cycles or more for which it has been low, and otherwise changes the filter alone.
Behind a reload that has been asked for, with the latch left alone, the counter goes round from what the
latch holds to zero. An interrupt that is enabled and not raised is raised by the clock that ends a round:
from the reload on by the first one, and acknowledged and enabled again by the next one. It is never raised
while it is disabled, and only a reset and the register that disables it take it back. -/
theorem countdown_follows_past :
    let chip (past : Past) := (mount banks wired).aged past
    (∀ (past : Past) (address : UInt16), ∃ lowCycles, chip (.observe address :: past) =
      { (if past.Counts (.observe address) then (chip past).countRise else chip past) with
        a12 := line12 address, lowCycles }) ∧
    (∀ past : Past, (chip past).irqEnabled = past.enabled) ∧
    (∀ start later : Past, start.Steady later →
      let past : Past := later ++ start
      let n := start.latch.toNat
      let clocks := start.clocksIn later
      (1 ≤ clocks → (chip past).irqCounter.toNat = n - (clocks - 1) % (n + 1)) ∧
      ∀ e, (chip past).irqPending = false →
        ((chip (e :: past)).irqPending = true ↔
          past.Counts e ∧ past.enabled = true ∧ n + 1 ∣ clocks + 1)) ∧
    (∀ start before since : Past, start.Steady (since ++ before) →
      (chip (before ++ start)).irqPending = false → Past.enabled (before ++ start) = true →
      (∀ e ∈ since, ¬ e.Silences) →
      ((chip (since ++ before ++ start)).irqPending = true ↔ ∃ m, start.latch.toNat + 1 ∣ m ∧
        start.clocksIn before < m ∧ m ≤ start.clocksIn (since ++ before))) ∧
    (∀ (past : Past) (e : BoardEvent), (chip past).irqPending = false →
      (chip (e :: past)).irqPending = true → past.enabled = true ∧ past.Counts e) ∧
    ∀ (past : Past) (e : BoardEvent), (chip past).irqPending = true →
      ((chip (e :: past)).irqPending = false ↔ e.Silences) := by
  intro chip
  refine ⟨fun past address => ?_, aged_irqEnabled banks wired, fun start later steady => ⟨?_, ?_⟩,
    fun start before since steady off enabled loud => ?_, fun past e off on => ?_,
    fun past e on => ?_⟩
  · obtain ⟨lowCycles, seen⟩ := (chip past).observe_eq address
    refine ⟨lowCycles, seen.trans ?_⟩
    simp only [← clockedBy_iff banks wired past]
    rfl
  · have rounds := rounds_of_steady banks wired steady
    intro some
    obtain ⟨clocks, number⟩ := Nat.exists_eq_add_of_le' some
    rw [number] at rounds ⊢
    obtain ⟨-, counter⟩ := rounds
    rwa [aged_irqLatch, latch_of_steady steady] at counter
  · intro e off
    rw [irqPending_of_steady banks wired steady e, off]
    constructor
    · rintro ⟨-, on | raises⟩
      · contradiction
      · exact raises
    · intro raises
      exact ⟨not_silences_of_counts raises.1, .inr raises⟩
  · exact (irqPending_since banks wired steady off enabled loud).2
  · obtain ⟨-, still | ⟨clocks, enabled, -⟩⟩ := (aged_irqPending banks wired past e).mp on
    · exact absurd still (by rw [off]; exact Bool.false_ne_true)
    · exact ⟨enabled, clocks⟩
  · have on : ((mount banks wired).aged past).irqPending = true := on
    rw [← Bool.not_eq_true, aged_irqPending]
    simp [on]

/-- With one in the latch the interrupt comes with the second rise that counts behind the reload. Of the three
rises here the middle one comes too soon, behind two cycles. -/
theorem third_rise_raises :
    let chip (past : Past) := (mount (.mount ⟨1, 0, 0, 0, 0, 0, 0, 0, 0⟩ #[] #[]) .vertical).aged past
    let start : Past := [.write 0xC001 0, .write 0xC000 1, .write 0xE001 0]
    let later : Past := [.clock, .clock, .clock, .observe 0, .observe 0x1000, .clock, .clock, .observe 0,
      .observe 0x1000, .clock, .clock, .clock]
    start.Steady later ∧ start.clocksIn later = 1 ∧
      (chip (later ++ start)).irqCounter = 1 ∧ (chip (later ++ start)).irqPending = false ∧
      (chip (.observe 0x1000 :: (later ++ start))).irqPending = true := by
  intro chip start later
  obtain ⟨-, -, behind, since, -⟩ :=
    countdown_follows_past (.mount ⟨1, 0, 0, 0, 0, 0, 0, 0, 0⟩ #[] #[]) .vertical
  have steady : start.Steady later := ⟨⟨_, _, rfl, rfl⟩, by decide⟩
  have clocks : start.clocksIn later = 1 := by decide
  have latch : start.latch.toNat = 1 := by decide
  obtain ⟨counter, raised⟩ := behind start later steady
  simp only [latch, clocks] at counter raised
  have off : (chip (later ++ start)).irqPending = false := by
    rw [← Bool.not_eq_true]
    intro on
    have round := since start [] later (by simpa using steady) rfl (by decide) (by decide)
    have none : start.clocksIn [] = 0 := rfl
    simp only [List.append_nil, latch, clocks, none] at round
    obtain ⟨m, whole, after, upTo⟩ := round.mp on
    exact absurd (Nat.le_of_dvd after whole) (by omega)
  refine ⟨steady, clocks, UInt8.toNat_inj.mp (counter le_rfl), off, ?_⟩
  exact (raised _ off).mpr ⟨by decide, by decide, by decide⟩

end Mmc3

end Famiclone
