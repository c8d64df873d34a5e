import Famiclone.Mainboard
import Famiclone.Proofs.Processor.Course
import Famiclone.Proofs.Processor.Duration
import Famiclone.Proofs.Sound.Supply

/-!
# Transfers before a read

Before each read the processor serves the transfers that wait until none does. Nothing that happens while
it is halted can ask for another transfer of sprites, and a byte that has been delivered keeps the sample
channel from asking again. So there are two transfers at most, sprites before samples, and a bound on the
cycles of an instruction follows: a transfer of sprites is paid for by the write that asked for it.
-/
namespace Famiclone

variable {β : Type} [ProcessorBus β]

/-! ## The loop without a bound -/

/-- The transfers that the processor serves, one after the other, until none waits. -/
inductive Exec.Serves (halted : UInt16) : List Transfer → Machine β → Machine β → Prop
  | done {m : Machine β} (none : (ProcessorBus.takeTransfer m.bus).1 = none) :
      Serves halted [] m { m with bus := (ProcessorBus.takeTransfer m.bus).2 }
  | next {m n : Machine β} {t : Transfer} {rest : List Transfer}
      (waits : (ProcessorBus.takeTransfer m.bus).1 = some t)
      (served : Serves halted rest
        (Exec.serve halted t { m with bus := (ProcessorBus.takeTransfer m.bus).2 }).2 n) :
      Serves halted (t :: rest) m n

/-- At most one transfer of sprites and one of a sample, in this order. -/
def Transfer.inTurn (page : Option UInt8) (address : Option UInt16) : List Transfer :=
  (page.map Transfer.sprites).toList ++ (address.map Transfer.sample).toList

/-! ## What keeps the mainboard from asking again -/

namespace Mainboard

@[simp] theorem access_spritePage (m : Mainboard) (address : UInt16) :
    (m.access address).2.spritePage = m.spritePage := by
  unfold access
  split <;> rfl

@[simp] theorem read_spritePage (m : Mainboard) (address : UInt16) :
    (m.read address).2.spritePage = m.spritePage := by
  have found := m.access_spritePage address
  unfold read
  dsimp only
  split <;> exact found

/-- Only one address asks for a transfer of sprites. -/
theorem write_spritePage (m : Mainboard) {address : UInt16} (value : UInt8)
    (other : address ≠ spriteTransferAddress) :
    (m.write address value).spritePage = m.spritePage := by
  have stored : (m.store address value).spritePage = m.spritePage := by
    unfold store
    split
    · rfl
    · rfl
    · rfl
    · unfold writeWork
      split <;> rfl
    · rfl
    · rfl
    · rfl
    · rfl
    · rw [if_neg other]
  exact stored

theorem takeTransfer_of_page {m : Mainboard} {page : UInt8} (h : m.spritePage = some page) :
    m.takeTransfer =
      (some (.sprites page), { m with spritePage := none, supply := m.supply.transfer }) := by
  unfold takeTransfer
  rw [h]

/-- Where nothing waits the mainboard stays as it is. -/
theorem takeTransfer_none {m : Mainboard} (h : m.takeTransfer.1 = none) : m.takeTransfer.2 = m := by
  unfold takeTransfer at h ⊢
  split at h
  · contradiction
  · rfl

theorem takeTransfer_of_none {m : Mainboard} (h : m.spritePage = none) :
    m.takeTransfer = (m.sound.chip.delta.request.map .sample, m) := by
  unfold takeTransfer
  rw [h]

end Mainboard

/-! ## What a transfer costs -/

/-- The most cycles that a transfer takes. -/
def Transfer.cost : Transfer → Nat
  | .sprites _ => 514
  | .sample _ => 4

namespace Machine

/-- A relation that holds across the cycles of transfers, where cycles may be left over. -/
structure Idling (R : Nat → Machine β → Machine β → Prop) : Prop extends Additive R where
  spare : ∀ {k m n}, R k m n → R (k + 1) m n
  read : ∀ m address, R 1 m (Exec.cycleRead address m).2
  sprite : ∀ m value, R 1 m (Exec.write Exec.spriteData value m).2
  deliver : ∀ m value, R 0 m { m with bus := ProcessorBus.deliver m.bus value }

omit [ProcessorBus β] in
theorem Additive.forM {α : Type} {R : Nat → Machine β → Machine β → Prop}
    (additive : Additive R) {k : Nat} (xs : List α) {action : α → Exec β PUnit}
    (h : ∀ x, Exec.Makes R k (action x)) : Exec.Makes R (xs.length * k) (xs.forM action) := by
  induction xs with
  | nil =>
    rw [List.length_nil, Nat.zero_mul]
    exact additive.pure _
  | cons x xs ih =>
    have both := additive.bind (h x) fun _ => ih
    rwa [Nat.add_comm, ← Nat.succ_mul] at both

namespace Idling

open Exec

variable {R : Nat → Machine β → Machine β → Prop} (idling : Idling R)
include idling

theorem spares {j k : Nat} {m n : Machine β} (h : R j m n) (le : j ≤ k) : R k m n := by
  induction le with
  | refl => exact h
  | step _ ih => exact idling.spare ih

theorem cycleRead (address : UInt16) : Makes R 1 (Exec.cycleRead (β := β) address) :=
  fun m => idling.read m address

theorem copySprite (page : UInt8) (index : Nat) :
    Makes R 2 (Exec.copySprite (β := β) page index) :=
  idling.bind (idling.cycleRead _) fun value m => idling.sprite m value

/-- A transfer takes no more cycles than it costs. -/
theorem serve (halted : UInt16) (t : Transfer) : Makes R t.cost (Exec.serve (β := β) halted t) := by
  have idle := idling.cycleRead halted
  cases t with
  | sprites page =>
    have copies : Makes R 512 ((List.range 256).forM (Exec.copySprite (β := β) page)) := by
      have each := idling.forM (List.range 256) (idling.copySprite page)
      rwa [List.length_range] at each
    have odd : Makes R 513 _ := idling.bind idle fun _ => copies
    have rest (m : Machine β) : Makes R 513 (if m.cpu.cycles % 2 = 1 then do
        let _ ← Exec.cycleRead halted
        (List.range 256).forM (Exec.copySprite page)
        else (List.range 256).forM (Exec.copySprite page)) := by
      split
      · exact odd
      · exact fun n => idling.spare (copies n)
    have whole := idling.bind idle fun _ => idling.bind_zero idling.get rest
    exact whole
  | sample address =>
    have delivered (value : UInt8) : Makes R 0 (modify fun m : Machine β =>
        { m with bus := ProcessorBus.deliver m.bus value }) := fun m => idling.deliver m value
    have whole := idling.bind idle fun _ => idling.bind idle fun _ => idling.bind idle fun _ =>
      idling.bind (idling.cycleRead address) delivered
    exact whole

end Idling

/-- A number of cycles at most, in which no transfer of sprites is asked for or taken. -/
def Halted (k : Nat) (m n : Machine Mainboard) : Prop :=
  n.bus.spritePage = m.bus.spritePage ∧ n.cpu.cycles ≤ m.cpu.cycles + k

theorem halted_idling : Idling Halted where
  refl _ := ⟨rfl, Nat.le_refl _⟩
  trans first second := by
    refine ⟨second.1.trans first.1, ?_⟩
    have := first.2
    have := second.2
    omega
  spare h := ⟨h.1, Nat.le_succ_of_le h.2⟩
  read m address := ⟨m.bus.read_spritePage address, Nat.le_refl _⟩
  sprite m value := ⟨m.bus.write_spritePage value (by decide), Nat.le_refl _⟩
  deliver _ _ := ⟨rfl, Nat.le_refl _⟩

end Machine

namespace Exec

open Machine

/-- Behind the transfer of a sample the channel asks for no other. -/
theorem serve_sample_request (halted address : UInt16) (m : Machine Mainboard) :
    (serve halted (.sample address) m).2.bus.sound.chip.delta.request = none := by
  have delivered : ∃ (bus : Mainboard) (value : UInt8),
      (serve halted (.sample address) m).2.bus = bus.deliver value := ⟨_, _, rfl⟩
  obtain ⟨bus, value, delivered⟩ := delivered
  rw [delivered]
  exact Delta.fill_request _ _

/-! ## The loop on the mainboard -/

/-- The bound is not reached before the loop has ended by itself. -/
theorem serveAll_of_serves {halted : UInt16} {ts : List Transfer} {m n : Machine Mainboard}
    (serves : Serves halted ts m n) {limit : Nat} (room : ts.length ≤ limit) :
    (serveAll halted limit m).2 = n := by
  induction serves generalizing limit with
  | @done m none =>
    cases limit with
    | zero =>
      have same : m.bus.takeTransfer.2 = m.bus := Mainboard.takeTransfer_none none
      show m = { m with bus := m.bus.takeTransfer.2 }
      rw [same]
    | succ limit => exact serveAll_done none
  | next waits served ih =>
    cases limit with
    | zero => exact absurd room (Nat.not_succ_le_zero _)
    | succ limit =>
      rw [serveAll_next waits]
      exact ih (Nat.le_of_succ_le_succ room)

theorem serves_nil {halted : UInt16} {m : Machine Mainboard} (page : m.bus.spritePage = none)
    (sample : m.bus.sound.chip.delta.request = none) : Serves halted [] m m := by
  have none : m.bus.takeTransfer = (none, m.bus) := by
    rw [Mainboard.takeTransfer_of_none page, sample]
    rfl
  have done : Serves halted [] m { m with bus := m.bus.takeTransfer.2 } :=
    .done (congrArg Prod.fst none)
  rwa [none] at done

/-- The machine from which the transfers are served when the first one has been taken. -/
def taken (m : Machine Mainboard) : Machine Mainboard := { m with bus := m.bus.takeTransfer.2 }

theorem taken_of_none {m : Machine Mainboard} (page : m.bus.spritePage = none) : taken m = m := by
  unfold taken
  rw [Mainboard.takeTransfer_of_none page]

/-- Where no transfer of sprites waits there is one of a sample at most. -/
theorem serves_sample (halted : UInt16) {m : Machine Mainboard} (page : m.bus.spritePage = none) :
    ∃ n, Serves halted (Transfer.inTurn none m.bus.sound.chip.delta.request) m n ∧
      n.bus.spritePage = none ∧ n.bus.sound.chip.delta.request = none ∧
      ∀ {R}, Idling R → R 4 m n := by
  cases wanted : m.bus.sound.chip.delta.request with
  | none =>
    exact ⟨m, serves_nil page wanted, page, wanted, fun idling =>
      idling.spares (idling.refl m) (Nat.zero_le 4)⟩
  | some address =>
    have asked : m.bus.takeTransfer = (some (.sample address), m.bus) := by
      rw [Mainboard.takeTransfer_of_none page, wanted]
      rfl
    have kept := (halted_idling.serve halted (.sample address) m).1.trans page
    have content := serve_sample_request halted address m
    refine ⟨_, .next (congrArg Prod.fst asked) ?_, kept, content, fun idling =>
      idling.serve halted (.sample address) m⟩
    rw [show (ProcessorBus.takeTransfer m.bus).2 = m.bus from congrArg Prod.snd asked]
    exact serves_nil kept content

/-- The loop of every read ends: it serves one transfer of sprites and one of a sample at most, and leaves
none. -/
theorem serves_inTurn (halted : UInt16) (m : Machine Mainboard) :
    ∃ address, Serves halted (Transfer.inTurn m.bus.spritePage address) m (serveAll halted 2 m).2 ∧
      (serveAll halted 2 m).2.bus.spritePage = none ∧
      (serveAll halted 2 m).2.bus.sound.chip.delta.request = none ∧
      ∀ {R}, Idling R →
        R (514 * m.bus.spritePage.isSome.toNat + 4) (taken m) (serveAll halted 2 m).2 := by
  have one (address : Option UInt16) : (Transfer.inTurn none address).length ≤ 1 := by
    cases address <;> simp [Transfer.inTurn]
  cases page : m.bus.spritePage with
  | none =>
    obtain ⟨n, serves, none, content, cost⟩ := serves_sample halted page
    have same := serveAll_of_serves serves (Nat.le_succ_of_le (one _))
    rw [same, taken_of_none page]
    exact ⟨_, serves, none, content, cost⟩
  | some first =>
    have asked := Mainboard.takeTransfer_of_page page
    have kept : (taken m).bus.spritePage = none := by
      unfold taken
      rw [asked]
    have served := (halted_idling.serve halted (.sprites first) (taken m)).1.trans kept
    obtain ⟨n, rest, none, content, cost⟩ := serves_sample halted served
    have serves : Serves halted (Transfer.inTurn (some first) _) m n :=
      .next (congrArg Prod.fst asked) rest
    have same := serveAll_of_serves serves (Nat.succ_le_succ (one _))
    rw [same]
    exact ⟨_, serves, none, content, fun idling =>
      idling.trans (idling.serve halted (.sprites first) (taken m)) (cost idling)⟩

end Exec

/-! ## The cycles of a step -/

namespace Machine

/-- The cycles of the transfer of sprites that waits. -/
def owed (m : Machine Mainboard) : Nat := 514 * m.bus.spritePage.isSome.toNat

/-- An access takes its own cycle and those of a sample, beside the cycles that are owed. -/
def Spends (k : Nat) (m n : Machine Mainboard) : Prop :=
  n.cpu.cycles + n.owed ≤ m.cpu.cycles + m.owed + 5 * k

/-- The stack is no place to ask for a transfer. -/
theorem push_spends (m : Machine Mainboard) (value : UInt8) :
    Spends 1 m (Exec.write (Exec.stackTop m.cpu.registers) value m).2 := by
  have other : Exec.stackTop m.cpu.registers ≠ Mainboard.spriteTransferAddress := by
    intro same
    have page := congrArg highByte same
    rw [Exec.stackTop, highByte_word] at page
    exact absurd page (by decide)
  have kept : (Exec.write (Exec.stackTop m.cpu.registers) value m).2.bus.spritePage =
      m.bus.spritePage := m.bus.write_spritePage value other
  have cycle : (Exec.write (Exec.stackTop m.cpu.registers) value m).2.cpu.cycles =
      m.cpu.cycles + 1 := rfl
  unfold Spends owed
  rw [kept, cycle]
  omega

theorem spends_metered : MeteredSteps Spends where
  refl m := Nat.le_refl _
  trans first second := by
    unfold Spends at *
    omega
  read m address := by
    obtain ⟨_, _, page, _, idle⟩ := Exec.serves_inTurn address m
    have cost : (Exec.serveAll address 2 m).2.cpu.cycles ≤
        m.cpu.cycles + (514 * m.bus.spritePage.isSome.toNat + 4) := (idle halted_idling).2
    have kept : (Exec.read address m).2.bus.spritePage = none :=
      (Mainboard.read_spritePage _ address).trans page
    have cycle : (Exec.read address m).2.cpu.cycles =
        (Exec.serveAll address 2 m).2.cpu.cycles + 1 := rfl
    unfold Spends owed
    rw [kept, cycle]
    simp only [Option.isSome_none, Bool.toNat_false]
    omega
  push := push_spends
  registers m f := Nat.le_refl _
  vector m value := by
    have pushed := push_spends (Exec.takeVector m).2 value
    unfold Spends owed at *
    rwa [Exec.takeVector_cycles, Exec.takeVector_bus] at pushed
  poll m := Nat.le_refl _
  settle m := Nat.le_refl _
  jam m := Nat.le_refl _

/-- The last writes of an instruction may ask for a transfer; the next instruction pays for it. -/
theorem spends_closing :
    Closing Spends fun k m n => n.cpu.cycles ≤ m.cpu.cycles + m.owed + 5 * k where
  start m := Nat.le_add_right _ _
  before first rest := by
    unfold Spends at first
    omega
  store address value h := by
    have cycle (n : Machine Mainboard) :
      (Exec.write address value n).2.cpu.cycles = n.cpu.cycles + 1 := rfl
    rw [cycle]
    omega
  registers f h := h

end Machine

namespace Exec

/-- No step takes much longer than a transfer of sprites. -/
theorem step_cycles_le (m : Machine Mainboard) :
    (step m).2.cpu.cycles ≤ m.cpu.cycles + 564 := by
  have cost := Machine.spends_metered.step_at Machine.spends_closing m
  have accesses := stepAccesses_le m
  have one := Bool.toNat_lt m.bus.spritePage.isSome
  unfold Machine.owed at cost
  omega

end Exec

end Famiclone
