import Famiclone.Processor.Bench
import Famiclone.Proofs.Processor.Unseen

/-!
# The duration of a step

Every cycle is an access to the bus, those of transfers among them. So a bus that counts what is asked of
it tells how long the processor has worked, and the processor does not notice the count. Measured by this
count the answer of a step is right for instructions and interrupts of any length. It is wrong in one
case: a processor that has stopped answers that one cycle has passed, although its idle read serves the
transfers that wait as any other read does.
-/
namespace Famiclone

variable {β : Type} [ProcessorBus β]

/-! ## Time goes on -/

/-- An access takes at least its own cycle. -/
theorem Machine.cycles_metered :
    MeteredSteps (β := β) fun k m n => m.cpu.cycles + k ≤ n.cpu.cycles where
  refl m := Nat.le_refl _
  trans first second := by omega
  read m address := by
    have served := (Exec.serveAll_runsBus address (ProcessorBus.transferLimit m.bus)).cycles_le m
    exact Nat.succ_le_succ served
  push m value := Nat.le_refl _
  registers m f := Nat.le_refl _
  vector m value := by
    rw [← Exec.takeVector_cycles m]
    exact Nat.le_refl _
  poll m := Nat.le_refl _
  settle m := Nat.le_refl _
  jam m := Nat.le_refl _

/-- Every step, one that fails among them, takes a cycle at least: it makes an access. -/
theorem Exec.step_cycles_pos (m : Machine β) : m.cpu.cycles < (step m).2.cpu.cycles := by
  have closing := (Machine.cycles_metered (β := β)).closing fun m address value => Nat.le_refl _
  have accesses := Machine.cycles_metered.step_at closing m
  have some := one_le_stepAccesses m
  omega

/-! ## A count of the accesses -/

/-- A bus with a count of the accesses that are made to it. -/
structure Tallied (β : Type) where
  bus : β
  accesses : Nat

instance : ProcessorBus (Tallied β) where
  read t address :=
    ((ProcessorBus.read t.bus address).1, ⟨(ProcessorBus.read t.bus address).2, t.accesses + 1⟩)
  write t address value := ⟨ProcessorBus.write t.bus address value, t.accesses + 1⟩
  lines t := ProcessorBus.lines t.bus
  takeTransfer t :=
    ((ProcessorBus.takeTransfer t.bus).1, ⟨(ProcessorBus.takeTransfer t.bus).2, t.accesses⟩)
  deliver t value := { t with bus := ProcessorBus.deliver t.bus value }
  transferLimit t := ProcessorBus.transferLimit t.bus

/-- The processor does not see the count. -/
theorem Tallied.unseen : ProcessorBus.Unseen (Tallied.bus (β := β)) where
  read _ _ := rfl
  write _ _ _ := rfl
  lines _ := rfl
  takeTransfer _ := rfl
  deliver _ _ := rfl
  transferLimit _ := rfl

/-- A machine whose accesses are counted from now on. -/
def Machine.tallied (m : Machine β) : Machine (Tallied β) := m.onBus fun bus => ⟨bus, 0⟩

/-- Between two machines as many accesses have been made as cycles have passed. -/
def Machine.InCycles (m n : Machine (Tallied β)) : Prop :=
  n.bus.accesses + m.cpu.cycles = m.bus.accesses + n.cpu.cycles

omit [ProcessorBus β] in
theorem Machine.InCycles.next {l m n : Machine (Tallied β)} (h : l.InCycles m)
    (access : n.bus.accesses = m.bus.accesses + 1) (cycle : n.cpu.cycles = m.cpu.cycles + 1) :
    l.InCycles n := by
  unfold InCycles at *
  omega

theorem Machine.inCycles_metered :
    MeteredSteps fun _ => (InCycles : Machine (Tallied β) → Machine (Tallied β) → Prop) where
  refl _ := rfl
  trans first second := by
    unfold InCycles at *
    omega
  read m address :=
    (Exec.read_runsBus address m).keeps (P := m.InCycles)
      (fun _ _ change kept => by
        cases change with
        | read | write => exact kept.next rfl rfl
        | take | deliver => exact kept)
      rfl
  push m value := InCycles.next (m := m) rfl rfl rfl
  registers _ _ := rfl
  vector m value := by
    have chosen : m.InCycles (Exec.takeVector m).2 := by
      unfold InCycles
      rw [Exec.takeVector_bus, Exec.takeVector_cycles]
    exact chosen.next rfl rfl
  poll _ := rfl
  settle _ := rfl
  jam _ := rfl

namespace Exec

/-- A step makes as many accesses as cycles pass in it. -/
theorem step_accesses (m : Machine β) :
    (step m).2.cpu.cycles = m.cpu.cycles + (step m.tallied).2.bus.accesses := by
  have closing := (Machine.inCycles_metered (β := β)).closing fun m address value =>
    Machine.InCycles.next (m := m) rfl rfl rfl
  have counted := Machine.inCycles_metered.step_at closing m.tallied
  have same : step m = _ := Tallied.unseen.step m.tallied
  rw [same]
  have start : m.tallied.bus.accesses = 0 := rfl
  unfold Machine.InCycles at counted
  rw [start, Nat.zero_add, Nat.add_comm] at counted
  exact counted.symm

end Exec

/-! ## Idle reads -/

/-- A transfer waits for the next read. -/
def ProcessorBus.Waits (b : β) : Prop :=
  ProcessorBus.transferLimit b ≠ 0 ∧ (ProcessorBus.takeTransfer b).1 ≠ none

namespace Exec

/-- Serving any transfer takes time. -/
theorem serve_cycles_lt (halted : UInt16) (t : Transfer) (m : Machine β) :
    m.cpu.cycles < (serve halted t m).2.cpu.cycles := by
  obtain ⟨rest, runs, same⟩ := serve_begins (β := β) halted t
  rw [same]
  exact runs.cycles_le (cycleRead halted m).2

/-- A read is one cycle where no transfer waits for it, and only there. -/
theorem read_cycles_iff (address : UInt16) (m : Machine β) :
    (read address m).2.cpu.cycles = m.cpu.cycles + 1 ↔ ¬ ProcessorBus.Waits m.bus := by
  have whole : (read address m).2.cpu.cycles =
      (serveAll address (ProcessorBus.transferLimit m.bus) m).2.cpu.cycles + 1 := rfl
  rw [whole, Nat.add_right_cancel_iff]
  unfold ProcessorBus.Waits
  cases ProcessorBus.transferLimit m.bus with
  | zero =>
    have same : (serveAll address 0 m).2.cpu.cycles = m.cpu.cycles := rfl
    simp [same]
  | succ limit =>
    cases next : (ProcessorBus.takeTransfer m.bus).1 with
    | none => simp [serveAll_done next]
    | some t =>
      have begun := serve_cycles_lt address t
        { m with bus := (ProcessorBus.takeTransfer m.bus).2 }
      have behind := (serveAll_runsBus address limit).cycles_le
        (serve address t { m with bus := (ProcessorBus.takeTransfer m.bus).2 }).2
      rw [serveAll_next next]
      dsimp only at begun
      simp
      omega

/-- The accesses of a step can be counted without a change of its course, and each of them is a cycle. The
answer of a step that succeeds is their number, but for a processor that has stopped while a transfer
waits. -/
theorem step_tells_time_iff (m : Machine β) :
    (step m.tallied).1 = (step m).1 ∧ (step m.tallied).2.onBus Tallied.bus = (step m).2 ∧
      ∀ n, (step m).1 = .ok n →
        ((step m).2.cpu.cycles = m.cpu.cycles + n ∧ (step m.tallied).2.bus.accesses = n ↔
          ¬ (m.cpu.jammed ∧ ProcessorBus.Waits m.bus)) := by
  have same : step m = _ := Tallied.unseen.step m.tallied
  refine ⟨congrArg Prod.fst same.symm, congrArg Prod.snd same.symm, fun n answer => ?_⟩
  have accesses := step_accesses m
  have later := step_cycles_pos m
  have told : (step m).2.cpu.cycles = m.cpu.cycles + n ∧ (step m.tallied).2.bus.accesses = n ↔
      (step m).2.cpu.cycles = m.cpu.cycles + n := by omega
  rw [told]
  by_cases jammed : m.cpu.jammed
  · rw [step_of_jammed jammed] at answer ⊢
    cases answer
    simp only [jammed, true_and]
    exact read_cycles_iff 0xFFFF m
  · have running : ¬ (m.cpu.jammed ∧ ProcessorBus.Waits m.bus) := fun stopped => jammed stopped.1
    have difference : n = (step m).2.cpu.cycles - m.cpu.cycles := by
      by_cases pending : m.cpu.nmiPolled || m.cpu.irqPolled
      · rw [step_of_pending jammed pending] at answer ⊢
        cases answer
        rfl
      · rw [step_of_ready jammed pending] at answer ⊢
        cases ran : (instruction m).1 with
        | error e => simp [ran, Except.map] at answer
        | ok u =>
          simp only [ran, Except.map] at answer
          cases answer
          rfl
    simp only [running, not_false_eq_true, iff_true]
    omega

/-- A processor that has stopped, with a sample transfer that waits. -/
def stoppedBench : Machine Bench where
  cpu := { Processor.initial with jammed := true }
  bus :=
    { memory := .blank, script := [], transfers := [(0, .sample 0xC000)], delivered := #[], record := #[] }

theorem stopped_step_hides_transfer : (step stoppedBench).1 = .ok 1 ∧
    ¬ ((step stoppedBench).2.cpu.cycles = stoppedBench.cpu.cycles + 1 ∧
      (step stoppedBench.tallied).2.bus.accesses = 1) := by
  have answer : (step stoppedBench).1 = .ok 1 := congrArg Prod.fst (step_of_jammed rfl)
  have waits : ProcessorBus.Waits stoppedBench.bus := by
    refine ⟨Nat.one_ne_zero, ?_⟩
    have next : (ProcessorBus.takeTransfer stoppedBench.bus).1 = some (.sample 0xC000) := rfl
    rw [next]
    exact Option.some_ne_none _
  have wrong := (step_tells_time_iff stoppedBench).2.2 1 answer
  exact ⟨answer, fun told => wrong.mp told ⟨rfl, waits⟩⟩

end Exec

end Famiclone
