import Famiclone.Proofs.Processor.Memory
import Famiclone.Proofs.Processor.Record
import Famiclone.Proofs.Processor.Timing

/-!
# Strictness

A strict processor refuses the opcodes outside the documented set. Until it meets one it cannot be told
from a lenient processor: a run shows the same answers and the same accesses, and the machines behind it
differ in the strictness alone. Where a strict processor meets such an opcode it has read it, behind the
transfers that waited, and has done nothing else. The opcodes that stop a processor are outside the
documented set, so a strict one never stops.
-/
namespace Famiclone

variable {β : Type} [ProcessorBus β]

open Exec

/-- The machine with a strict or a lenient processor. -/
def Machine.withStrictness (strict : Bool) (m : Machine β) : Machine β :=
  { m with cpu := { m.cpu with strict } }

omit [ProcessorBus β] in
@[simp] theorem Machine.withStrictness_registers (m : Machine β) (strict : Bool) :
    (m.withStrictness strict).cpu.registers = m.cpu.registers := rfl

/-- The next instruction has an opcode outside the documented set. -/
structure Exec.MeetsUnofficial (m : Machine β) : Prop where
  running : ¬ m.cpu.jammed
  quiet : ¬ (m.cpu.nmiPolled || m.cpu.irqPolled)
  unofficial : ¬ Instruction.isOfficial (fetch m).1

/-- Every instruction of a run has an opcode of the documented set. -/
def Machine.StaysOfficial (m : Machine β) : List (Event β) → Prop
  | [] => True
  | event :: rest => (event = .step → ¬ MeetsUnofficial m) ∧ (m.happen event).StaysOfficial rest

/-! ## Two processors -/

omit [ProcessorBus β] in
theorem ProcessorBus.unseen_id [ProcessorBus β] : ProcessorBus.Unseen (id : β → β) where
  read _ _ := rfl
  write _ _ _ := rfl
  lines _ := rfl
  takeTransfer _ := rfl
  deliver _ _ := rfl
  transferLimit _ := rfl

/-- What the processor does not see is no part of what makes an opcode official, and neither is its own
strictness. -/
theorem ProcessorBus.Unseen.meetsUnofficial {δ : Type} [ProcessorBus δ] {s : Bool → Bool} {h : β → δ}
    (unseen : ProcessorBus.Unseen h) {m : Machine β} :
    MeetsUnofficial (m.disguised s h) ↔ MeetsUnofficial m := by
  have fetched : (Exec.fetch (m.disguised s h)).1 = (Exec.fetch m).1 :=
    congrArg Prod.fst (unseen.fetch m)
  constructor
  · intro ⟨running, quiet, unofficial⟩
    rw [fetched] at unofficial
    exact ⟨running, quiet, unofficial⟩
  · intro ⟨running, quiet, unofficial⟩
    rw [← fetched] at unofficial
    exact ⟨running, quiet, unofficial⟩

namespace Machine

/-- Between official opcodes the strictness makes no difference to a step. -/
theorem step_withStrictness {m : Machine β} (official : ¬ MeetsUnofficial m) (strict : Bool) :
    Exec.step (m.withStrictness strict) =
      ((Exec.step m).1, (Exec.step m).2.withStrictness strict) := by
  refine ProcessorBus.unseen_id.step_disguised (s := fun _ => strict) fun running quiet => ?_
  have known : Instruction.isOfficial (fetch m).1 :=
    Decidable.not_not.mp fun unofficial => official ⟨running, quiet, unofficial⟩
  have fetched : fetch (m.disguised (fun _ => strict) id) = _ := ProcessorBus.unseen_id.fetch m
  simp [Refuses, fetched, known]

theorem happen_withStrictness {m : Machine β} {event : Event β}
    (official : event = .step → ¬ MeetsUnofficial m) (strict : Bool) :
    (m.withStrictness strict).happen event = (m.happen event).withStrictness strict := by
  cases event with
  | step => exact congrArg Prod.snd (step_withStrictness (official rfl) strict)
  | reset =>
    exact congrArg Prod.snd (ProcessorBus.unseen_id.reset_disguised (s := fun _ => strict) m)
  | powerOn =>
    exact congrArg Prod.snd (ProcessorBus.unseen_id.powerOn_disguised (s := fun _ => strict) m)
  | request | release | around => rfl

theorem fetch_withStrictness (m : Machine β) (strict : Bool) :
    (fetch (m.withStrictness strict)).1 = (fetch m).1 := by
  have whole : fetch (m.withStrictness strict) = ((fetch m).1, (fetch m).2.withStrictness strict) :=
    ProcessorBus.unseen_id.fetch (s := fun _ => strict) m
  rw [whole]

theorem meetsUnofficial_withStrictness {m : Machine β} {strict : Bool} :
    MeetsUnofficial (m.withStrictness strict) ↔ MeetsUnofficial m :=
  ProcessorBus.unseen_id.meetsUnofficial (s := fun _ => strict)

/-- The record is no part of what makes an opcode official. -/
theorem fetch_recorded (m : Machine β) : (fetch m.recorded).1 = (fetch m).1 :=
  (congrArg Prod.fst (Recorded.unseen.fetch (s := id) m.recorded)).symm

theorem meetsUnofficial_recorded {m : Machine β} :
    MeetsUnofficial m.recorded ↔ MeetsUnofficial m :=
  (Recorded.unseen.meetsUnofficial (s := id) (m := m.recorded)).symm

theorem shown_withStrictness {m : Machine β} {event : Event β}
    (official : event = .step → ¬ MeetsUnofficial m) (strict : Bool) :
    (m.withStrictness strict).shown event = m.shown event := by
  have noted : (m.withStrictness strict).recorded = m.recorded.withStrictness strict := rfl
  have unseen := ProcessorBus.unseen_id (β := Recorded β)
  cases event with
  | step =>
    unfold shown
    rw [noted, step_withStrictness (official rfl),
      step_withStrictness (mt meetsUnofficial_recorded.mp (official rfl))]
    rfl
  | reset =>
    unfold shown
    rw [noted]
    exact congrArg (fun r => (none, r.2.bus.record))
      (unseen.reset_disguised (s := fun _ => strict) m.recorded)
  | powerOn =>
    unfold shown
    rw [noted]
    exact congrArg (fun r => (none, r.2.bus.record))
      (unseen.powerOn_disguised (s := fun _ => strict) m.recorded)
  | request | release | around => rfl

/-- In a run of official opcodes the strictness does not show, and stays the only difference. -/
theorem run_withStrictness {m : Machine β} {events : List (Event β)} (official : m.StaysOfficial events)
    (strict : Bool) : (m.withStrictness strict).shownIn events = m.shownIn events ∧
      events.foldl happen (m.withStrictness strict) =
        (events.foldl happen m).withStrictness strict := by
  induction events generalizing m with
  | nil => exact ⟨rfl, rfl⟩
  | cons event rest ih =>
    obtain ⟨shows, ends⟩ := ih official.2
    have next := happen_withStrictness official.1 strict
    rw [shownIn, List.foldl_cons, next, shown_withStrictness official.1, shows]
    exact ⟨rfl, ends⟩

end Machine

/-! ## The refusal -/

/-- Entries into handlers and accesses leave a processor running. -/
theorem Machine.jammed_metered :
    MeteredEntries (β := β) fun _ m n => n.cpu.jammed = m.cpu.jammed where
  refl _ := rfl
  trans first second := second.trans first
  read m address :=
    (Exec.read_runsBus address m).keepsCycles (P := fun c => c.jammed = m.cpu.jammed)
      (fun _ _ kept => kept) rfl
  push _ _ := rfl
  registers _ _ := rfl
  vector m _ := by
    have chosen : (takeVector m).2.cpu.jammed = m.cpu.jammed := by rw [takeVector_snd]
    exact chosen
  settle _ := rfl

/-- A step that refuses an opcode has read it and nothing else: the transfers that waited went before
it, as before any read. -/
structure Exec.Refusal (m : Machine β) : Prop where
  answer : (step m).1 = .error ⟨(fetch m).1, m.cpu.registers.pc⟩
  machine : (step m).2 = (read m.cpu.registers.pc m).2
  registers : (step m).2.cpu.registers = m.cpu.registers
  jammed : (step m).2.cpu.jammed = m.cpu.jammed
  accesses : (m.shown .step).2 =
    (serveAll m.cpu.registers.pc (ProcessorBus.transferLimit m.bus) m.recorded).2.bus.record ++
      [⟨false, m.cpu.registers.pc, (fetch m).1⟩]

namespace Exec

/-- What a strict processor does with an opcode outside the documented set. -/
theorem step_of_unofficial {m : Machine β} (strict : m.cpu.strict) (meets : MeetsUnofficial m) :
    step m = (.error ⟨(fetch m).1, m.cpu.registers.pc⟩, (read m.cpu.registers.pc m).2) := by
  have refused : Refuses m := by
    refine ⟨?_, meets.unofficial⟩
    rw [fetch_strict]
    exact strict
  -- The program counter that the fetch has moved is put back to where it was.
  have restored : ∀ {n : Machine β} {pc : UInt16}, n.cpu.registers.pc = pc →
      { n with
        cpu := (n.cpu.mapRegisters fun r => { r with pc := r.pc + 1 }).mapRegisters
          (fun r => { r with pc := pc }) } = n := by
    rintro n pc rfl
    rfl
  rw [step_of_ready meets.running meets.quiet, instruction_of_refuses refused]
  exact congrArg (Prod.mk _) (restored (congrArg Registers.pc (read_registers _ m)))

theorem refusal_of_meets {m : Machine β} (strict : m.cpu.strict) (meets : MeetsUnofficial m) :
    Refusal m := by
  have refused := step_of_unofficial strict meets
  have noted := step_of_unofficial (m := m.recorded) strict (Machine.meetsUnofficial_recorded.mpr meets)
  refine ⟨by rw [refused], by rw [refused], ?_, ?_, ?_⟩
  · rw [refused]
    exact read_registers _ m
  · rw [refused]
    exact Machine.jammed_metered.read m _
  · rw [← Machine.fetch_recorded m]
    exact congrArg (fun r => r.2.bus.record) noted

/-- Behind a reading instruction the next opcode counts. -/
theorem meets_behind_read {m : Machine FlatMemory} {op : ReadOp} {mode : Mode} {next : UInt16}
    {opcode : UInt8} (executes : Executes m (.read op mode)) (calm : m.CalmIn 2)
    (behind : m.cpu.registers.pc + 1 + UInt16.ofNat mode.operandLength = next)
    (there : m.bus.peek next = opcode) (unofficial : Instruction.isOfficial opcode = false) :
    (step m).2.cpu.registers.pc = next ∧ (fetch (step m).2).1 = opcode ∧
      MeetsUnofficial (step m).2 := by
  obtain ⟨registers, same⟩ := FlatMemory.step_read executes rfl
  obtain ⟨rests, stands⟩ := step_calm executes (by simp) calm
  have pc : (step m).2.cpu.registers.pc = next := by
    rw [registers, ReadOp.apply_pc]
    exact behind
  have fetched : (fetch (step m).2).1 = opcode := by
    rw [FlatMemory.fetch_value, pc, same, there]
  have running : (step m).2.cpu.jammed = m.cpu.jammed := congrArg (fun s => s.2.1) stands
  refine ⟨pc, fetched, ?_, ?_, ?_⟩
  · rw [running]
    exact executes.running
  · simp [rests.polled rfl]
  · simp [fetched, unofficial]

/-! ## Strict processors run on -/

/-- The opcodes that stop a processor are outside the documented set. -/
theorem not_executes_jam {m : Machine β} (strict : m.cpu.strict) : ¬ Executes m .jam := by
  intro stops
  refine stops.accepted ⟨?_, ?_⟩
  · rw [fetch_strict]
    exact strict
  · simp [Instruction.isOfficial, stops.decoded]

theorem step_jammed {m : Machine β} (strict : m.cpu.strict) :
    (step m).2.cpu.jammed = m.cpu.jammed :=
  Machine.jammed_metered.step_at (Machine.jammed_metered.closing fun _ _ _ => rfl) m
    (fun _ _ => rfl) fun stops => absurd stops (not_executes_jam strict)

theorem reset_jammed (m : Machine β) : (reset m).2.cpu.jammed = false :=
  Machine.jammed_metered.reset_at m

theorem reset_strict (m : Machine β) : (reset m).2.cpu.strict = m.cpu.strict :=
  strict_metered.reset_at m

theorem powerOn_jammed (m : Machine β) : (powerOn m).2.cpu.jammed = false := by
  rw [powerOn_eq]
  exact reset_jammed _

end Exec

namespace Machine

theorem happen_strict (m : Machine β) (event : Event β) :
    (m.happen event).cpu.strict = m.cpu.strict := by
  cases event with
  | step => exact step_strict m
  | reset => exact reset_strict m
  | powerOn => exact powerOn_strict m
  | request | release | around => rfl

theorem happen_jammed {m : Machine β} (strict : m.cpu.strict) (running : m.cpu.jammed = false)
    (event : Event β) : (m.happen event).cpu.jammed = false := by
  cases event with
  | step => exact (step_jammed strict).trans running
  | reset => exact reset_jammed m
  | powerOn => exact powerOn_jammed m
  | request | release | around => exact running

/-- No run makes a processor strict or lenient, and none stops a strict one. -/
theorem run_strict {m : Machine β} (strict : m.cpu.strict) (events : List (Event β)) :
    (events.foldl happen m).cpu.strict ∧
      (m.cpu.jammed = false → (events.foldl happen m).cpu.jammed = false) := by
  induction events generalizing m with
  | nil => exact ⟨strict, id⟩
  | cons event rest ih =>
    obtain ⟨stays, runs⟩ := ih (m := m.happen event) (by rw [happen_strict]; exact strict)
    exact ⟨stays, fun running => runs (happen_jammed strict running event)⟩

/-- A run in which a lenient processor executes official opcodes only shows the same on a strict one and
ends in the same machine, so both meet the first unofficial opcode together. Wherever a run takes a strict
processor, such an opcode is refused there. No run from power-on stops a strict processor. -/
theorem strictness_shows_late (m : Machine β) (events : List (Event β)) :
    let strict := m.withStrictness true
    let lenient := m.withStrictness false
    (lenient.StaysOfficial events →
      strict.shownIn events = lenient.shownIn events ∧
        events.foldl happen strict = (events.foldl happen lenient).withStrictness true ∧
        (MeetsUnofficial (events.foldl happen strict) ↔
          MeetsUnofficial (events.foldl happen lenient))) ∧
    (MeetsUnofficial (events.foldl happen strict) → Refusal (events.foldl happen strict)) ∧
    (events.foldl happen (Exec.powerOn strict).2).cpu.jammed = false := by
  intro strict lenient
  have kept : strict.cpu.strict := rfl
  refine ⟨fun official => ?_, fun meets => ?_, ?_⟩
  · obtain ⟨shows, ends⟩ := run_withStrictness official true
    have same : events.foldl happen strict = (events.foldl happen lenient).withStrictness true := ends
    exact ⟨shows, same, by rw [same]; exact meetsUnofficial_withStrictness⟩
  · exact refusal_of_meets (run_strict kept events).1 meets
  · exact (run_strict (by rw [powerOn_strict]; exact kept) events).2 (powerOn_jammed strict)

/-- A lenient processor in front of `LDX #5`, behind which stands `SLO $10`. -/
def unofficialBench : Machine FlatMemory where
  cpu := { Processor.initial with registers := { Registers.initial with pc := 0x8000 } }
  bus := .withProgram 0x8000 [0xA2, 5, 0x07, 0x10]

/-- The strict processor refuses the second opcode, which the lenient one would execute. -/
theorem slo_refused_late : unofficialBench.StaysOfficial [.step] ∧
    MeetsUnofficial ([Event.step].foldl happen (unofficialBench.withStrictness true)) ∧
    (step ([Event.step].foldl happen (unofficialBench.withStrictness true))).1 =
      .error ⟨0x07, 0x8002⟩ := by
  have first : unofficialBench.bus.peek 0x8000 = 0xA2 := by
    simp [unofficialBench, FlatMemory.withProgram, FlatMemory.load, FlatMemory.peek_poke_of_ne]
  have second : unofficialBench.bus.peek 0x8002 = 0x07 := by
    simp [unofficialBench, FlatMemory.withProgram, FlatMemory.load, FlatMemory.peek_poke_of_ne]
  have calm : unofficialBench.CalmIn 0 := ⟨rfl, rfl, fun _ => rfl, fun _ => rfl, fun _ => ⟨rfl, rfl⟩⟩
  have load : Executes unofficialBench (.read .ldx .immediate) :=
    executes_of_lenient rfl rfl calm first (by decide)
  have official : unofficialBench.StaysOfficial [.step] := by
    refine ⟨fun _ meets => meets.unofficial ?_, trivial⟩
    rw [FlatMemory.fetch_value]
    exact (congrArg Instruction.isOfficial first).trans (by decide)
  have behind : unofficialBench.cpu.registers.pc + 1 + UInt16.ofNat Mode.immediate.operandLength =
      0x8002 := rfl
  obtain ⟨pc, opcode, meets⟩ := meets_behind_read load (calm.weaken 2) behind second (by decide)
  obtain ⟨late, refuses, -⟩ := strictness_shows_late unofficialBench [.step]
  have lenient : unofficialBench.withStrictness false = unofficialBench := rfl
  rw [lenient] at late
  obtain ⟨-, ends, together⟩ := late official
  -- Said of every machine, so that the memory of this one is not evaluated.
  have run : ∀ m : Machine FlatMemory, [Event.step].foldl happen m = (step m).2 := fun _ => rfl
  rw [run unofficialBench] at ends together
  have strictly := together.mpr meets
  refine ⟨official, strictly, ?_⟩
  rw [(refuses strictly).answer, ends, fetch_withStrictness, withStrictness_registers, opcode, pc]

end Machine

end Famiclone
