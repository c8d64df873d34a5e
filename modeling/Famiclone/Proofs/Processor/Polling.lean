import Famiclone.Processor.FlatMemory
import Famiclone.Proofs.Processor.Duration
import Famiclone.Proofs.Processor.Edges

/-!
# When interrupts are polled

The end of every cycle samples the level-sensitive lines together with the interrupt-disable flag, and a
boundary between two instructions acts on the sample before the last one. So it matters in which cycle an
instruction changes the flag: most do so behind their last cycle, where neither sample sees it, a return
from an interrupt two cycles earlier, and the entry into a handler early enough for both samples. A taken
branch that stays on its page is the one instruction that looks at an older sample as well.
-/
namespace Famiclone

variable {β : Type} [ProcessorBus β]

/-! ## What the samples say -/

namespace Processor

/-- What a boundary acts on comes from the samples of the cycles since a certain one. -/
structure SettledSince (start : Nat) (c : Processor) : Prop where
  sampled : start < c.cycles → c.irqSampled = c.samples.last.pending
  polled : start + 1 < c.cycles → c.irqPolled = c.samples.before.pending
  latched : start < c.cycles → c.nmiPolled → c.nmiLatched

/-- The interrupt-disable flag has had one value since a certain cycle. -/
structure MaskedSince (start : Nat) (set : Bool) (c : Processor) : Prop where
  flag : c.registers.p.interruptDisable = set
  last : start < c.cycles → c.samples.last.masked = set
  before : start + 1 < c.cycles → c.samples.before.masked = set
  earlier : start + 2 < c.cycles → c.samples.earlier.masked = set

/-- No interrupt of the level-sensitive lines is on its way, and none can come up. -/
structure Shut (c : Processor) : Prop where
  flag : c.registers.p.interruptDisable = true
  sampled : c.irqSampled = false
  polled : c.irqPolled = false
  latched : c.nmiPolled → c.nmiLatched

variable {c : Processor} {start : Nat} {set : Bool}

theorem SettledSince.now (c : Processor) : c.SettledSince c.cycles where
  sampled later := absurd later (Nat.lt_irrefl _)
  polled later := absurd later (by omega)
  latched later := absurd later (Nat.lt_irrefl _)

theorem MaskedSince.now (c : Processor) :
    c.MaskedSince c.cycles c.registers.p.interruptDisable where
  flag := rfl
  last later := absurd later (Nat.lt_irrefl _)
  before later := absurd later (by omega)
  earlier later := absurd later (by omega)

theorem SettledSince.endCycle (h : c.SettledSince start) (asserted : Lines) :
    (c.endCycle asserted).SettledSince start where
  sampled _ := rfl
  polled later := h.sampled (Nat.lt_of_succ_lt_succ later)
  latched _ := nmiLatched_endCycle asserted

theorem MaskedSince.endCycle (h : c.MaskedSince start set) (asserted : Lines) :
    (c.endCycle asserted).MaskedSince start set where
  flag := h.flag
  last _ := h.flag
  before later := h.last (Nat.lt_of_succ_lt_succ later)
  earlier later := h.before (Nat.lt_of_succ_lt_succ later)

theorem Shut.endCycle (h : c.Shut) (asserted : Lines) : (c.endCycle asserted).Shut where
  flag := h.flag
  sampled := by simp [Processor.endCycle, h.flag]
  polled := h.sampled
  latched := nmiLatched_endCycle asserted

/-- The last two cycles have been sampled with the flag as it is now. -/
def EndsMasked (set : Bool) (c : Processor) : Prop :=
  ∃ start, start + 2 ≤ c.cycles ∧ c.SettledSince start ∧ c.MaskedSince start set

theorem EndsMasked.movePc (h : c.EndsMasked set) (pc : UInt16) :
    (c.mapRegisters fun r => { r with pc }).EndsMasked set := by
  obtain ⟨start, two, settled, masked⟩ := h
  exact ⟨start, two, ⟨settled.sampled, settled.polled, settled.latched⟩,
    ⟨masked.flag, masked.last, masked.before, masked.earlier⟩⟩

theorem EndsMasked.flag (h : c.EndsMasked set) : c.registers.p.interruptDisable = set := by
  obtain ⟨start, -, -, masked⟩ := h
  exact masked.flag

/-- With the flag set for two cycles nothing is on its way. -/
theorem EndsMasked.shut (h : c.EndsMasked true) : c.Shut := by
  obtain ⟨start, two, settled, masked⟩ := h
  have unseen (s : Sample) (disabled : s.masked = true) : s.pending = false := by
    rw [Sample.pending, disabled]
    exact Bool.and_false _
  exact ⟨masked.flag, (settled.sampled (by omega)).trans (unseen _ (masked.last (by omega))),
    (settled.polled (by omega)).trans (unseen _ (masked.before (by omega))),
    settled.latched (by omega)⟩

theorem EndsMasked.polled (h : c.EndsMasked set) :
    c.irqPolled = (c.samples.before.asserted && !set) := by
  obtain ⟨start, two, settled, masked⟩ := h
  rw [settled.polled (by omega), Sample.pending, masked.before (by omega)]

end Processor

namespace Machine

theorem settled_metered : MeteredSequences (β := β) fun _ m n =>
    ∀ start, m.cpu.SettledSince start → n.cpu.SettledSince start where
  refl _ _ h := h
  trans first second start h := second start (first start h)
  read m address start h :=
    (Exec.read_runsBus address m).keepsCycles (fun _ asserted kept => kept.endCycle asserted) h
  push _ _ _ h := h.endCycle _
  registers _ _ _ h := ⟨h.sampled, h.polled, h.latched⟩
  -- The choice of a vector clears the latch, and the push behind it samples the line again.
  vector m _ start h := by
    rw [Exec.takeVector_snd]
    refine ⟨fun _ => rfl, fun later => h.sampled (Nat.lt_of_succ_lt_succ later), fun _ => ?_⟩
    exact Processor.nmiLatched_endCycle _
  settle _ start h := ⟨h.sampled, h.polled, fun _ polled => by simp at polled⟩
  jam m start h := ⟨h.sampled, h.polled, h.latched⟩

theorem masked_gauged : Gauged (β := β) fun _ m n =>
    ∀ start set, m.cpu.MaskedSince start set → n.cpu.MaskedSince start set where
  refl _ _ _ h := h
  trans first second start set h := second start set (first start set h)
  read m address _ _ h :=
    (Exec.read_runsBus address m).keepsCycles (fun _ asserted kept => kept.endCycle asserted) h
  push _ _ _ _ h := h.endCycle _
  moves _ _ same _ _ h := ⟨same.trans h.flag, h.last, h.before, h.earlier⟩

theorem shut_gauged : Gauged (β := β) fun _ m n => m.cpu.Shut → n.cpu.Shut where
  refl _ h := h
  trans first second h := second (first h)
  read m address h :=
    (Exec.read_runsBus address m).keepsCycles (fun _ asserted kept => kept.endCycle asserted) h
  push _ _ h := h.endCycle _
  moves _ _ same h := ⟨same.trans h.flag, h.sampled, h.polled, h.latched⟩

end Machine

/-! ## The end of a step -/

namespace Exec

variable {m : Machine β} {i : Instruction}

/-- An instruction takes at least the cycles of its accesses. -/
theorem Executes.cycles_le (h : Executes m i) :
    m.cpu.cycles + 1 + i.accesses ≤ (step m).2.cpu.cycles := by
  have closing := (Machine.cycles_metered (β := β)).closing fun m address value => Nat.le_refl _
  have fetched := Machine.cycles_metered.fetch m
  have executed := Machine.cycles_metered.execute_at closing i (fetch m).2 fun _ =>
    Machine.cycles_metered.poll
  rw [step_of_executes h]
  dsimp only
  omega

/-- A read that takes one cycle ends it, and nothing else happens to the processor. -/
theorem read_cpu_of_one_cycle {address : UInt16}
    (one : (read address m).2.cpu.cycles = m.cpu.cycles + 1) :
    ∃ asserted, (read address m).2.cpu = m.cpu.endCycle asserted := by
  have runs := serveAll_runsBus (β := β) address (ProcessorBus.transferLimit m.bus)
  have whole : (read address m).2.cpu.cycles =
      (serveAll address (ProcessorBus.transferLimit m.bus) m).2.cpu.cycles + 1 := rfl
  have same := runs.cpu_of_cycles (m := m) (by omega)
  refine ⟨ProcessorBus.lines (read address m).2.bus, ?_⟩
  rw [← same]
  rfl

/-- Behind any step but a taken branch a boundary acts on the sample before the last. -/
theorem step_settled (straight : ¬ Turns m) : (step m).2.cpu.SettledSince m.cpu.cycles := by
  have closing := (Machine.settled_metered (β := β)).closing fun m address value start h =>
    h.endCycle _
  exact Machine.settled_metered.step_at closing m (fun turns => absurd turns straight) _
    (.now m.cpu)

/-! ## Taken branches -/

/-- The operand of a branch keeps it on the page of the instruction behind it. -/
def StaysOnPage (m : Machine β) : Prop :=
  highByte (m.cpu.registers.pc + 2) =
    highByte (displace (m.cpu.registers.pc + 2) (fetch (fetch m).2).1)

/-- The machine behind the operand fetch of a branch, with what a taken one leaves of the samples. -/
def turned (m : Machine β) : Machine β := takenBack (fetch (fetch m).2).2

theorem step_of_turns (turns : Turns m) : (step m).2 =
    (turnTo (m.cpu.registers.pc + 2)
      (displace (m.cpu.registers.pc + 2) (fetch (fetch m).2).1) (readAtPc (turned m)).2).2 := by
  obtain ⟨i, executes, taken⟩ := turns
  cases i with
  | branch flag whenSet =>
    have test : (flag.test (fetch m).2.cpu.registers.p == whenSet) = true := by
      rw [fetch_registers]
      exact taken
    have executed : (execute (.branch flag whenSet) (fetch m).2).2 =
        (branch (flag.test (fetch m).2.cpu.registers.p == whenSet) (fetch m).2).2 := rfl
    have next : (fetch m).2.cpu.registers.pc + 1 = m.cpu.registers.pc + 2 := by
      rw [fetch_registers]
      exact UInt16.add_assoc _ 1 1
    rw [step_of_executes executes]
    dsimp only
    rw [executed, test, branch_taken, next]
    rfl
  | _ => contradiction

/-- The read behind the operand of a taken branch. -/
def besides (m : Machine β) : Machine β := (readAtPc (turned m)).2

theorem besides_settled (m : Machine β) : (besides m).cpu.SettledSince (turned m).cpu.cycles :=
  Machine.settled_metered.readAtPc (turned m) _ (.now _)

theorem turned_cycles_lt (m : Machine β) : (turned m).cpu.cycles < (besides m).cpu.cycles :=
  Machine.cycles_metered.readAtPc (turned m)

/-- A taken branch that leaves its page ends with one read more. -/
theorem step_of_leaves (turns : Turns m) (leaves : ¬ StaysOnPage m) :
    ∃ address pc, (step m).2.cpu =
      (read address (besides m)).2.cpu.mapRegisters fun r => { r with pc } := by
  have apart : highByte (m.cpu.registers.pc + 2) ≠
      highByte (displace (m.cpu.registers.pc + 2) (fetch (fetch m).2).1) := leaves
  rw [step_of_turns turns]
  unfold turnTo
  rw [if_pos apart]
  exact ⟨_, _, rfl⟩

/-- A taken branch on its page ends with the read behind its operand. -/
theorem step_of_stays (turns : Turns m) (stays : StaysOnPage m) :
    ∃ pc, (step m).2.cpu = (besides m).cpu.mapRegisters fun r => { r with pc } := by
  rw [step_of_turns turns]
  unfold turnTo
  rw [if_neg fun leaves => leaves stays]
  exact ⟨_, rfl⟩

theorem three_le_of_stays (turns : Turns m) (stays : StaysOnPage m) :
    m.cpu.cycles + 3 ≤ (step m).2.cpu.cycles := by
  have opcode := Machine.cycles_metered.fetch m
  have operand : (fetch m).2.cpu.cycles + 1 ≤ (turned m).cpu.cycles :=
    Machine.cycles_metered.fetch (fetch m).2
  have last := turned_cycles_lt m
  obtain ⟨pc, ended⟩ := step_of_stays turns stays
  have whole : (step m).2.cpu.cycles = (besides m).cpu.cycles := by
    rw [ended]
    rfl
  omega

/-- The samples of the opcode and of the operand, which a taken branch has both seen. -/
theorem turned_sampled (m : Machine β) : (turned m).cpu.irqSampled =
    ((turned m).cpu.samples.last.pending && (turned m).cpu.samples.before.pending) := by
  have opcode := Machine.settled_metered.fetch m _ (.now m.cpu)
  have operand := Machine.settled_metered.fetch (fetch m).2 _ opcode
  have first := Machine.cycles_metered.fetch m
  have second := Machine.cycles_metered.fetch (fetch m).2
  have sampled := operand.sampled (by omega)
  have polled := operand.polled (by omega)
  have both : (turned m).cpu.irqSampled = ((fetch (fetch m).2).2.cpu.irqSampled &&
      (fetch (fetch m).2).2.cpu.irqPolled) := rfl
  rw [both, sampled, polled]
  rfl

/-- Where the read behind the operand takes one cycle, a boundary acts on the two samples in front of it. -/
theorem besides_polled (one : (besides m).cpu.cycles = (turned m).cpu.cycles + 1) :
    (besides m).cpu.samples.before = (turned m).cpu.samples.last ∧
      (besides m).cpu.samples.earlier = (turned m).cpu.samples.before ∧
      (besides m).cpu.irqPolled =
        ((turned m).cpu.samples.last.pending && (turned m).cpu.samples.before.pending) := by
  obtain ⟨asserted, same⟩ := read_cpu_of_one_cycle one
  have cpu : (besides m).cpu = (turned m).cpu.endCycle asserted := same
  rw [cpu, ← turned_sampled]
  exact ⟨rfl, rfl, rfl⟩

/-- Without transfers a taken branch on its page acts on the samples of its opcode and its operand. -/
theorem polled_of_stays (turns : Turns m) (stays : StaysOnPage m)
    (alone : (step m).2.cpu.cycles = (fetch m).2.cpu.cycles + 2) :
    (step m).2.cpu.irqPolled = ((fetch m).2.cpu.samples.last.pending &&
      (fetch (fetch m).2).2.cpu.samples.last.pending) := by
  obtain ⟨pc, ended⟩ := step_of_stays turns stays
  rw [ended] at alone ⊢
  have whole : (besides m).cpu.cycles = (fetch m).2.cpu.cycles + 2 := alone
  have first : (fetch m).2.cpu.cycles + 1 ≤ (turned m).cpu.cycles :=
    Machine.cycles_metered.fetch (fetch m).2
  have second := turned_cycles_lt m
  have one : (readAtPc (fetch m).2).2.cpu.cycles = (fetch m).2.cpu.cycles + 1 := by
    have same : (readAtPc (fetch m).2).2.cpu.cycles = (turned m).cpu.cycles := rfl
    omega
  obtain ⟨asserted, operand⟩ := read_cpu_of_one_cycle one
  have opcode : (turned m).cpu.samples.before = (fetch m).2.cpu.samples.last :=
    congrArg (fun c : Processor => c.samples.before) operand
  have polled := (besides_polled (m := m) (by omega)).2.2
  rw [opcode, Bool.and_comm] at polled
  exact polled

/-- A taken branch that sees an interrupt in both samples leads into it, whatever transfers there are. -/
theorem polled_of_both (turns : Turns m) (stays : StaysOnPage m)
    (before : (step m).2.cpu.samples.before.pending = true)
    (earlier : (step m).2.cpu.samples.earlier.pending = true) : (step m).2.cpu.irqPolled = true := by
  obtain ⟨pc, ended⟩ := step_of_stays turns stays
  rw [ended] at before earlier ⊢
  by_cases one : (besides m).cpu.cycles = (turned m).cpu.cycles + 1
  · obtain ⟨last, next, polled⟩ := besides_polled one
    have both : (besides m).cpu.irqPolled = true := by
      rw [polled, ← last, ← next]
      exact Bool.and_eq_true_iff.mpr ⟨before, earlier⟩
    exact both
  · have later := turned_cycles_lt m
    exact ((besides_settled m).polled (by omega)).trans before

/-! ## The boundary behind a step -/

/-- What a boundary acts on has been sampled, by the last cycle but one if the step is no taken branch on its
page and has two cycles. -/
theorem step_settledSince (m : Machine β) : ∃ start < (step m).2.cpu.cycles,
    (step m).2.cpu.SettledSince start ∧ (¬ (Turns m ∧ StaysOnPage m) →
      m.cpu.cycles + 2 ≤ (step m).2.cpu.cycles → start + 1 < (step m).2.cpu.cycles) := by
  by_cases turns : Turns m
  · have settled := besides_settled m
    have later := turned_cycles_lt m
    by_cases stays : StaysOnPage m
    · obtain ⟨pc, ended⟩ := step_of_stays turns stays
      rw [ended]
      exact ⟨_, later, ⟨settled.sampled, settled.polled, settled.latched⟩,
        fun elsewhere => absurd ⟨turns, stays⟩ elsewhere⟩
    · obtain ⟨address, pc, ended⟩ := step_of_leaves turns stays
      have cycles := Machine.cycles_metered.read (besides m) address
      have settled := Machine.settled_metered.read (besides m) address _ settled
      have last : (turned m).cpu.cycles + 1 < (read address (besides m)).2.cpu.cycles := by omega
      rw [ended]
      exact ⟨_, Nat.lt_of_succ_lt last, ⟨settled.sampled, settled.polled, settled.latched⟩,
        fun _ _ => last⟩
  · exact ⟨m.cpu.cycles, step_cycles_pos m, step_settled turns, fun _ two => two⟩

theorem step_latched (m : Machine β) (polled : (step m).2.cpu.nmiPolled) :
    (step m).2.cpu.nmiLatched := by
  obtain ⟨start, later, settled, -⟩ := step_settledSince m
  exact settled.latched later polled

theorem step_polled (elsewhere : ¬ (Turns m ∧ StaysOnPage m))
    (two : m.cpu.cycles + 2 ≤ (step m).2.cpu.cycles) :
    (step m).2.cpu.irqPolled = (step m).2.cpu.samples.before.pending := by
  obtain ⟨start, -, settled, front⟩ := step_settledSince m
  exact settled.polled (front elsewhere two)

/-! ## Where the flag changes -/

/-- An instruction that masks late is sampled with the flag that it finds. -/
theorem late_masked (h : Executes m i) (late : i.masksLate = true) :
    let set := m.cpu.registers.p.interruptDisable
    (m.cpu.cycles + 1 < (step m).2.cpu.cycles → (step m).2.cpu.samples.before.masked = set) ∧
      (m.cpu.cycles + 2 < (step m).2.cpu.cycles → (step m).2.cpu.samples.earlier.masked = set) := by
  have ending := (Machine.masked_gauged (β := β)).ending fun m address value start set h =>
    h.endCycle _
  obtain ⟨n, f, ended, masked⟩ := Machine.masked_gauged.execute_front ending late (fetch m).2
    fun _ n start set h => ⟨h.flag, h.last, h.before, h.earlier⟩
  have whole := masked _ _ (Machine.masked_gauged.fetch m _ _ (.now m.cpu))
  rw [step_of_executes h]
  dsimp only
  rw [ended]
  exact ⟨whole.before, whole.earlier⟩

theorem two_le_of_late (h : Executes m i) (late : i.masksLate = true) :
    m.cpu.cycles + 2 ≤ (step m).2.cpu.cycles := by
  have cycles := h.cycles_le
  have going : i ≠ .jam := by
    rintro rfl
    contradiction
  have accesses := Instruction.one_le_accesses going
  omega

/-- Behind an instruction that masks late, and is no taken branch on its page, the line counts with the flag
that the instruction has found. -/
theorem late_polled (h : Executes m i) (late : i.masksLate = true)
    (elsewhere : ¬ (Turns m ∧ StaysOnPage m)) : (step m).2.cpu.irqPolled =
      ((step m).2.cpu.samples.before.asserted && !m.cpu.registers.p.interruptDisable) := by
  have two := two_le_of_late h late
  rw [step_polled elsewhere two, Sample.pending, (late_masked h late).1 two]

/-- A line that is held asserted leads into an interrupt behind every instruction that masks late and has
found the flag clear. -/
theorem late_polled_of_held (h : Executes m i) (late : i.masksLate = true)
    (clear : m.cpu.registers.p.interruptDisable = false)
    (before : (step m).2.cpu.samples.before.asserted = true)
    (earlier : (step m).2.cpu.samples.earlier.asserted = true) : (step m).2.cpu.irqPolled = true := by
  by_cases stays : Turns m ∧ StaysOnPage m
  · have three := three_le_of_stays stays.1 stays.2
    have masked := late_masked h late
    refine polled_of_both stays.1 stays.2 ?_ ?_
    · rw [Sample.pending, before, masked.1 (by omega), clear]
      rfl
    · rw [Sample.pending, earlier, masked.2 three, clear]
      rfl
  · rw [late_polled h late stays, before, clear]
    rfl

/-- Two reads behind the last change of the flag are enough for both samples. -/
theorem endsMasked_of_reads {α : Type} {action : Exec β α}
    (reads : ∀ {R : Nat → Machine β → Machine β → Prop}, Machine.Gauged R → Makes R 2 action)
    (m : Machine β) : (action m).2.cpu.EndsMasked m.cpu.registers.p.interruptDisable :=
  ⟨m.cpu.cycles, reads Machine.cycles_metered.toGauged m,
    reads Machine.settled_metered.toGauged m _ (.now m.cpu),
    reads Machine.masked_gauged m _ _ (.now m.cpu)⟩

/-- A return from an interrupt takes the flag from the stack in front of its last two cycles. -/
theorem returns_masked (h : Executes m .rti) :
    (step m).2.cpu.EndsMasked (step m).2.cpu.registers.p.interruptDisable := by
  have ended : ∃ (n : Machine β) (pc : UInt16), (step m).2.cpu =
      (pullWord n).2.cpu.mapRegisters fun r => { r with pc } := by
    rw [step_of_executes h]
    exact ⟨_, _, rfl⟩
  obtain ⟨n, pc, ended⟩ := ended
  have reads := (endsMasked_of_reads (fun gauged => gauged.pullWord) n).movePc pc
  rw [ended]
  have flag := reads.flag
  rw [flag]
  exact reads

/-- Entries set the flag in front of the two cycles in which they read a vector. -/
theorem entered_masked {c : Processor} (ended : ∃ (n : Machine β) (vector pc : UInt16), c =
      (readWord vector { n with cpu := n.cpu.mapRegisters .disableInterrupts }).2.cpu.mapRegisters
        fun r => { r with pc }) : c.EndsMasked true := by
  obtain ⟨n, vector, pc, rfl⟩ := ended
  exact (endsMasked_of_reads (fun gauged => gauged.readWord vector) _).movePc pc

theorem enterHandler_masked (pushed : Status → Status) (m : Machine β) :
    (enterHandler pushed m).2.cpu.EndsMasked true := entered_masked ⟨_, _, _, rfl⟩

theorem interrupt_masked (m : Machine β) : (interrupt m).2.cpu.EndsMasked true := by
  unfold interrupt
  rw [bind_apply, bind_apply]
  exact enterHandler_masked _ _

theorem software_masked (h : Executes m .brk) : (step m).2.cpu.EndsMasked true := by
  obtain ⟨start, two, settled, masked⟩ :=
    enterHandler_masked Status.pushedByInstruction (fetch (fetch m).2).2
  have ended : (step m).2.cpu = { (enterHandler Status.pushedByInstruction
      (fetch (fetch m).2).2).2.cpu with nmiPolled := false } := by
    rw [step_of_executes h]
    unfold execute
    dsimp only
    rw [bind_apply, bind_apply]
    rfl
  rw [ended]
  exact ⟨start, two, ⟨settled.sampled, settled.polled, fun _ polled => by simp at polled⟩,
    ⟨masked.flag, masked.last, masked.before, masked.earlier⟩⟩

theorem reset_masked (m : Machine β) : (reset m).2.cpu.EndsMasked true := by
  refine entered_masked (β := β) ?_
  unfold reset
  simp only [bind_apply]
  exact ⟨_, resetVector, _, rfl⟩

/-! ## Handlers -/

/-- While the flag stays set, no step brings an interrupt on its way. -/
theorem step_shut (h : m.cpu.Shut) (set : (step m).2.cpu.registers.p.interruptDisable = true) :
    (step m).2.cpu.Shut := by
  by_cases jammed : m.cpu.jammed
  · rw [step_of_jammed jammed]
    exact Machine.shut_gauged.read_makes _ m h
  by_cases pending : m.cpu.nmiPolled || m.cpu.irqPolled
  · rw [step_of_pending jammed pending]
    exact (interrupt_masked m).shut
  have fetched := Machine.shut_gauged.fetch m h
  by_cases refused : Refuses m
  · rw [step_of_ready jammed pending, instruction_of_refuses refused]
    exact ⟨fetched.flag, fetched.sampled, fetched.polled, fetched.latched⟩
  have executes : Executes m (.decode (fetch m).1) := ⟨jammed, pending, refused, rfl⟩
  generalize Instruction.decode (fetch m).1 = i at executes
  by_cases late : i.masksLate = true
  · have ending := (Machine.shut_gauged (β := β)).ending fun m address value h => h.endCycle _
    obtain ⟨n, f, ended, shut⟩ := Machine.shut_gauged.execute_front ending late (fetch m).2
      fun _ n h => ⟨h.flag, by simp [takenBack, h.sampled], h.polled, h.latched⟩
    rw [step_of_executes executes] at set ⊢
    dsimp only at set ⊢
    rw [ended] at set ⊢
    have front := shut fetched
    exact ⟨set, front.sampled, front.polled, front.latched⟩
  cases i with
  | rti =>
    have masked := returns_masked executes
    rw [set] at masked
    exact masked.shut
  | brk => exact (software_masked executes).shut
  | jam =>
    rw [step_of_executes executes]
    exact ⟨fetched.flag, fetched.sampled, fetched.polled, fetched.latched⟩
  | _ => exact absurd rfl late

end Exec

theorem Machine.happen_shut {m : Machine β} (h : m.cpu.Shut) (event : Event β)
    (set : (m.happen event).cpu.registers.p.interruptDisable = true) : (m.happen event).cpu.Shut := by
  cases event with
  | step => exact Exec.step_shut h set
  | reset => exact (Exec.reset_masked m).shut
  | powerOn =>
    unfold happen
    rw [Exec.powerOn_eq]
    exact (Exec.reset_masked _).shut
  | request lines =>
    exact ⟨h.flag, h.sampled, h.polled, fun polled => by
      have latched := h.latched polled
      simp [happen, Processor.request, latched]⟩
  | release lines => exact ⟨h.flag, h.sampled, h.polled, h.latched⟩
  | around f => exact h

/-- In a run at whose every boundary the flag is set no interrupt comes up. -/
theorem Machine.run_shut {m : Machine β} (h : m.cpu.Shut) (events : List (Event β))
    (set : ∀ first rest, events = first ++ rest →
      (first.foldl happen m).cpu.registers.p.interruptDisable = true) :
    (events.foldl happen m).cpu.Shut := by
  induction events generalizing m with
  | nil => exact h
  | cons event events ih =>
    refine ih (happen_shut h event (set [event] events rfl)) fun first rest split => ?_
    exact set (event :: first) rest (congrArg (event :: ·) split)

namespace Exec

variable {m : Machine β} {i : Instruction}

/-! ## What a boundary decides -/

/-- A step that enters a handler. -/
def enter : Exec β (Except IllegalOpcode Nat) := fun m =>
  (.ok ((interrupt m).2.cpu.cycles - m.cpu.cycles), (interrupt m).2)

/-- A step that goes on in the program. -/
def proceed : Exec β (Except IllegalOpcode Nat) := fun m =>
  ((instruction m).1.map fun _ => (instruction m).2.cpu.cycles - m.cpu.cycles, (instruction m).2)

/-- The processor runs, and no edge of the first line is latched. -/
structure Unhindered (m : Machine β) : Prop where
  running : ¬ m.cpu.jammed
  unlatched : m.cpu.nmiLatched = false

/-- The next step enters a handler. -/
structure Enters (m : Machine β) : Prop where
  running : ¬ m.cpu.jammed
  pending : m.cpu.nmiPolled || m.cpu.irqPolled

theorem step_of_unlatched (free : Unhindered m) (latched : m.cpu.nmiPolled → m.cpu.nmiLatched) :
    step m = if m.cpu.irqPolled then enter m else proceed m := by
  have unpolled : m.cpu.nmiPolled = false := Bool.eq_false_iff.mpr fun polled => by
    have latched := latched polled
    rw [free.unlatched] at latched
    contradiction
  split
  · have polled : m.cpu.irqPolled = true := ‹_›
    exact step_of_pending free.running (by simp [polled])
  · have quiet : ¬ m.cpu.irqPolled = true := ‹_›
    exact step_of_ready free.running (by simp [unpolled, quiet])

/-- What is to be said of the interrupts behind a step. -/
structure PollsInTime (m : Machine β) : Prop where
  /-- A boundary acts on the sample of the last cycle but one. -/
  sampled : let n := (step m).2
    ¬ (Turns m ∧ StaysOnPage m) → m.cpu.cycles + 2 ≤ n.cpu.cycles → Unhindered n →
      step n = if n.cpu.samples.before.pending then enter n else proceed n
  /-- Behind a taken branch on its page it acts on the samples of the opcode and of the operand. -/
  turned : let n := (step m).2
    Turns m → StaysOnPage m → n.cpu.cycles = (fetch m).2.cpu.cycles + 2 → Unhindered n →
      step n = if (fetch m).2.cpu.samples.last.pending &&
        (fetch (fetch m).2).2.cpu.samples.last.pending then enter n else proceed n
  /-- One instruction more is executed behind one that clears the flag. -/
  cleared : let n := (step m).2
    ∀ i ∈ [Instruction.register .cli, .plp], Executes m i →
      m.cpu.registers.p.interruptDisable = true → Unhindered n → step n = proceed n ∧
        (n.cpu.registers.p.interruptDisable = false → ∀ j, Executes n j → j ≠ .brk → j ≠ .jam →
          let o := (step n).2
          (j = .rti → o.cpu.registers.p.interruptDisable = false) →
            o.cpu.samples.before.asserted = true → o.cpu.samples.earlier.asserted = true →
              Unhindered o → step o = enter o)
  /-- A return from an interrupt is sampled with the flag that it restores. -/
  returned : let n := (step m).2
    Executes m .rti → Unhindered n → step n =
      if n.cpu.samples.before.asserted && !n.cpu.registers.p.interruptDisable then enter n
      else proceed n
  /-- An instruction that sets the flag is sampled with the flag that it finds. -/
  disabled : let n := (step m).2
    Executes m (.register .sei) → Unhindered n → step n =
      if n.cpu.samples.before.asserted && !m.cpu.registers.p.interruptDisable then enter n
      else proceed n
  /-- Behind the entry into a handler no interrupt comes up while the flag is set at every boundary. -/
  handled : Enters m ∨ Executes m .brk → ∀ events : List (Machine.Event β),
    let n := events.foldl Machine.happen (step m).2
    (∀ first rest, events = first ++ rest →
      (first.foldl Machine.happen (step m).2).cpu.registers.p.interruptDisable = true) →
        Unhindered n → step n = proceed n

theorem polls_in_time (m : Machine β) : PollsInTime m where
  sampled := by
    intro n elsewhere two free
    rw [step_of_unlatched free (step_latched m), step_polled elsewhere two]
  turned := by
    intro n turns stays alone free
    rw [step_of_unlatched free (step_latched m), polled_of_stays turns stays alone]
  cleared := by
    intro n i clears executes set free
    have late : i.masksLate = true ∧ ∀ p, i.turns p = false := by
      simp only [List.mem_cons, List.not_mem_nil, or_false] at clears
      rcases clears with rfl | rfl <;> exact ⟨rfl, fun _ => rfl⟩
    have straight : ¬ Turns m := executes.not_turns (late.2 _)
    constructor
    · rw [step_of_unlatched free (step_latched m), late_polled executes late.1 fun both =>
        straight both.1, set, Bool.not_true, Bool.and_false]
      rfl
    · intro clear j next brk jam o restored before earlier free
      have polled : o.cpu.irqPolled = true := by
        by_cases late : j.masksLate = true
        · exact late_polled_of_held next late clear before earlier
        cases j with
        | rti => rw [(returns_masked next).polled, before, restored rfl, Bool.not_false, Bool.and_true]
        | brk | jam => contradiction
        | _ => exact absurd rfl late
      rw [step_of_unlatched free (step_latched n), polled]
      rfl
  returned := by
    intro n executes free
    rw [step_of_unlatched free (step_latched m), (returns_masked executes).polled]
  disabled := by
    intro n executes free
    have straight : ¬ Turns m := executes.not_turns rfl
    rw [step_of_unlatched free (step_latched m),
      late_polled executes rfl fun both => straight both.1]
  handled := by
    intro entered events n set free
    have shut : (step m).2.cpu.Shut := by
      obtain ⟨running, pending⟩ | executes := entered
      · rw [step_of_pending running pending]
        exact (interrupt_masked m).shut
      · exact (software_masked executes).shut
    have still := Machine.run_shut shut events set
    rw [step_of_unlatched free still.latched, still.polled]
    rfl

/-- A processor in front of `CLI` and `RTI`, with a line held asserted. The stack holds a status with the
flag set and the address of a `NOP`. -/
def returning : Machine FlatMemory where
  cpu := { Processor.initial with registers := { Registers.initial with sp := 0xFC, pc := 0x0010 } }
  bus :=
    { ((FlatMemory.blank.load 0x0010 [0x58, 0x40]).load 0x0020 [0xEA]).load 0x01FD [0x24, 0x20, 0x00] with
      lines := { Lines.none with board := true } }

/-- `CLI` clears the flag, one instruction more is executed, and no interrupt is entered behind it: a
return from an interrupt has set the flag again. -/
theorem return_masks_again :
    let next := (step returning).2
    let last := (step next).2
    Executes returning (.register .cli) ∧ returning.cpu.registers.p.interruptDisable = true ∧
      Executes next .rti ∧ next.cpu.registers.p.interruptDisable = false ∧
      Unhindered next ∧ Unhindered last ∧ last.cpu.samples = ⟨⟨true, true⟩, ⟨true, true⟩, ⟨true, false⟩⟩ ∧
      (step last).2.cpu.registers.pc = 0x0021 ∧ (step last).2.cpu.registers.sp = 0xFF ∧
      (enter last).2.cpu.registers.sp ≠ 0xFF := by
  refine ⟨⟨?_, ?_, ?_, ?_⟩, ?_, ⟨?_, ?_, ?_, ?_⟩, ?_, ⟨?_, ?_⟩, ⟨?_, ?_⟩, ?_, ?_, ?_, ?_⟩ <;>
    decide +kernel

end Exec

end Famiclone
