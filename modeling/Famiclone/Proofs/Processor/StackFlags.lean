import Famiclone.Proofs.Processor.Edges

/-!
# The flags without a circuit

Two of the eight flags exist only in bytes on the stack. In the processor one of them is always set and the
other always clear: power-on leaves them so, the one way in which a byte becomes the status sets them so,
and nothing else touches them. What is pushed and pulled back is therefore the status itself.
-/
namespace Famiclone

variable {β : Type} [ProcessorBus β]

namespace Status

/-- The flags without a circuit are as in any status that has been pulled. -/
structure AsPulled (p : Status) : Prop where
  unused : p.unused = true
  breakFlag : p.breakFlag = false

theorem pulled_asPulled (b : UInt8) : (pulled b).AsPulled := ⟨rfl, rfl⟩

theorem powerOn_asPulled : powerOn.AsPulled := by
  constructor <;> decide

/-- An instruction pushes a status that is pulled back as it was. -/
theorem AsPulled.pulled_pushedByInstruction {p : Status} (h : p.AsPulled) :
    pulled p.pushedByInstruction.toByte = p := by
  rw [pulled, ofByte_toByte, pushedByInstruction, ← h.unused, ← h.breakFlag]

/-- So does an interrupt. -/
theorem AsPulled.pulled_pushedByInterrupt {p : Status} (h : p.AsPulled) :
    pulled p.pushedByInterrupt.toByte = p := by
  rw [pulled, ofByte_toByte, pushedByInterrupt, ← h.unused, ← h.breakFlag]

end Status

/-! ## Registers -/

theorem ReadOp.apply_asPulled (op : ReadOp) (value : UInt8) {r : Registers} (h : r.p.AsPulled) :
    (op.apply value r).p.AsPulled := by
  cases op <;> exact ⟨h.unused, h.breakFlag⟩

theorem ModifyOp.apply_asPulled (op : ModifyOp) (value : UInt8) {r : Registers} (h : r.p.AsPulled) :
    (op.apply value r).2.p.AsPulled := by
  cases op <;> exact ⟨h.unused, h.breakFlag⟩

theorem RegisterOp.apply_asPulled (op : RegisterOp) {r : Registers} (h : r.p.AsPulled) :
    (op.apply r).p.AsPulled := by
  cases op <;> exact ⟨h.unused, h.breakFlag⟩

namespace Registers

theorem disableInterrupts_asPulled {r : Registers} (h : r.p.AsPulled) :
    r.disableInterrupts.p.AsPulled := ⟨h.unused, h.breakFlag⟩

theorem setA_asPulled {r : Registers} (value : UInt8) (h : r.p.AsPulled) :
    (r.setA value).p.AsPulled := ⟨h.unused, h.breakFlag⟩

theorem setStatus_asPulled (r : Registers) (value : UInt8) : (r.setStatus value).p.AsPulled :=
  Status.pulled_asPulled value

end Registers

/-! ## Actions -/

/-- Two machines of which the second has the flags as pulled, if the first has. -/
def Machine.KeepsFlags (_ : Nat) (m n : Machine β) : Prop :=
  m.cpu.registers.p.AsPulled → n.cpu.registers.p.AsPulled

theorem Machine.keepsFlags_walked : Walked (KeepsFlags (β := β)) where
  refl _ h := h
  trans first second h := second (first h)
  read m address h := by
    rw [Exec.read_registers]
    exact h
  push _ _ h := h
  movesPc _ _ h := h
  movesSp _ _ h := h

namespace Exec

open Machine (KeepsFlags keepsFlags_walked)

omit [ProcessorBus β] in
theorem mapRegisters_keepsFlags {f : Registers → Registers}
    (keeps : ∀ r : Registers, r.p.AsPulled → (f r).p.AsPulled) :
    Makes KeepsFlags 0 (mapRegisters (β := β) f) := fun _ h => keeps _ h

omit [ProcessorBus β] in
theorem takeVector_keepsFlags : Makes KeepsFlags 0 (takeVector (β := β)) := fun m h => by
  rw [takeVector_registers]
  exact h

theorem enterHandler_keepsFlags (pushed : Status → Status) :
    Makes KeepsFlags 5 (enterHandler (β := β) pushed) := by
  have walked := keepsFlags_walked (β := β)
  exact walked.bind_zero walked.registers_makes fun r => walked.bind (k := 3) (walked.pushWord r.pc)
    fun _ => walked.bind_zero takeVector_keepsFlags fun vector =>
      walked.bind_zero walked.registers_makes fun _ => walked.bind (k := 2) (walked.push_makes _) fun _ =>
        walked.bind_zero (mapRegisters_keepsFlags fun _ => Registers.disableInterrupts_asPulled)
          fun _ => walked.bind (walked.readWord vector) fun pc => walked.movePc fun _ => pc

theorem interrupt_keepsFlags : Makes KeepsFlags 7 (interrupt (β := β)) :=
  keepsFlags_walked.bind keepsFlags_walked.readAtPc fun _ =>
    keepsFlags_walked.bind keepsFlags_walked.readAtPc fun _ => enterHandler_keepsFlags _

theorem reset_keepsFlags {m : Machine β} (h : m.cpu.registers.p.AsPulled) :
    (reset m).2.cpu.registers.p.AsPulled := by
  have walked := keepsFlags_walked (β := β)
  have sequence := walked.bind walked.readAtPc fun _ => walked.bind walked.readAtPc fun _ =>
    walked.bind walked.resetPush fun _ => walked.bind walked.resetPush fun _ =>
      walked.bind walked.resetPush fun _ => walked.bind
        (mapRegisters_keepsFlags fun _ => Registers.disableInterrupts_asPulled) fun _ =>
          walked.bind (walked.readWord resetVector) fun pc => walked.movePc fun _ => pc
  have kept : (forgotten m).cpu.registers.p.AsPulled → _ := sequence (forgotten m)
  unfold reset
  rw [modify_bind]
  exact kept h

/-- Instructions keep the flags, those that pull the status put them there. -/
theorem execute_keepsFlags (i : Instruction) (m : Machine β) : KeepsFlags 0 m (execute i m).2 := by
  have walked := keepsFlags_walked (β := β)
  cases i with
  | read op mode => exact fun h => op.apply_asPulled _ (walked.readOperand mode m h)
  | store op mode => exact walked.resolve_writing mode m
  | maskedStore op mode =>
    by_cases tas : op = .tas
    · subst tas
      exact fun h => walked.resolve_writing mode m h
    · unfold execute maskedStore
      simp only [if_neg tas]
      exact walked.resolve_writing mode m
  | modify op mode => exact fun h => op.apply_asPulled _ (walked.readModified mode m h)
  | accumulator op => exact fun h => op.apply_asPulled _ (walked.readAtPc m h)
  | branch flag whenSet =>
    exact walked.branch_at (flag.test m.cpu.registers.p == whenSet) m fun _ _ h => h
  | register op => exact fun h => op.apply_asPulled (walked.readAtPc m h)
  | jmp indirect => exact walked.jmp indirect m
  | jsr => exact walked.jsr m
  | rts => exact walked.rts m
  | rti =>
    have all := walked.bind walked.readAtPc fun _ => walked.bind walked.readAtStack fun _ =>
      walked.bind walked.pull fun p => walked.bind
        (mapRegisters_keepsFlags fun r _ => r.setStatus_asPulled p) fun _ =>
          walked.bind walked.pullWord fun pc => walked.movePc fun _ => pc
    exact all m
  | brk =>
    have all := walked.bind walked.fetch fun _ => enterHandler_keepsFlags Status.pushedByInstruction
    exact all m
  | pha => exact walked.pha m
  | php => exact walked.php m
  | pla => exact fun h => Registers.setA_asPulled _ (walked.pullOne m h)
  | plp => exact fun _ => Registers.setStatus_asPulled _ _
  | jam => exact id

theorem step_keepsFlags (m : Machine β) : KeepsFlags 0 m (step m).2 := by
  have walked := keepsFlags_walked (β := β)
  by_cases jammed : m.cpu.jammed
  · rw [step_of_jammed jammed]
    exact walked.read_makes _ m
  by_cases pending : m.cpu.nmiPolled || m.cpu.irqPolled
  · rw [step_of_pending jammed pending]
    exact interrupt_keepsFlags m
  rw [step_of_ready jammed pending]
  by_cases refused : Refuses m
  · rw [instruction_of_refuses refused]
    exact walked.trans (walked.fetch m) (walked.movePc _ _)
  · rw [instruction_of_accepts refused]
    exact walked.trans (walked.fetch m) (execute_keepsFlags _ _)

theorem powerOn_asPulled (m : Machine β) : (powerOn m).2.cpu.registers.p.AsPulled := by
  rw [powerOn_eq]
  exact reset_keepsFlags Status.powerOn_asPulled

end Exec

/-! ## Runs -/

theorem Machine.happen_asPulled {m : Machine β} (h : m.cpu.registers.p.AsPulled) (event : Event β) :
    (m.happen event).cpu.registers.p.AsPulled := by
  cases event with
  | step => exact Exec.step_keepsFlags m h
  | reset => exact Exec.reset_keepsFlags h
  | powerOn => exact Exec.powerOn_asPulled m
  | request | release | around => exact h

/-- Whatever happens to a machine. -/
theorem Machine.run_asPulled {m : Machine β} (h : m.cpu.registers.p.AsPulled)
    (events : List (Event β)) : (events.foldl happen m).cpu.registers.p.AsPulled := by
  induction events generalizing m with
  | nil => exact h
  | cons event rest ih => exact ih (happen_asPulled h event)

end Famiclone
