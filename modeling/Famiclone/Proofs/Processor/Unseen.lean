import Famiclone.Proofs.Processor.Accesses

/-!
# What the processor does not see of its bus

A machine can hold more than it shows to its processor. A change of the bus is unseen if the bus answers
as before and goes on as before but for the change. The processor meets its bus only where it reads,
writes, looks at the interrupt lines and serves transfers, so it is blind to such a change: every action
has the same answer on both machines, and behind it they differ by the change again. The same holds of the
strictness of the processor, but for the one place where an instruction is fetched that a strict processor
refuses.
-/
namespace Famiclone

variable {β δ : Type}

/-- A change of the bus that the processor cannot see. It may make a bus of another kind. -/
structure ProcessorBus.Unseen [ProcessorBus β] [ProcessorBus δ] (h : β → δ) : Prop where
  read : ∀ b address, ProcessorBus.read (h b) address =
    ((ProcessorBus.read b address).1, h (ProcessorBus.read b address).2)
  write : ∀ b address value,
    ProcessorBus.write (h b) address value = h (ProcessorBus.write b address value)
  lines : ∀ b, ProcessorBus.lines (h b) = ProcessorBus.lines b
  takeTransfer : ∀ b, ProcessorBus.takeTransfer (h b) =
    ((ProcessorBus.takeTransfer b).1, h (ProcessorBus.takeTransfer b).2)
  deliver : ∀ b value, ProcessorBus.deliver (h b) value = h (ProcessorBus.deliver b value)
  transferLimit : ∀ b, ProcessorBus.transferLimit (h b) = ProcessorBus.transferLimit b

def Machine.onBus (h : β → δ) (m : Machine β) : Machine δ := ⟨m.cpu, h m.bus⟩

/-- Change the bus of a machine and the strictness of its processor. -/
def Machine.disguised (s : Bool → Bool) (h : β → δ) (m : Machine β) : Machine δ :=
  ⟨{ m.cpu with strict := s m.cpu.strict }, h m.bus⟩

namespace Exec

variable {α γ : Type} {s : Bool → Bool} {h : β → δ}

/-- An action that runs on a changed machine as it does without the change. -/
def Blind (H : Machine β → Machine δ) (action : Exec β α) (other : Exec δ α) : Prop :=
  ∀ m : Machine β, other (H m) = ((action m).1, H (action m).2)

/-! ## How blind actions are put together -/

namespace Blind

variable {H : Machine β → Machine δ}

theorem pure (a : α) : Blind H (Pure.pure a) (Pure.pure a) := fun _ => rfl

theorem bind {action : Exec β α} {other : Exec δ α} {next : α → Exec β γ} {following : α → Exec δ γ}
    (first : Blind H action other) (rest : ∀ a, Blind H (next a) (following a)) :
    Blind H (action >>= next) (other >>= following) := by
  intro m
  show following (other (H m)).1 (other (H m)).2 = _
  rw [first m]
  exact rest (action m).1 (action m).2

/-- An action may look at the machine as long as it makes no use of the change. -/
theorem get {next : Machine β → Exec β α} {following : Machine δ → Exec δ α}
    (rest : ∀ m, Blind H (next m) (following (H m))) :
    Blind H (MonadState.get >>= next) (MonadState.get >>= following) :=
  fun m => rest m m

theorem modifyGet {f : Machine β → α × Machine β} {g : Machine δ → α × Machine δ}
    (same : ∀ m : Machine β, g (H m) = ((f m).1, H (f m).2)) :
    Blind H (modifyGet f) (modifyGet g) := same

theorem modify {f : Machine β → Machine β} {g : Machine δ → Machine δ}
    (same : ∀ m : Machine β, g (H m) = H (f m)) :
    Blind H (modify f) (modify g) :=
  fun m => congrArg (Prod.mk PUnit.unit) (same m)

theorem forM {xs : List α} {action : α → Exec β PUnit} {other : α → Exec δ PUnit}
    (each : ∀ x, Blind H (action x) (other x)) : Blind H (xs.forM action) (xs.forM other) := by
  induction xs with
  | nil => exact .pure _
  | cons x xs ih => exact .bind (each x) fun _ => ih

end Blind

theorem registers_blind : Blind (Machine.disguised s h) registers registers := fun _ => rfl

theorem mapRegisters_blind (f : Registers → Registers) :
    Blind (Machine.disguised s h) (mapRegisters f) (mapRegisters f) :=
  fun _ => rfl

theorem takeVector_blind : Blind (Machine.disguised s h) takeVector takeVector := by
  refine .modifyGet fun m => ?_
  unfold Machine.disguised
  dsimp only
  split <;> rfl

end Exec

namespace ProcessorBus.Unseen

open Exec

variable [ProcessorBus β] [ProcessorBus δ] {s : Bool → Bool} {h : β → δ} (unseen : Unseen h)
include unseen

/-! ## Cycles and transfers -/

theorem cycleRead (address : UInt16) :
    Blind (Machine.disguised s h) (Exec.cycleRead address) (Exec.cycleRead address) := by
  intro m
  unfold Exec.cycleRead Machine.disguised
  dsimp only
  rw [unseen.read, unseen.lines]
  rfl

theorem write_blind (address : UInt16) (value : UInt8) :
    Blind (Machine.disguised s h) (Exec.write address value) (Exec.write address value) := by
  intro m
  unfold Exec.write Machine.disguised
  dsimp only
  rw [unseen.write, unseen.lines]
  rfl

theorem serve (halted : UInt16) (t : Transfer) :
    Blind (Machine.disguised s h) (Exec.serve halted t) (Exec.serve halted t) := by
  cases t with
  | sprites page =>
    have copies : Blind (Machine.disguised s h) ((List.range 256).forM (copySprite page))
        ((List.range 256).forM (copySprite page)) :=
      .forM fun _ => .bind (unseen.cycleRead _) fun _ => unseen.write_blind _ _
    refine .bind (unseen.cycleRead _) fun _ => .get fun m => ?_
    unfold Machine.disguised
    dsimp only
    split
    · exact .bind (unseen.cycleRead _) fun _ => copies
    · exact copies
  | sample address =>
    refine .bind (unseen.cycleRead _) fun _ => .bind (unseen.cycleRead _) fun _ =>
      .bind (unseen.cycleRead _) fun _ => .bind (unseen.cycleRead _) fun value => ?_
    refine .modify fun m => ?_
    unfold Machine.disguised
    dsimp only
    rw [unseen.deliver]

theorem serveAll (halted : UInt16) (limit : Nat) :
    Blind (Machine.disguised s h) (Exec.serveAll halted limit) (Exec.serveAll halted limit) := by
  induction limit with
  | zero => exact .pure _
  | succ limit ih =>
    have take (m : Machine β) : ProcessorBus.takeTransfer (m.disguised s h).bus =
        ((ProcessorBus.takeTransfer m.bus).1, h (ProcessorBus.takeTransfer m.bus).2) :=
      unseen.takeTransfer m.bus
    refine .bind (.modifyGet fun m => ?_) fun next => ?_
    · dsimp only
      rw [take]
      rfl
    cases next with
    | none => exact .pure _
    | some t => exact .bind (unseen.serve halted t) fun _ => ih

theorem read_disguised (address : UInt16) :
    Blind (Machine.disguised s h) (Exec.read address) (Exec.read address) := by
  refine .get fun m => ?_
  unfold Machine.disguised
  dsimp only
  rw [unseen.transferLimit]
  exact .bind (unseen.serveAll _ _) fun _ => unseen.cycleRead _

/-! ## Operands -/

theorem readAtPc : Blind (Machine.disguised s h) Exec.readAtPc Exec.readAtPc :=
  .bind registers_blind fun _ => unseen.read_disguised _

theorem fetch : Blind (Machine.disguised s h) Exec.fetch Exec.fetch :=
  .bind unseen.readAtPc fun _ => .bind (mapRegisters_blind _) fun _ => .pure _

theorem fetchWord : Blind (Machine.disguised s h) Exec.fetchWord Exec.fetchWord :=
  .bind unseen.fetch fun _ => .bind unseen.fetch fun _ => .pure _

theorem readWord (address : UInt16) :
    Blind (Machine.disguised s h) (Exec.readWord address) (Exec.readWord address) :=
  .bind (unseen.read_disguised _) fun _ => .bind (unseen.read_disguised _) fun _ => .pure _

theorem readZeroPageWord (pointer : UInt8) :
    Blind (Machine.disguised s h) (Exec.readZeroPageWord pointer) (Exec.readZeroPageWord pointer) :=
  .bind (unseen.read_disguised _) fun _ => .bind (unseen.read_disguised _) fun _ => .pure _

theorem readAtStack : Blind (Machine.disguised s h) Exec.readAtStack Exec.readAtStack :=
  .bind registers_blind fun _ => unseen.read_disguised _

theorem push (value : UInt8) : Blind (Machine.disguised s h) (Exec.push value) (Exec.push value) :=
  .bind registers_blind fun _ => .bind (unseen.write_blind _ _) fun _ => mapRegisters_blind _

theorem pull : Blind (Machine.disguised s h) Exec.pull Exec.pull :=
  .bind (mapRegisters_blind _) fun _ => unseen.readAtStack

theorem pushWord (value : UInt16) :
    Blind (Machine.disguised s h) (Exec.pushWord value) (Exec.pushWord value) :=
  .bind (unseen.push _) fun _ => unseen.push _

theorem pullWord : Blind (Machine.disguised s h) Exec.pullWord Exec.pullWord :=
  .bind unseen.pull fun _ => .bind unseen.pull fun _ => .pure _

theorem index (base : UInt16) (offset : UInt8) (purpose : Purpose) :
    Blind (Machine.disguised s h) (Exec.index base offset purpose) (Exec.index base offset purpose) := by
  unfold Exec.index
  dsimp only
  split
  · exact .bind (unseen.read_disguised _) fun _ => .pure _
  · exact .pure _

theorem indexZeroPage (offset : Registers → UInt8) :
    Blind (Machine.disguised s h) (Exec.indexZeroPage offset) (Exec.indexZeroPage offset) :=
  .bind unseen.fetch fun _ => .bind (unseen.read_disguised _) fun _ => .bind registers_blind fun _ =>
    .pure _

theorem resolve (mode : Mode) (purpose : Purpose) :
    Blind (Machine.disguised s h) (Exec.resolve mode purpose) (Exec.resolve mode purpose) := by
  cases mode with
  | immediate => exact .bind registers_blind fun _ => .bind (mapRegisters_blind _) fun _ => .pure _
  | zeroPage => exact .bind unseen.fetch fun _ => .pure _
  | zeroPageX | zeroPageY => exact unseen.indexZeroPage _
  | absolute => exact .bind unseen.fetchWord fun _ => .pure _
  | absoluteX | absoluteY =>
    exact .bind unseen.fetchWord fun _ => .bind registers_blind fun _ => unseen.index _ _ _
  | indirectX =>
    exact .bind unseen.fetch fun _ => .bind (unseen.read_disguised _) fun _ =>
      .bind registers_blind fun _ => .bind (unseen.readZeroPageWord _) fun _ => .pure _
  | indirectY =>
    exact .bind unseen.fetch fun _ => .bind (unseen.readZeroPageWord _) fun _ =>
      .bind registers_blind fun _ => unseen.index _ _ _

theorem resolveIndirect : Blind (Machine.disguised s h) Exec.resolveIndirect Exec.resolveIndirect :=
  .bind unseen.fetchWord fun _ => .bind (unseen.read_disguised _) fun _ =>
    .bind (unseen.read_disguised _) fun _ => .pure _

/-! ## Instructions -/

theorem enterHandler (pushed : Status → Status) :
    Blind (Machine.disguised s h) (Exec.enterHandler pushed) (Exec.enterHandler pushed) :=
  .bind registers_blind fun _ => .bind (unseen.pushWord _) fun _ => .bind takeVector_blind fun _ =>
    .bind registers_blind fun _ => .bind (unseen.push _) fun _ => .bind (mapRegisters_blind _) fun _ =>
      .bind (unseen.readWord _) fun _ => mapRegisters_blind _

theorem branch (taken : Bool) :
    Blind (Machine.disguised s h) (Exec.branch taken) (Exec.branch taken) := by
  refine .bind unseen.fetch fun offset => ?_
  cases taken with
  | false => exact .pure _
  | true =>
    refine .bind (.modify fun _ => rfl) fun _ => .bind unseen.readAtPc fun _ =>
      .bind registers_blind fun r => ?_
    dsimp only
    split
    · exact .bind (unseen.read_disguised _) fun _ => mapRegisters_blind _
    · exact mapRegisters_blind _

theorem maskedStore (op : MaskedStoreOp) (mode : Mode) :
    Blind (Machine.disguised s h) (Exec.maskedStore op mode) (Exec.maskedStore op mode) := by
  refine .bind (unseen.resolve _ _) fun operand => .bind registers_blind fun r => ?_
  dsimp only
  split
  · exact .bind (mapRegisters_blind _) fun _ => unseen.write_blind _ _
  · exact unseen.write_blind _ _

theorem modifyMemory (op : ModifyOp) (mode : Mode) :
    Blind (Machine.disguised s h) (Exec.modifyMemory op mode) (Exec.modifyMemory op mode) :=
  .bind (unseen.resolve _ _) fun _ => .bind (unseen.read_disguised _) fun _ =>
    .bind (unseen.write_blind _ _) fun _ => .bind registers_blind fun _ =>
      .bind (mapRegisters_blind _) fun _ => unseen.write_blind _ _

theorem execute (i : Instruction) : Blind (Machine.disguised s h) (Exec.execute i) (Exec.execute i) := by
  cases i with
  | read op mode =>
    exact .bind (unseen.resolve _ _) fun _ => .bind (unseen.read_disguised _) fun _ =>
      mapRegisters_blind _
  | store op mode =>
    exact .bind (unseen.resolve _ _) fun _ => .bind registers_blind fun _ => unseen.write_blind _ _
  | maskedStore op mode => exact unseen.maskedStore op mode
  | modify op mode => exact unseen.modifyMemory op mode
  | accumulator op | register op => exact .bind unseen.readAtPc fun _ => mapRegisters_blind _
  | branch flag whenSet => exact .bind registers_blind fun _ => unseen.branch _
  | jmp indirect =>
    cases indirect
    · exact .bind unseen.fetchWord fun _ => mapRegisters_blind _
    · exact .bind unseen.resolveIndirect fun _ => mapRegisters_blind _
  | jsr =>
    exact .bind unseen.fetch fun _ => .bind unseen.readAtStack fun _ => .bind registers_blind fun _ =>
      .bind (unseen.pushWord _) fun _ => .bind unseen.readAtPc fun _ => mapRegisters_blind _
  | rts =>
    exact .bind unseen.readAtPc fun _ => .bind unseen.readAtStack fun _ => .bind unseen.pullWord fun _ =>
      .bind (mapRegisters_blind _) fun _ => .bind unseen.readAtPc fun _ => mapRegisters_blind _
  | rti =>
    exact .bind unseen.readAtPc fun _ => .bind unseen.readAtStack fun _ => .bind unseen.pull fun _ =>
      .bind (mapRegisters_blind _) fun _ => .bind unseen.pullWord fun _ => mapRegisters_blind _
  | brk =>
    exact .bind unseen.fetch fun _ => .bind (unseen.enterHandler _) fun _ => .modify fun _ => rfl
  | pha | php =>
    exact .bind unseen.readAtPc fun _ => .bind registers_blind fun _ => unseen.push _
  | pla | plp =>
    exact .bind unseen.readAtPc fun _ => .bind unseen.readAtStack fun _ => .bind unseen.pull fun _ =>
      mapRegisters_blind _
  | jam => exact .modify fun _ => rfl

/-! ## Steps -/

theorem interrupt : Blind (Machine.disguised s h) Exec.interrupt Exec.interrupt :=
  .bind unseen.readAtPc fun _ => .bind unseen.readAtPc fun _ => unseen.enterHandler _

theorem reset_disguised : Blind (Machine.disguised s h) Exec.reset Exec.reset := by
  have push : Blind (Machine.disguised s h) Exec.resetPush Exec.resetPush :=
    .bind unseen.readAtStack fun _ => mapRegisters_blind _
  exact .bind (.modify fun _ => rfl) fun _ => .bind unseen.readAtPc fun _ =>
    .bind unseen.readAtPc fun _ => .bind push fun _ => .bind push fun _ => .bind push fun _ =>
      .bind (mapRegisters_blind _) fun _ => .bind (unseen.readWord _) fun _ => mapRegisters_blind _

theorem powerOn_disguised : Blind (Machine.disguised s h) Exec.powerOn Exec.powerOn :=
  .bind (.modify fun _ => rfl) fun _ => unseen.reset_disguised

/-- Strictness shows where one of the two processors refuses the next opcode, and only there. -/
theorem instruction_disguised {m : Machine β}
    (same : Refuses (m.disguised s h) ↔ Refuses m) :
    Exec.instruction (m.disguised s h) =
      ((Exec.instruction m).1, (Exec.instruction m).2.disguised s h) := by
  have fetched := unseen.fetch (s := s) m
  by_cases refused : Refuses m
  · rw [instruction_of_refuses refused, instruction_of_refuses (same.mpr refused), fetched]
    rfl
  · rw [instruction_of_accepts refused, instruction_of_accepts (mt same.mp refused), fetched,
      unseen.execute]

/-- The processor takes the same step on both machines, if it refuses the next opcode on both or on
neither. -/
theorem step_disguised {m : Machine β}
    (same : ¬ m.cpu.jammed → ¬ (m.cpu.nmiPolled || m.cpu.irqPolled) →
      (Refuses (m.disguised s h) ↔ Refuses m)) :
    Exec.step (m.disguised s h) = ((Exec.step m).1, (Exec.step m).2.disguised s h) := by
  by_cases jammed : m.cpu.jammed
  · rw [step_of_jammed jammed, step_of_jammed (m := m.disguised s h) jammed, unseen.read_disguised]
  by_cases pending : m.cpu.nmiPolled || m.cpu.irqPolled
  · rw [step_of_pending jammed pending, step_of_pending (m := m.disguised s h) jammed pending,
      unseen.interrupt]
    rfl
  · rw [step_of_ready jammed pending, step_of_ready (m := m.disguised s h) jammed pending,
      unseen.instruction_disguised (same jammed pending)]
    rfl

/-! ## Changes of the bus alone -/

theorem read_blind (address : UInt16) :
    Blind (Machine.onBus h) (Exec.read address) (Exec.read address) :=
  unseen.read_disguised (s := id) address

theorem reset : Blind (Machine.onBus h) Exec.reset Exec.reset := unseen.reset_disguised (s := id)

theorem powerOn : Blind (Machine.onBus h) Exec.powerOn Exec.powerOn :=
  unseen.powerOn_disguised (s := id)

/-- The processor takes the same step on both machines. -/
theorem step : Blind (Machine.onBus h) Exec.step Exec.step := fun m => by
  refine unseen.step_disguised (s := id) fun _ _ => ?_
  have fetched := unseen.fetch (s := id) m
  unfold Refuses
  rw [fetched]
  rfl

end ProcessorBus.Unseen

end Famiclone
