import Famiclone.Processor.FlatMemory
import Famiclone.Proofs.Processor.Course

/-!
# Processors on memory alone

On a machine of RAM a read answers with what the last write has left, so what an instruction does can be
said of its registers and of the bytes in memory. This says where its operand stands, what it leaves in
the registers and in memory, and how the interrupt logic calms down while no line is asserted: what the
last samples saw is forgotten within two cycles.
-/
namespace Famiclone

open Exec

namespace FlatMemory

/-! ## Accesses -/

@[simp] theorem read_value (address : UInt16) (m : Machine FlatMemory) :
    (read address m).1 = m.bus.peek address := rfl

@[simp] theorem read_peek (address byte : UInt16) (m : Machine FlatMemory) :
    (read address m).2.bus.peek byte = m.bus.peek byte := rfl

@[simp] theorem write_peek (address byte : UInt16) (value : UInt8) (m : Machine FlatMemory) :
    (write address value m).2.bus.peek byte =
      if address = byte then value else m.bus.peek byte := by
  have cell : (write address value m).2.bus.peek byte = (m.bus.poke address value).peek byte := rfl
  rw [cell]
  split
  next same => rw [← same, peek_poke]
  next other => exact m.bus.peek_poke_of_ne value other

@[simp] theorem fetch_value (m : Machine FlatMemory) :
    (fetch m).1 = m.bus.peek m.cpu.registers.pc := rfl

@[simp] theorem fetch_peek (byte : UInt16) (m : Machine FlatMemory) :
    (fetch m).2.bus.peek byte = m.bus.peek byte := rfl

@[simp] theorem push_registers (value : UInt8) (m : Machine FlatMemory) :
    (push value m).2.cpu.registers = { m.cpu.registers with sp := m.cpu.registers.sp - 1 } := rfl

@[simp] theorem push_peek (value : UInt8) (byte : UInt16) (m : Machine FlatMemory) :
    (push value m).2.bus.peek byte =
      if word 1 m.cpu.registers.sp = byte then value else m.bus.peek byte :=
  write_peek _ _ _ _

@[simp] theorem pull_value (m : Machine FlatMemory) :
    (pull m).1 = m.bus.peek (word 1 (m.cpu.registers.sp + 1)) := rfl

@[simp] theorem pull_registers (m : Machine FlatMemory) :
    (pull m).2.cpu.registers = { m.cpu.registers with sp := m.cpu.registers.sp + 1 } := rfl

/-! ## Operands -/

def wordAt (memory : FlatMemory) (low high : UInt16) : UInt16 :=
  word (memory.peek high) (memory.peek low)

/-- Where the operand of the instruction at the program counter stands. -/
def operandAddress (memory : FlatMemory) (r : Registers) : Mode → UInt16
  | .immediate => r.pc + 1
  | .zeroPage => word 0 (memory.peek (r.pc + 1))
  | .zeroPageX => word 0 (memory.peek (r.pc + 1) + r.x)
  | .zeroPageY => word 0 (memory.peek (r.pc + 1) + r.y)
  | .absolute => memory.wordAt (r.pc + 1) (r.pc + 2)
  | .absoluteX => memory.wordAt (r.pc + 1) (r.pc + 2) + r.x.toUInt16
  | .absoluteY => memory.wordAt (r.pc + 1) (r.pc + 2) + r.y.toUInt16
  | .indirectX =>
    let pointer := memory.peek (r.pc + 1) + r.x
    memory.wordAt (word 0 pointer) (word 0 (pointer + 1))
  | .indirectY =>
    let pointer := memory.peek (r.pc + 1)
    memory.wordAt (word 0 pointer) (word 0 (pointer + 1)) + r.y.toUInt16

/-- The bytes that tell where the operand stands: those of the instruction, and those of its pointer. -/
def footprint (memory : FlatMemory) (r : Registers) : Mode → List UInt16
  | .immediate | .zeroPage | .zeroPageX | .zeroPageY => [r.pc, r.pc + 1]
  | .absolute | .absoluteX | .absoluteY => [r.pc, r.pc + 1, r.pc + 2]
  | .indirectX =>
    let pointer := memory.peek (r.pc + 1) + r.x
    [r.pc, r.pc + 1, word 0 pointer, word 0 (pointer + 1)]
  | .indirectY =>
    let pointer := memory.peek (r.pc + 1)
    [r.pc, r.pc + 1, word 0 pointer, word 0 (pointer + 1)]

/-- The opcode is among these bytes. -/
theorem pc_mem_footprint (memory : FlatMemory) (r : Registers) (mode : Mode) :
    r.pc ∈ memory.footprint r mode := by
  cases mode <;> exact List.mem_cons_self

/-- The bytes of an instruction and of its pointer, and the index registers, are all that counts. -/
theorem operandAddress_congr {memory other : FlatMemory} {r s : Registers} {mode : Mode}
    (same : ∀ byte ∈ memory.footprint r mode, other.peek byte = memory.peek byte)
    (pc : s.pc = r.pc) (x : s.x = r.x) (y : s.y = r.y) :
    other.operandAddress s mode = memory.operandAddress r mode := by
  cases mode <;> simp only [footprint, List.forall_mem_cons] at same <;>
    simp only [operandAddress, wordAt, pc, x, y, same]

theorem resolve_address (mode : Mode) (purpose : Purpose) (m : Machine FlatMemory) :
    (resolve mode purpose (fetch m).2).1.address = m.bus.operandAddress m.cpu.registers mode := by
  have two : m.cpu.registers.pc + 1 + 1 = m.cpu.registers.pc + 2 := UInt16.add_assoc _ 1 1
  cases mode with
  | immediate | zeroPage | zeroPageX | zeroPageY => rfl
  | absolute =>
    show word (m.bus.peek (m.cpu.registers.pc + 1 + 1)) _ = _
    rw [two]
    rfl
  | absoluteX =>
    rw [resolve_absoluteX, index_fst]
    show word (m.bus.peek (m.cpu.registers.pc + 1 + 1)) _ + _ = _
    rw [two]
    rfl
  | absoluteY =>
    rw [resolve_absoluteY, index_fst]
    show word (m.bus.peek (m.cpu.registers.pc + 1 + 1)) _ + _ = _
    rw [two]
    rfl
  | indirectX => rfl
  | indirectY =>
    rw [resolve_indirectY, index_fst]
    rfl

theorem index_peek (base : UInt16) (offset : UInt8) (purpose : Purpose) (m : Machine FlatMemory)
    (byte : UInt16) : (index base offset purpose m).2.bus.peek byte = m.bus.peek byte := by
  unfold index
  dsimp only
  split <;> rfl

/-- Finding an operand changes no byte. -/
theorem resolve_peek (mode : Mode) (purpose : Purpose) (m : Machine FlatMemory) (byte : UInt16) :
    (resolve mode purpose m).2.bus.peek byte = m.bus.peek byte := by
  cases mode with
  | absoluteX =>
    rw [resolve_absoluteX, index_peek]
    rfl
  | absoluteY =>
    rw [resolve_absoluteY, index_peek]
    rfl
  | indirectY =>
    rw [resolve_indirectY, index_peek]
    rfl
  | _ => rfl

/-! ## Instructions -/

/-- The registers when the operand has been found. -/
def foundBy (r : Registers) (mode : Mode) : Registers :=
  { r with pc := r.pc + 1 + UInt16.ofNat mode.operandLength }

theorem resolve_fetch_registers (mode : Mode) (purpose : Purpose) (m : Machine FlatMemory) :
    (resolve mode purpose (fetch m).2).2.cpu.registers = foundBy m.cpu.registers mode := by
  rw [resolve_registers, fetch_registers]
  rfl

variable {m : Machine FlatMemory} {mode : Mode} {target : UInt16}

/-- A reading instruction works on the registers with the byte at its operand. -/
theorem step_read {op : ReadOp} (executes : Executes m (.read op mode))
    (place : m.bus.operandAddress m.cpu.registers mode = target) :
    (step m).2.cpu.registers = op.apply (m.bus.peek target) (foundBy m.cpu.registers mode) ∧
      ∀ byte, (step m).2.bus.peek byte = m.bus.peek byte := by
  have found := resolve_fetch_registers mode .reading m
  have address := resolve_address mode .reading m
  have same := resolve_peek mode .reading (fetch m).2
  rw [step_of_executes executes]
  constructor
  · have applied : (execute (.read op mode) (fetch m).2).2.cpu.registers = op.apply
        ((resolve mode .reading (fetch m).2).2.bus.peek (resolve mode .reading (fetch m).2).1.address)
        (resolve mode .reading (fetch m).2).2.cpu.registers := rfl
    rw [applied, found, address, same, place]
    rfl
  · exact same

/-- A storing instruction leaves a register at its operand. -/
theorem step_store {op : StoreOp} (executes : Executes m (.store op mode))
    (place : m.bus.operandAddress m.cpu.registers mode = target) :
    (step m).2.cpu.registers = foundBy m.cpu.registers mode ∧
      ∀ byte, (step m).2.bus.peek byte =
        if target = byte then op.value m.cpu.registers else m.bus.peek byte := by
  have found := resolve_fetch_registers mode .writing m
  rw [step_of_executes executes]
  refine ⟨found, fun byte => ?_⟩
  have wrote : (execute (.store op mode) (fetch m).2).2 = (write
      (resolve mode .writing (fetch m).2).1.address
      (op.value (resolve mode .writing (fetch m).2).2.cpu.registers)
      (resolve mode .writing (fetch m).2).2).2 := rfl
  rw [wrote, write_peek, found, resolve_address, place, resolve_peek, fetch_peek]
  cases op <;> rfl

/-- A modifying instruction leaves its new byte where it has found the old one. -/
theorem step_modify {op : ModifyOp} (executes : Executes m (.modify op mode))
    (place : m.bus.operandAddress m.cpu.registers mode = target) :
    let result := op.apply (m.bus.peek target) (foundBy m.cpu.registers mode)
    (step m).2.cpu.registers = result.2 ∧
      ∀ byte, (step m).2.bus.peek byte = if target = byte then result.1 else m.bus.peek byte := by
  intro result
  let found := resolve mode .writing (fetch m).2
  have registers : found.2.cpu.registers = foundBy m.cpu.registers mode :=
    resolve_fetch_registers mode .writing m
  have address : found.1.address = target := (resolve_address mode .writing m).trans place
  have same : ∀ byte, found.2.bus.peek byte = m.bus.peek byte :=
    resolve_peek mode .writing (fetch m).2
  have value : (read found.1.address found.2).1 = m.bus.peek target := by
    rw [read_value, address, same]
  have applied : op.apply (read found.1.address found.2).1 found.2.cpu.registers = result := by
    rw [value, registers]
  rw [step_of_executes executes]
  constructor
  · have changed : (execute (.modify op mode) (fetch m).2).2.cpu.registers =
        (op.apply (read found.1.address found.2).1 found.2.cpu.registers).2 := rfl
    rw [changed, applied]
  · intro byte
    -- The old byte is written back before the new one, to the same place.
    have wrote : (execute (.modify op mode) (fetch m).2).2.bus.peek byte = (write found.1.address
        (op.apply (read found.1.address found.2).1 found.2.cpu.registers).1
        (write found.1.address (read found.1.address found.2).1
          (read found.1.address found.2).2).2).2.bus.peek byte := rfl
    rw [wrote, applied, address, write_peek, write_peek, read_peek, same]
    split <;> rfl

theorem step_accumulator {op : ModifyOp} (executes : Executes m (.accumulator op)) :
    let r := { m.cpu.registers with pc := m.cpu.registers.pc + 1 }
    (step m).2.cpu.registers = { (op.apply r.a r).2 with a := (op.apply r.a r).1 } ∧
      ∀ byte, (step m).2.bus.peek byte = m.bus.peek byte := by
  rw [step_of_executes executes]
  exact ⟨rfl, fun _ => rfl⟩

end FlatMemory

/-! ## Silence -/

namespace Machine

/-- No line is asserted, by the bus or from outside. -/
def Silent (m : Machine FlatMemory) : Prop := m.bus.lines.union m.cpu.requested = .none

/-- No line is asserted, and what the interrupt logic has still seen of them is forgotten within a number
of cycles. No edge is latched. -/
structure CalmIn (d : Nat) (m : Machine FlatMemory) : Prop where
  silent : m.Silent
  unlatched : m.cpu.nmiLatched = false
  line : d ≤ 1 → m.cpu.nmiLine = false
  sampled : d ≤ 1 → m.cpu.irqSampled = false
  polled : d = 0 → m.cpu.nmiPolled = false ∧ m.cpu.irqPolled = false

/-- What time alone does not change of a processor, while no interrupt comes. -/
def standing (m : Machine FlatMemory) : Bool × Bool × Lines × Edges :=
  (m.cpu.strict, m.cpu.jammed, m.cpu.requested, m.cpu.edges)

/-- Two cycles forget whatever was seen. -/
theorem calmIn_two {m : Machine FlatMemory} (silent : m.Silent) (unlatched : m.cpu.nmiLatched = false) :
    m.CalmIn 2 where
  silent := silent
  unlatched := unlatched
  line late := by omega
  sampled late := by omega
  polled late := by omega

theorem CalmIn.weaken {m : Machine FlatMemory} (calm : m.CalmIn 0) (d : Nat) : m.CalmIn d where
  silent := calm.silent
  unlatched := calm.unlatched
  line _ := calm.line (by decide)
  sampled _ := calm.sampled (by decide)
  polled _ := calm.polled rfl

/-- What the end of a cycle sees in silence. -/
theorem Silent.endCycle {m : Machine FlatMemory} (silent : m.Silent) {bus : FlatMemory}
    (lines : bus.lines = m.bus.lines) : m.cpu.endCycle bus.lines = { m.cpu with
      cycles := m.cpu.cycles + 1
      nmiPolled := m.cpu.nmiLatched
      nmiLine := false
      irqPolled := m.cpu.irqSampled
      irqSampled := false
      samples := m.cpu.samples.push ⟨false, m.cpu.registers.p.interruptDisable⟩ } := by
  have none : bus.lines.union m.cpu.requested = .none := by
    rw [lines]
    exact silent
  simp [Processor.endCycle, none, Lines.none, Lines.irq, Edges.arrive]

/-- Accesses keep the silence, and what no interrupt comes to change. -/
theorem silent_walked : Walked fun _ (m n : Machine FlatMemory) => m.Silent →
    n.Silent ∧ n.cpu.nmiLatched = m.cpu.nmiLatched ∧ n.standing = m.standing where
  refl _ silent := ⟨silent, rfl, rfl⟩
  trans first second silent := by
    obtain ⟨silent, latched, stands⟩ := first silent
    obtain ⟨silent, stays, settles⟩ := second silent
    exact ⟨silent, stays.trans latched, settles.trans stands⟩
  read m address silent := by
    have cycle : (read address m).2 = ⟨m.cpu.endCycle m.bus.lines, _⟩ := rfl
    rw [cycle, silent.endCycle rfl]
    exact ⟨silent, rfl, rfl⟩
  push m value silent := by
    have cycle : (write (stackTop m.cpu.registers) value m).2 =
      ⟨m.cpu.endCycle m.bus.lines, _⟩ := rfl
    rw [cycle, silent.endCycle rfl]
    exact ⟨silent, rfl, rfl⟩
  movesPc _ _ silent := ⟨silent, rfl, rfl⟩
  movesSp _ _ silent := ⟨silent, rfl, rfl⟩

/-- The end of a cycle in silence. -/
theorem CalmIn.cycle {d : Nat} {m : Machine FlatMemory} (calm : m.CalmIn d) {bus : FlatMemory}
    (lines : bus.lines = m.bus.lines) : CalmIn (d - 1) ⟨m.cpu.endCycle bus.lines, bus⟩ ∧
      standing ⟨m.cpu.endCycle bus.lines, bus⟩ = m.standing := by
  rw [calm.silent.endCycle lines]
  have silent : bus.lines.union m.cpu.requested = .none := by
    rw [lines]
    exact calm.silent
  exact ⟨⟨silent, calm.unlatched, fun _ => rfl, fun _ => rfl,
    fun soon => ⟨calm.unlatched, calm.sampled (by omega)⟩⟩, rfl⟩

/-- As many cycles nearer to calm as accesses are made. -/
theorem calm_metered : MeteredEntries fun k (m n : Machine FlatMemory) =>
    ∀ d, m.CalmIn d → n.CalmIn (d - k) ∧ n.standing = m.standing where
  refl m d calm := ⟨calm, rfl⟩
  trans first second d calm := by
    obtain ⟨calm, stands⟩ := first d calm
    obtain ⟨calm, stays⟩ := second _ calm
    exact ⟨by rwa [← Nat.sub_sub], stays.trans stands⟩
  read m address d calm := calm.cycle rfl
  push m value d calm := calm.cycle rfl
  registers m f d calm := ⟨⟨calm.silent, calm.unlatched, calm.line, calm.sampled, calm.polled⟩, rfl⟩
  vector m value d calm := by
    have chosen : (takeVector m).2 = m := by
      simp only [takeVector, modifyGet, MonadStateOf.modifyGet, StateT.modifyGet, Pure.pure]
      rw [if_neg (by simp [calm.unlatched])]
    rw [chosen]
    exact calm.cycle rfl
  settle m d calm :=
    ⟨⟨calm.silent, calm.unlatched, calm.line, calm.sampled, fun now => ⟨rfl, (calm.polled now).2⟩⟩, rfl⟩

end Machine

namespace Exec

variable {m : Machine FlatMemory} {i : Instruction}

/-- An instruction lasts long enough for the interrupt logic to calm down. -/
theorem step_calm (executes : Executes m i) (going : i ≠ .jam) (calm : m.CalmIn 2) :
    (step m).2.CalmIn 0 ∧ (step m).2.standing = m.standing := by
  have closing := Machine.calm_metered.closing fun _ _ _ d (calm : Machine.CalmIn d _) => calm.cycle rfl
  have walked := Machine.calm_metered.step_at closing m
    (fun _ n d calm => ⟨⟨calm.silent, calm.unlatched, calm.line,
      fun soon => by simp [takenBack, calm.sampled soon], calm.polled⟩, rfl⟩)
    (fun stops => absurd (executes.decoded.symm.trans stops.decoded) going) 2 calm
  have long : 2 ≤ stepAccesses m := by
    have some := Instruction.one_le_accesses going
    rw [stepAccesses, if_neg executes.running, if_neg executes.quiet, instructionAccesses,
      if_neg executes.accepted, executes.decoded]
    omega
  rwa [Nat.sub_eq_zero_of_le long] at walked

/-- A processor that executes an opcode outside the documented set is not strict. -/
theorem Executes.lenient {β : Type} [ProcessorBus β] {m : Machine β} {i : Instruction}
    (executes : Executes m i)
    (unofficial : ∀ {opcode}, Instruction.decode opcode = i → Instruction.isOfficial opcode = false) :
    m.cpu.strict = false := by
  have accepted := executes.accepted
  rw [Refuses, fetch_strict, unofficial executes.decoded] at accepted
  simpa using accepted

/-- A calm processor executes what is in front of it. -/
theorem executes_of_calm (running : m.cpu.jammed = false) (calm : m.CalmIn 0)
    (accepted : m.cpu.strict = true → Instruction.isOfficial (m.bus.peek m.cpu.registers.pc))
    (decoded : Instruction.decode (m.bus.peek m.cpu.registers.pc) = i) : Executes m i where
  running := by simp [running]
  quiet := by simp [calm.polled rfl]
  accepted := fun ⟨strict, unofficial⟩ => by
    rw [fetch_strict] at strict
    exact unofficial (accepted strict)
  decoded := decoded

/-- A lenient one executes whatever that is. -/
theorem executes_of_lenient (running : m.cpu.jammed = false) (lenient : m.cpu.strict = false)
    (calm : m.CalmIn 0) {opcode : UInt8} (there : m.bus.peek m.cpu.registers.pc = opcode)
    (decoded : Instruction.decode opcode = i) : Executes m i :=
  executes_of_calm running calm (fun strict => absurd (strict.symm.trans lenient) Bool.noConfusion)
    ((congrArg Instruction.decode there).trans decoded)

/-- Behind an instruction the next one is executed. -/
theorem executes_behind {j : Instruction} (executes : Executes m i) (going : i ≠ .jam) (calm : m.CalmIn 2)
    (accepted : m.cpu.strict = true →
      Instruction.isOfficial ((step m).2.bus.peek (step m).2.cpu.registers.pc))
    (decoded : Instruction.decode ((step m).2.bus.peek (step m).2.cpu.registers.pc) = j) :
    Executes (step m).2 j := by
  obtain ⟨calm, stands⟩ := step_calm executes going calm
  have settings : _ = (m.cpu.strict, m.cpu.jammed, m.cpu.requested, m.cpu.edges) := stands
  simp only [Machine.standing, Prod.mk.injEq] at settings
  refine executes_of_calm ?_ calm ?_ decoded
  · rw [settings.2.1]
    exact Bool.eq_false_iff.mpr executes.running
  · rw [settings.1]
    exact accepted

end Exec

end Famiclone
