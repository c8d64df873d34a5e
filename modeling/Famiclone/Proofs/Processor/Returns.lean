import Famiclone.Proofs.Processor.Memory
import Famiclone.Proofs.Processor.StackFlags

/-!
# Returns

What an instruction or an interrupt pushes, its counterpart pulls in the opposite order. Here each of them
is followed by its counterpart on memory alone: an entry into a handler by the return from it, a call by
its return, and a pushed register by its pull. As long as the pushed bytes fall neither on what is executed
nor on the vector, the registers come back as they were.
-/
namespace Famiclone

open Exec

/-- The bytes of a page are told apart by the low bytes of their addresses. -/
theorem word_inj {page a b : UInt8} : word page a = word page b ↔ a = b :=
  ⟨fun same => by simpa using congrArg lowByte same, fun same => same ▸ rfl⟩

namespace FlatMemory

/-! ## Pushed words -/

/-- A word lies on the stack as a push from the given stack pointer leaves it. -/
structure HoldsWord (memory : FlatMemory) (sp : UInt8) (value : UInt16) : Prop where
  high : memory.peek (word 1 sp) = highByte value
  low : memory.peek (word 1 (sp - 1)) = lowByte value

/-- Pulling takes the word up again. -/
theorem HoldsWord.wordAt {memory : FlatMemory} {sp : UInt8} {value : UInt16}
    (holds : memory.HoldsWord sp value) :
    memory.wordAt (word 1 (sp - 1)) (word 1 sp) = value := by
  rw [FlatMemory.wordAt, holds.high, holds.low, word_highByte_lowByte]

/-- The bytes that a pushed word takes. -/
def wordBytes (sp : UInt8) : List UInt16 := [word 1 sp, word 1 (sp - 1)]

/-- A push from further down leaves the word. -/
theorem push_holdsWord {m : Machine FlatMemory} {sp : UInt8} {value : UInt16}
    (holds : m.bus.HoldsWord sp value) (below : m.cpu.registers.sp = sp - 1 - 1) (byte : UInt8) :
    (push byte m).2.bus.HoldsWord sp value := by
  have high : ¬ word 1 (sp - 1 - 1) = word 1 sp := by rw [word_inj]; grind
  have low : ¬ word 1 (sp - 1 - 1) = word 1 (sp - 1) := by rw [word_inj]; grind
  constructor
  · rw [push_peek, below, if_neg high, holds.high]
  · rw [push_peek, below, if_neg low, holds.low]

theorem pushWord_registers (value : UInt16) (m : Machine FlatMemory) :
    (pushWord value m).2.cpu.registers =
      { m.cpu.registers with sp := m.cpu.registers.sp - 1 - 1 } := rfl

theorem pushWord_holds (value : UInt16) (m : Machine FlatMemory) :
    (pushWord value m).2.bus.HoldsWord m.cpu.registers.sp value := by
  have both : pushWord value m = push (lowByte value) (push (highByte value) m).2 := rfl
  have apart : ¬ word 1 (m.cpu.registers.sp - 1) = word 1 m.cpu.registers.sp := by
    rw [word_inj]
    grind
  constructor
  · rw [both, push_peek, push_registers, if_neg apart, push_peek, if_pos rfl]
  · rw [both, push_peek, push_registers, if_pos rfl]

theorem pushWord_peek (value : UInt16) (m : Machine FlatMemory) {byte : UInt16}
    (other : byte ∉ wordBytes m.cpu.registers.sp) :
    (pushWord value m).2.bus.peek byte = m.bus.peek byte := by
  have both : pushWord value m = push (lowByte value) (push (highByte value) m).2 := rfl
  simp only [wordBytes, List.mem_cons, List.not_mem_nil, or_false, not_or] at other
  rw [both, push_peek, push_registers, if_neg (Ne.symm other.2), push_peek, if_neg (Ne.symm other.1)]

/-! ## Instructions on the stack -/

variable {m : Machine FlatMemory}

/-- A call pushes the address of its own last byte. -/
theorem step_jsr (executes : Executes m .jsr) :
    let r := m.cpu.registers
    ((step m).2.bus.HoldsWord r.sp (r.pc + 1 + 1) ∧
      ∀ byte ∉ wordBytes r.sp, (step m).2.bus.peek byte = m.bus.peek byte) ∧
    (step m).2.cpu.registers = { r with
      sp := r.sp - 1 - 1
      pc := word ((step m).2.bus.peek (r.pc + 1 + 1)) (m.bus.peek (r.pc + 1)) } := by
  let front := (readAtStack (fetch (fetch m).2).2).2
  let pushed := (pushWord front.cpu.registers.pc front).2
  have registers : front.cpu.registers =
      { m.cpu.registers with pc := m.cpu.registers.pc + 1 + 1 } := by
    rw [readAtStack_registers, fetch_registers, fetch_registers]
  have jumps : (execute .jsr (fetch m).2).2.cpu.registers = { (readAtPc pushed).2.cpu.registers with
    pc := word (readAtPc pushed).1 (fetch (fetch m).2).1 } := rfl
  have bus : (execute .jsr (fetch m).2).2.bus = (readAtPc pushed).2.bus := rfl
  have memory : ∀ byte, (execute .jsr (fetch m).2).2.bus.peek byte = pushed.bus.peek byte := by
    intro byte
    rw [bus]
    rfl
  have low : (fetch (fetch m).2).1 = m.bus.peek (m.cpu.registers.pc + 1) := by
    rw [fetch_value, fetch_registers, fetch_peek]
  have high : (readAtPc pushed).1 = pushed.bus.peek (m.cpu.registers.pc + 1 + 1) := by
    show pushed.bus.peek pushed.cpu.registers.pc = _
    rw [pushWord_registers, registers]
  have holds := pushWord_holds front.cpu.registers.pc front
  have others : ∀ byte ∉ wordBytes front.cpu.registers.sp, pushed.bus.peek byte = m.bus.peek byte :=
    fun _ other => pushWord_peek _ front other
  rw [registers] at holds others
  rw [step_of_executes executes]
  refine ⟨⟨⟨?_, ?_⟩, fun byte other => ?_⟩, ?_⟩
  · exact (memory _).trans holds.high
  · exact (memory _).trans holds.low
  · exact (memory byte).trans (others byte other)
  · rw [memory, jumps, readAtPc_registers, pushWord_registers, registers, low, high]

/-- What a return finds on the stack. -/
theorem pulled_word (front : Machine FlatMemory) : pullWord front =
    (front.bus.wordAt (word 1 (front.cpu.registers.sp + 1)) (word 1 (front.cpu.registers.sp + 1 + 1)),
      (pull (pull front).2).2) := rfl

/-- A return goes on behind the address that it pulls. -/
theorem step_rts (executes : Executes m .rts) :
    let r := m.cpu.registers
    (step m).2.cpu.registers = { r with
      sp := r.sp + 1 + 1
      pc := m.bus.wordAt (word 1 (r.sp + 1)) (word 1 (r.sp + 1 + 1)) + 1 } := by
  let front := (readAtStack (readAtPc (fetch m).2).2).2
  let back := { (pullWord front).2 with
    cpu := (pullWord front).2.cpu.mapRegisters fun r => { r with pc := (pullWord front).1 } }
  have registers : front.cpu.registers = { m.cpu.registers with pc := m.cpu.registers.pc + 1 } := by
    rw [readAtStack_registers, readAtPc_registers, fetch_registers]
  have memory : ∀ low high, front.bus.wordAt low high = m.bus.wordAt low high := fun _ _ => rfl
  have whole : (execute .rts (fetch m).2).2.cpu.registers = { (readAtPc back).2.cpu.registers with
    pc := (readAtPc back).2.cpu.registers.pc + 1 } := rfl
  have found : back.cpu.registers =
    { (pullWord front).2.cpu.registers with pc := (pullWord front).1 } := rfl
  rw [step_of_executes executes, whole, readAtPc_registers, found, pulled_word, pull_registers,
    pull_registers, registers, memory]

/-- A return from a handler pulls the status first. -/
theorem step_rti (executes : Executes m .rti) :
    let r := m.cpu.registers
    (step m).2.cpu.registers = { r with
      p := .pulled (m.bus.peek (word 1 (r.sp + 1)))
      sp := r.sp + 1 + 1 + 1
      pc := m.bus.wordAt (word 1 (r.sp + 1 + 1)) (word 1 (r.sp + 1 + 1 + 1)) } := by
  let front := (readAtStack (readAtPc (fetch m).2).2).2
  let back := { (pull front).2 with
    cpu := (pull front).2.cpu.mapRegisters fun r => r.setStatus (pull front).1 }
  have registers : front.cpu.registers = { m.cpu.registers with pc := m.cpu.registers.pc + 1 } := by
    rw [readAtStack_registers, readAtPc_registers, fetch_registers]
  have memory : ∀ byte, front.bus.peek byte = m.bus.peek byte := fun _ => rfl
  have words : ∀ low high, back.bus.wordAt low high = m.bus.wordAt low high := fun _ _ => rfl
  have whole : (execute .rti (fetch m).2).2.cpu.registers =
    { (pullWord back).2.cpu.registers with pc := (pullWord back).1 } := rfl
  have found : back.cpu.registers = (pull front).2.cpu.registers.setStatus (pull front).1 := rfl
  rw [step_of_executes executes, whole, pulled_word, pull_registers, pull_registers, words, found,
    pull_registers, pull_value, registers, memory]
  rfl

theorem step_php (executes : Executes m .php) :
    let r := m.cpu.registers
    (step m).2.cpu.registers = { r with sp := r.sp - 1, pc := r.pc + 1 } ∧
      ∀ byte, (step m).2.bus.peek byte =
        if word 1 r.sp = byte then r.p.pushedByInstruction.toByte else m.bus.peek byte := by
  rw [step_of_executes executes]
  exact ⟨rfl, fun byte => push_peek m.cpu.registers.p.pushedByInstruction.toByte byte
    (readAtPc (fetch m).2).2⟩

theorem step_pha (executes : Executes m .pha) :
    let r := m.cpu.registers
    (step m).2.cpu.registers = { r with sp := r.sp - 1, pc := r.pc + 1 } ∧
      ∀ byte, (step m).2.bus.peek byte = if word 1 r.sp = byte then r.a else m.bus.peek byte := by
  rw [step_of_executes executes]
  exact ⟨rfl, fun byte => push_peek m.cpu.registers.a byte (readAtPc (fetch m).2).2⟩

theorem step_plp (executes : Executes m .plp) :
    let r := m.cpu.registers
    (step m).2.cpu.registers = { r with
      p := .pulled (m.bus.peek (word 1 (r.sp + 1)))
      sp := r.sp + 1
      pc := r.pc + 1 } := by
  rw [step_of_executes executes]
  rfl

theorem step_pla (executes : Executes m .pla) :
    let r := m.cpu.registers
    (step m).2.cpu.registers =
      { r with sp := r.sp + 1, pc := r.pc + 1 }.setA (m.bus.peek (word 1 (r.sp + 1))) := by
  rw [step_of_executes executes]
  rfl

end FlatMemory

/-! ## Entries into handlers -/

namespace Machine

/-- The vector through which the next entry into a handler goes. -/
def vector (m : Machine FlatMemory) : UInt16 := if m.cpu.nmiLatched then nmiVector else irqVector

/-- Where the handler begins that this vector names. -/
def handler (m : Machine FlatMemory) : UInt16 := m.bus.wordAt m.vector (m.vector + 1)

/-- The bytes of the stack that an entry into a handler writes. -/
def entryBytes (sp : UInt8) : List UInt16 := [word 1 sp, word 1 (sp - 1), word 1 (sp - 1 - 1)]

/-- A handler has been entered from a machine with the registers that it is to return to. -/
structure Entered (pushed : Status → Status) (m : Machine FlatMemory) (r : Registers)
    (n : Machine FlatMemory) : Prop where
  registers : n.cpu.registers = { r.disableInterrupts with
    sp := r.sp - 1 - 1 - 1
    pc := n.bus.wordAt m.vector (m.vector + 1) }
  address : n.bus.HoldsWord r.sp r.pc
  status : n.bus.peek (word 1 (r.sp - 1 - 1)) = (pushed r.p).toByte
  others : ∀ byte ∉ entryBytes r.sp, n.bus.peek byte = m.bus.peek byte
  calm : n.CalmIn 0
  jammed : n.cpu.jammed = m.cpu.jammed

variable {pushed : Status → Status} {m n : Machine FlatMemory} {r : Registers}

/-- What is read before the entry is no part of it. -/
theorem Entered.behind {front : Machine FlatMemory} (entered : Entered pushed front r n)
    (latched : front.cpu.nmiLatched = m.cpu.nmiLatched)
    (bytes : ∀ byte, front.bus.peek byte = m.bus.peek byte)
    (jammed : front.cpu.jammed = m.cpu.jammed) : Entered pushed m r n := by
  have vector : front.vector = m.vector := by rw [Machine.vector, latched, Machine.vector]
  refine ⟨?_, entered.address, entered.status, fun byte other => ?_, entered.calm,
    entered.jammed.trans jammed⟩
  · rw [← vector]
    exact entered.registers
  · rw [entered.others byte other, bytes]

/-- The end of a software interrupt takes a sample back that saw nothing. -/
theorem Entered.settle (entered : Entered pushed m r n) :
    Entered pushed m r { n with cpu := { n.cpu with nmiPolled := false } } where
  registers := entered.registers
  address := entered.address
  status := entered.status
  others := entered.others
  calm := ⟨entered.calm.silent, entered.calm.unlatched, entered.calm.line, entered.calm.sampled,
    fun _ => ⟨rfl, (entered.calm.polled rfl).2⟩⟩
  jammed := entered.jammed

end Machine

namespace Exec

open Machine

variable {pushed : Status → Status} {m : Machine FlatMemory}

theorem takeVector_fst (m : Machine FlatMemory) : (takeVector m).1 = m.vector := by
  simp only [takeVector, modifyGet, MonadStateOf.modifyGet, StateT.modifyGet, Pure.pure, vector]
  split <;> rfl

theorem enterThrough_leaves (pushed : Status → Status) (vector : UInt16) {k : Machine FlatMemory}
    (calm : k.CalmIn 2) :
    let n := (enterThrough pushed vector k).2
    n.cpu.registers = { k.cpu.registers.disableInterrupts with
      sp := k.cpu.registers.sp - 1
      pc := n.bus.wordAt vector (vector + 1) } ∧
    (∀ byte, n.bus.peek byte = (push (pushed k.cpu.registers.p).toByte k).2.bus.peek byte) ∧
    n.CalmIn 0 ∧ n.cpu.jammed = k.cpu.jammed := by
  obtain ⟨rests, stands⟩ := enterThrough_makes calm_metered.toMetered pushed vector k 2 calm
  exact ⟨rfl, fun _ => rfl, rests, congrArg (fun s => s.2.1) stands⟩

/-- An edge that was latched chooses the vector and is gone; the accesses behind that forget it. -/
theorem enterHandler_entered (pushed : Status → Status) (silent : m.Silent) :
    Entered pushed m m.cpu.registers (enterHandler pushed m).2 := by
  let front := (pushWord m.cpu.registers.pc m).2
  let chose := (takeVector front).2
  have whole : (enterHandler pushed m).2 = (enterThrough pushed (takeVector front).1 chose).2 := rfl
  obtain ⟨stays, latched, stands⟩ := silent_walked.pushWord m.cpu.registers.pc m silent
  have through : (takeVector front).1 = m.vector := by
    rw [takeVector_fst, vector, latched, vector]
  have chosen : chose = { front with
      cpu := { front.cpu with nmiLatched := false, edges := chose.cpu.edges } } := takeVector_snd front
  have calm : chose.CalmIn 2 := by
    rw [chosen]
    exact calmIn_two stays rfl
  have registers : chose.cpu.registers = { m.cpu.registers with sp := m.cpu.registers.sp - 1 - 1 } :=
    takeVector_registers front
  have memory : chose.bus = front.bus := takeVector_bus front
  have holds : chose.bus.HoldsWord m.cpu.registers.sp m.cpu.registers.pc := by
    rw [memory]
    exact FlatMemory.pushWord_holds _ m
  have below := FlatMemory.push_holdsWord holds (congrArg Registers.sp registers)
    (pushed m.cpu.registers.p).toByte
  obtain ⟨ends, bytes, rests, jammed⟩ := enterThrough_leaves pushed m.vector calm
  rw [registers] at ends bytes
  rw [whole, through]
  refine ⟨ends, ⟨?_, ?_⟩, ?_, fun byte other => ?_, rests, ?_⟩
  · exact (bytes _).trans below.high
  · exact (bytes _).trans below.low
  · rw [bytes, FlatMemory.push_peek, registers, if_pos rfl]
  · simp only [entryBytes, List.mem_cons, List.not_mem_nil, or_false, not_or] at other
    rw [bytes, FlatMemory.push_peek, registers, if_neg (Ne.symm other.2.2), memory]
    refine FlatMemory.pushWord_peek _ m ?_
    simp [FlatMemory.wordBytes, other.1, other.2.1]
  · have unstopped : chose.cpu.jammed = front.cpu.jammed := by rw [chosen]
    rw [jammed, unstopped]
    exact congrArg (fun s => s.2.1) stands

/-- An interrupt reads twice in front of its entry. -/
theorem interrupt_entered (silent : m.Silent) :
    Entered Status.pushedByInterrupt m m.cpu.registers (interrupt m).2 := by
  let front := (readAtPc (readAtPc m).2).2
  have whole : (interrupt m).2 = (enterHandler Status.pushedByInterrupt front).2 := rfl
  have registers : front.cpu.registers = m.cpu.registers := by
    rw [readAtPc_registers, readAtPc_registers]
  have bytes : ∀ byte, front.bus.peek byte = m.bus.peek byte := fun _ => rfl
  have reads := silent_walked.bind silent_walked.readAtPc fun _ => silent_walked.readAtPc
  obtain ⟨stays, latched, stands⟩ := reads m silent
  have entered := enterHandler_entered Status.pushedByInterrupt (m := front) stays
  rw [whole, ← registers]
  exact entered.behind latched bytes (congrArg (fun s => s.2.1) stands)

/-- A software interrupt is to return behind the byte that follows it. -/
theorem brk_entered (silent : m.Silent) (executes : Executes m .brk) :
    Entered Status.pushedByInstruction m
      { m.cpu.registers with pc := m.cpu.registers.pc + 1 + 1 } (step m).2 := by
  let front := (fetch (fetch m).2).2
  have registers : front.cpu.registers =
      { m.cpu.registers with pc := m.cpu.registers.pc + 1 + 1 } := by
    rw [fetch_registers, fetch_registers]
  have bytes : ∀ byte, front.bus.peek byte = m.bus.peek byte := fun _ => rfl
  have reads := silent_walked.bind silent_walked.fetch fun _ => silent_walked.fetch
  obtain ⟨stays, latched, stands⟩ := reads m silent
  have entered := enterHandler_entered Status.pushedByInstruction (m := front) stays
  rw [step_of_executes executes, ← registers]
  exact (entered.behind latched bytes (congrArg (fun s => s.2.1) stands)).settle

end Exec

/-! ## What comes back -/

namespace Machine

/-- The handler that would be entered is a return and nothing else, and what the entry pushes falls neither
on it nor on its vector. -/
structure ReturnsAtOnce (m : Machine FlatMemory) : Prop where
  returns : Instruction.decode (m.bus.peek m.handler) = .rti
  apart : ∀ byte ∈ entryBytes m.cpu.registers.sp, byte ∉ [m.vector, m.vector + 1, m.handler]

/-- A step enters the handler with interrupts disabled, and has pushed the status with the break flag as
given. -/
structure EntersWith (m : Machine FlatMemory) (breakFlag : Bool) : Prop where
  handler : (step m).2.cpu.registers.pc = m.handler
  disabled : (step m).2.cpu.registers.p.interruptDisable = true
  pushed : Status.ofByte ((step m).2.bus.peek (word 1 (m.cpu.registers.sp - 1 - 1))) =
    { m.cpu.registers.p with breakFlag }

/-- Returns undo calls and entries into handlers, and pulls undo pushes. -/
structure UndoesEntries (m : Machine FlatMemory) : Prop where
  interrupt : ¬ m.cpu.jammed → (m.cpu.nmiPolled || m.cpu.irqPolled) → m.ReturnsAtOnce →
    m.EntersWith false ∧ (step (step m).2).2.cpu.registers = m.cpu.registers
  brk : Executes m .brk → m.ReturnsAtOnce →
    m.EntersWith true ∧
      (step (step m).2).2.cpu.registers = { m.cpu.registers with pc := m.cpu.registers.pc + 2 }
  call : Executes m .jsr → m.cpu.nmiLatched = false →
    let r := m.cpu.registers
    let target := m.bus.wordAt (r.pc + 1) (r.pc + 2)
    Instruction.decode (m.bus.peek target) = .rts →
    (∀ byte ∈ FlatMemory.wordBytes r.sp, byte ∉ [r.pc + 2, target]) →
    (step m).2.cpu.registers.pc = target ∧
      (step (step m).2).2.cpu.registers = { r with pc := r.pc + 3 }
  status : Executes m .php → m.cpu.nmiLatched = false →
    let r := m.cpu.registers
    Instruction.decode (m.bus.peek (r.pc + 1)) = .plp → word 1 r.sp ≠ r.pc + 1 →
    (step (step m).2).2.cpu.registers = { r with pc := r.pc + 2 }
  accumulator : Executes m .pha → m.cpu.nmiLatched = false →
    let r := m.cpu.registers
    Instruction.decode (m.bus.peek (r.pc + 1)) = .pla → word 1 r.sp ≠ r.pc + 1 →
    (step (step m).2).2.cpu.registers = { r with p := r.p.withResult r.a, pc := r.pc + 2 }

variable {pushed : Status → Status} {m n : Machine FlatMemory} {r : Registers}

/-- What is apart from the stack is as it was. -/
theorem Entered.handler_kept (entered : Entered pushed m r n) (sp : r.sp = m.cpu.registers.sp)
    (once : m.ReturnsAtOnce) :
    n.cpu.registers.pc = m.handler ∧ n.bus.peek m.handler = m.bus.peek m.handler := by
  have kept : ∀ byte ∈ [m.vector, m.vector + 1, m.handler], n.bus.peek byte = m.bus.peek byte := by
    intro byte inside
    refine entered.others byte fun touched => once.apart byte ?_ inside
    rwa [← sp]
  simp only [List.forall_mem_cons] at kept
  refine ⟨?_, kept.2.2.1⟩
  rw [entered.registers]
  show n.bus.wordAt m.vector (m.vector + 1) = m.bus.wordAt m.vector (m.vector + 1)
  rw [FlatMemory.wordAt, kept.1, kept.2.1, FlatMemory.wordAt]

/-- The return takes up what the entry has pushed. -/
theorem Entered.returns (entered : Entered pushed m r n) (sp : r.sp = m.cpu.registers.sp)
    (running : ¬ m.cpu.jammed) (once : m.ReturnsAtOnce)
    (restores : Status.pulled (pushed r.p).toByte = r.p) : (step n).2.cpu.registers = r := by
  obtain ⟨pc, opcode⟩ := entered.handler_kept sp once
  have decoded : Instruction.decode (n.bus.peek n.cpu.registers.pc) = .rti := by
    rw [pc, opcode]
    exact once.returns
  have executes : Executes n .rti := by
    refine executes_of_calm ?_ entered.calm (fun _ => ?_) decoded
    · rw [entered.jammed]
      exact Bool.eq_false_iff.mpr running
    · simp [Instruction.isOfficial, decoded]
  have stack : n.cpu.registers.sp = r.sp - 1 - 1 - 1 := by rw [entered.registers]
  rw [FlatMemory.step_rti executes, stack]
  simp only [UInt8.sub_add_cancel, entered.status, entered.address.wordAt, restores]
  rw [entered.registers]
  rfl

/-- What an entry shows of itself. -/
theorem Entered.entersWith {breakFlag : Bool} (entered : Entered pushed m r (step m).2)
    (sp : r.sp = m.cpu.registers.sp) (once : m.ReturnsAtOnce)
    (status : pushed r.p = { m.cpu.registers.p with breakFlag }) : m.EntersWith breakFlag where
  handler := (entered.handler_kept sp once).1
  disabled := by
    rw [entered.registers]
    rfl
  pushed := by rw [← sp, entered.status, Status.ofByte_toByte, status]

theorem interrupt_returns (genuine : m.cpu.registers.p.AsPulled) (silent : m.Silent)
    (running : ¬ m.cpu.jammed) (pending : m.cpu.nmiPolled || m.cpu.irqPolled)
    (once : m.ReturnsAtOnce) :
    m.EntersWith false ∧ (step (step m).2).2.cpu.registers = m.cpu.registers := by
  have entered := interrupt_entered silent
  have enters : (step m).2 = (Exec.interrupt m).2 := by rw [step_of_pending running pending]
  rw [← enters] at entered
  refine ⟨entered.entersWith rfl once ?_, ?_⟩
  · rw [Status.pushedByInterrupt, ← genuine.unused]
  · exact entered.returns rfl running once genuine.pulled_pushedByInterrupt

theorem brk_returns (genuine : m.cpu.registers.p.AsPulled) (silent : m.Silent)
    (executes : Executes m .brk) (once : m.ReturnsAtOnce) :
    m.EntersWith true ∧
      (step (step m).2).2.cpu.registers = { m.cpu.registers with pc := m.cpu.registers.pc + 2 } := by
  have entered := brk_entered silent executes
  refine ⟨entered.entersWith rfl once ?_, ?_⟩
  · show Status.pushedByInstruction m.cpu.registers.p = _
    rw [Status.pushedByInstruction, ← genuine.unused]
  · have next : m.cpu.registers.pc + 1 + 1 = m.cpu.registers.pc + 2 := UInt16.add_assoc _ 1 1
    rw [entered.returns rfl executes.running once genuine.pulled_pushedByInstruction, next]

theorem call_returns (calm : m.CalmIn 2) (executes : Executes m .jsr) {target : UInt16}
    (leads : m.bus.wordAt (m.cpu.registers.pc + 1) (m.cpu.registers.pc + 2) = target)
    (returns : Instruction.decode (m.bus.peek target) = .rts)
    (apart : ∀ byte ∈ FlatMemory.wordBytes m.cpu.registers.sp,
      byte ∉ [m.cpu.registers.pc + 2, target]) :
    (step m).2.cpu.registers.pc = target ∧
      (step (step m).2).2.cpu.registers = { m.cpu.registers with pc := m.cpu.registers.pc + 3 } := by
  have two : m.cpu.registers.pc + 1 + 1 = m.cpu.registers.pc + 2 := UInt16.add_assoc _ 1 1
  have three : m.cpu.registers.pc + 2 + 1 = m.cpu.registers.pc + 3 := UInt16.add_assoc _ 2 1
  obtain ⟨⟨holds, others⟩, registers⟩ := FlatMemory.step_jsr executes
  have kept : ∀ byte ∈ [m.cpu.registers.pc + 2, target], (step m).2.bus.peek byte = m.bus.peek byte :=
    fun byte inside => others byte fun touched => apart byte touched inside
  simp only [List.forall_mem_cons] at kept
  rw [two] at holds registers
  have there : word (m.bus.peek (m.cpu.registers.pc + 2)) (m.bus.peek (m.cpu.registers.pc + 1)) =
    target := leads
  rw [kept.1, there] at registers
  have decoded : Instruction.decode ((step m).2.bus.peek (step m).2.cpu.registers.pc) = .rts := by
    rw [registers, kept.2.1, returns]
  have back := executes_behind executes (by simp) calm
    (fun _ => by simp [Instruction.isOfficial, decoded]) decoded
  refine ⟨by rw [registers], ?_⟩
  rw [FlatMemory.step_rts back, registers]
  simp only [UInt8.sub_add_cancel, holds.wordAt, three]

/-- A pull behind a push is executed, as long as the push falls not on it, and finds what was pushed. -/
theorem pull_behind (calm : m.CalmIn 2) {i j : Instruction} (executes : Executes m i) (going : i ≠ .jam)
    {value : UInt8} (pc : (step m).2.cpu.registers.pc = m.cpu.registers.pc + 1)
    (bytes : ∀ byte, (step m).2.bus.peek byte =
      if word 1 m.cpu.registers.sp = byte then value else m.bus.peek byte)
    (pulls : Instruction.decode (m.bus.peek (m.cpu.registers.pc + 1)) = j)
    (official : ∀ opcode, Instruction.decode opcode = j → Instruction.isOfficial opcode)
    (apart : word 1 m.cpu.registers.sp ≠ m.cpu.registers.pc + 1) :
    Executes (step m).2 j ∧ (step m).2.bus.peek (word 1 m.cpu.registers.sp) = value := by
  have decoded : Instruction.decode ((step m).2.bus.peek (step m).2.cpu.registers.pc) = j := by
    rw [pc, bytes, if_neg apart, pulls]
  refine ⟨executes_behind executes going calm (fun _ => official _ decoded) decoded, ?_⟩
  rw [bytes, if_pos rfl]

theorem status_returns (genuine : m.cpu.registers.p.AsPulled) (calm : m.CalmIn 2)
    (executes : Executes m .php)
    (pulls : Instruction.decode (m.bus.peek (m.cpu.registers.pc + 1)) = .plp)
    (apart : word 1 m.cpu.registers.sp ≠ m.cpu.registers.pc + 1) :
    (step (step m).2).2.cpu.registers = { m.cpu.registers with pc := m.cpu.registers.pc + 2 } := by
  have two : m.cpu.registers.pc + 1 + 1 = m.cpu.registers.pc + 2 := UInt16.add_assoc _ 1 1
  obtain ⟨registers, bytes⟩ := FlatMemory.step_php executes
  obtain ⟨back, pulled⟩ := pull_behind calm executes (by simp) (congrArg Registers.pc registers) bytes
    pulls (fun _ decoded => by simp [Instruction.isOfficial, decoded]) apart
  rw [FlatMemory.step_plp back, registers]
  simp only [UInt8.sub_add_cancel, pulled, genuine.pulled_pushedByInstruction, two]

theorem accumulator_returns (calm : m.CalmIn 2) (executes : Executes m .pha)
    (pulls : Instruction.decode (m.bus.peek (m.cpu.registers.pc + 1)) = .pla)
    (apart : word 1 m.cpu.registers.sp ≠ m.cpu.registers.pc + 1) :
    (step (step m).2).2.cpu.registers = { m.cpu.registers with
      p := m.cpu.registers.p.withResult m.cpu.registers.a
      pc := m.cpu.registers.pc + 2 } := by
  have two : m.cpu.registers.pc + 1 + 1 = m.cpu.registers.pc + 2 := UInt16.add_assoc _ 1 1
  obtain ⟨registers, bytes⟩ := FlatMemory.step_pha executes
  obtain ⟨back, pulled⟩ := pull_behind calm executes (by simp) (congrArg Registers.pc registers) bytes
    pulls (fun _ decoded => by simp [Instruction.isOfficial, decoded]) apart
  rw [FlatMemory.step_pla back, registers]
  simp only [UInt8.sub_add_cancel, pulled, Registers.setA, two]

/-- In every run from power-on on any bus the flags without a circuit are as in a pulled status. In every
such state, on memory alone and in silence, returns undo calls and entries into handlers, and pulls undo
pushes. -/
theorem returns_undo_entries :
    (∀ {β : Type} [ProcessorBus β] (m : Machine β) (events : List (Event β)),
      (events.foldl happen (Exec.powerOn m).2).cpu.registers.p.AsPulled) ∧
    ∀ m : Machine FlatMemory, m.cpu.registers.p.AsPulled → m.Silent → m.UndoesEntries := by
  constructor
  · intro β _ m events
    exact run_asPulled (powerOn_asPulled m) events
  · intro m genuine silent
    refine ⟨interrupt_returns genuine silent, brk_returns genuine silent, ?_, ?_, ?_⟩
    · intro executes unlatched r target returns apart
      exact call_returns (calmIn_two silent unlatched) executes rfl returns apart
    · intro executes unlatched r pulls apart
      exact status_returns genuine (calmIn_two silent unlatched) executes pulls apart
    · intro executes unlatched r pulls apart
      exact accumulator_returns (calmIn_two silent unlatched) executes pulls apart

/-- A processor at the entry into a handler that is a return; its three pushes run over the end of the
stack page. -/
def interruptedBench : Machine FlatMemory where
  cpu := { Processor.initial with
    registers := ⟨1, 2, 3, { Status.powerOn with interruptDisable := false }, 1, 0x8000⟩
    irqPolled := true }
  bus := (FlatMemory.blank.load 0x9000 [0x40]).load 0xFFFE [0x00, 0x90]

theorem interruptedBench_returns : interruptedBench.EntersWith false ∧
    (step (step interruptedBench).2).2.cpu.registers = interruptedBench.cpu.registers := by
  have low : interruptedBench.bus.peek 0xFFFE = 0x00 := by
    simp [interruptedBench, FlatMemory.load, FlatMemory.peek_poke_of_ne]
  have high : interruptedBench.bus.peek 0xFFFF = 0x90 := by
    simp [interruptedBench, FlatMemory.load]
  have opcode : interruptedBench.bus.peek 0x9000 = 0x40 := by
    simp [interruptedBench, FlatMemory.load, FlatMemory.peek_poke_of_ne]
  have vector : interruptedBench.vector = 0xFFFE := rfl
  have handler : interruptedBench.handler = 0x9000 := by
    rw [Machine.handler, vector]
    show word (interruptedBench.bus.peek 0xFFFF) (interruptedBench.bus.peek 0xFFFE) = 0x9000
    rw [low, high]
    decide
  have once : interruptedBench.ReturnsAtOnce := by
    refine ⟨?_, ?_⟩
    · rw [handler, opcode]
      decide
    · have pushed : entryBytes interruptedBench.cpu.registers.sp = [0x101, 0x100, 0x1FF] := by decide
      simp [handler, vector, pushed]
  have genuine : interruptedBench.cpu.registers.p.AsPulled := ⟨by decide, by decide⟩
  obtain ⟨-, undoes⟩ := returns_undo_entries
  exact (undoes interruptedBench genuine rfl).interrupt (by decide) (by decide) once

end Machine

end Famiclone
