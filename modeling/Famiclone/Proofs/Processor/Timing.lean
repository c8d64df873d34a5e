import Famiclone.Processor.FlatMemory
import Famiclone.Proofs.Processor.Accesses
import Mathlib.Data.FinEnum

/-!
# The timing of instructions

On a bus that asks for no transfer every access is one cycle, so the duration of an instruction is the
number of its accesses. It is compared here with the published tables: a base count for each opcode, one
cycle more where indexing takes a reading instruction to another page, and one or two more for a branch
that is taken. What depends on data is computed from the bytes of the program and the registers alone,
in the arithmetic of numbers and not of words.
-/
namespace Famiclone

variable {β : Type} [ProcessorBus β]

/-! ## The published tables -/

/-- The base count of each opcode, sixteen to a row. -/
def publishedRows : List (List Nat) := [
  [7, 6, 0, 8, 3, 3, 5, 5, 3, 2, 2, 2, 4, 4, 6, 6],
  [2, 5, 0, 8, 4, 4, 6, 6, 2, 4, 2, 7, 4, 4, 7, 7],
  [6, 6, 0, 8, 3, 3, 5, 5, 4, 2, 2, 2, 4, 4, 6, 6],
  [2, 5, 0, 8, 4, 4, 6, 6, 2, 4, 2, 7, 4, 4, 7, 7],
  [6, 6, 0, 8, 3, 3, 5, 5, 3, 2, 2, 2, 3, 4, 6, 6],
  [2, 5, 0, 8, 4, 4, 6, 6, 2, 4, 2, 7, 4, 4, 7, 7],
  [6, 6, 0, 8, 3, 3, 5, 5, 4, 2, 2, 2, 5, 4, 6, 6],
  [2, 5, 0, 8, 4, 4, 6, 6, 2, 4, 2, 7, 4, 4, 7, 7],
  [2, 6, 2, 6, 3, 3, 3, 3, 2, 2, 2, 2, 4, 4, 4, 4],
  [2, 6, 0, 6, 4, 4, 4, 4, 2, 5, 2, 5, 5, 5, 5, 5],
  [2, 6, 2, 6, 3, 3, 3, 3, 2, 2, 2, 2, 4, 4, 4, 4],
  [2, 5, 0, 5, 4, 4, 4, 4, 2, 4, 2, 4, 4, 4, 4, 4],
  [2, 6, 2, 8, 3, 3, 5, 5, 2, 2, 2, 2, 4, 4, 6, 6],
  [2, 5, 0, 8, 4, 4, 6, 6, 2, 4, 2, 7, 4, 4, 7, 7],
  [2, 6, 2, 8, 3, 3, 5, 5, 2, 2, 2, 2, 4, 4, 6, 6],
  [2, 5, 0, 8, 4, 4, 6, 6, 2, 4, 2, 7, 4, 4, 7, 7]]

def publishedCycles (opcode : UInt8) : Nat :=
  (publishedRows.getD (opcode.toNat / 16) []).getD (opcode.toNat % 16) 0

def look (address : UInt16) : StateM β UInt8 := fun b => ProcessorBus.read b address

/-- The number in two bytes, low byte first. -/
def lookWord (low high : UInt16) : StateM β Nat := do
  let l ← look low
  let h ← look high
  return l.toNat + 256 * h.toNat

theorem lookWord_eq (low high : UInt16) (b : β) : lookWord low high b =
    ((look low b).1.toNat + 256 * (look high (look low b).2).1.toNat,
      (look high (look low b).2).2) := rfl

/-- One cycle where adding an index takes a base address to another page. -/
def pageCycle (base index : Nat) : Nat := if base / 256 = (base + index) / 256 then 0 else 1

/-- The number that a byte stands for in the complement of two. -/
def signed (b : UInt8) : Int := if b.toNat < 128 then b.toNat else b.toNat - 256

/-- The cycles that the registers and the bytes behind the opcode add to the base count. -/
def documentedExtra (r : Registers) : Instruction → StateM β Nat
  | .read _ .absoluteX => do
    return pageCycle (← lookWord (r.pc + 1) (r.pc + 2)) r.x.toNat
  | .read _ .absoluteY => do
    return pageCycle (← lookWord (r.pc + 1) (r.pc + 2)) r.y.toNat
  | .read _ .indirectY => do
    let pointer ← look (r.pc + 1)
    return pageCycle (← lookWord (word 0 pointer) (word 0 (pointer + 1))) r.y.toNat
  | .branch flag whenSet => do
    let offset ← look (r.pc + 1)
    let next : Int := (r.pc + 2).toNat
    let target := (next + signed offset) % 65536
    if flag.test r.p = whenSet then return if target / 256 = next / 256 then 1 else 2
    else return 0
  | _ => return 0

/-- The documented count of the instruction in front of a machine. -/
def documentedCycles (m : Machine β) : Nat :=
  let (opcode, b) := look m.cpu.registers.pc m.bus
  publishedCycles opcode + (documentedExtra m.cpu.registers (.decode opcode) b).1

/-- Every opcode makes the accesses that the tables count, the one that fetches it included. -/
theorem publishedCycles_eq : ∀ opcode : UInt8, Instruction.decode opcode ≠ .jam →
    publishedCycles opcode = 1 + (Instruction.decode opcode).accesses := by
  decide +kernel

/-! ## Words as numbers -/

theorem word_toNat (high low : UInt8) : (word high low).toNat = low.toNat + 256 * high.toNat := by
  have := high.toNat_lt
  have := low.toNat_lt
  simp only [word, UInt16.toNat_ofNat']
  omega

theorem highByte_eq_iff (v w : UInt16) :
    highByte v = highByte w ↔ v.toNat / 256 = w.toNat / 256 := by
  have := v.toNat_lt
  have := w.toNat_lt
  rw [← UInt8.toNat_inj]
  simp only [highByte, UInt8.toNat_ofNat']
  omega

/-- The sum of an address and an index leaves the page also where it runs over the last address. -/
theorem crosses_iff (base : UInt16) (index : UInt8) :
    Operand.crosses ⟨base + index.toUInt16, base⟩ = true ↔
      base.toNat / 256 ≠ (base.toNat + index.toNat) / 256 := by
  have := base.toNat_lt
  have := index.toNat_lt
  simp only [Operand.crosses, bne_iff_ne, ne_eq, highByte_eq_iff, UInt16.toNat_add,
    UInt8.toNat_toUInt16]
  omega

theorem settling_reading (mode : Mode) (indexed : mode.indexed) (base : UInt16) (index : UInt8) :
    mode.settling .reading ⟨base + index.toUInt16, base⟩ = pageCycle base.toNat index.toNat := by
  simp only [Mode.settling, pageCycle, crosses_iff, indexed]
  split_ifs <;> simp_all

theorem bit_seven : ∀ b : UInt8, bit b 7 = decide (128 ≤ b.toNat) := by
  decide +kernel

theorem displace_toNat (pc : UInt16) (offset : UInt8) :
    ((displace pc offset).toNat : Int) = (pc.toNat + signed offset) % 65536 := by
  have := pc.toNat_lt
  have := offset.toNat_lt
  have full : (0xFF : UInt8).toNat = 255 := rfl
  by_cases negative : 128 ≤ offset.toNat
  · have small : ¬ offset.toNat < 128 := by omega
    simp only [displace, bit_seven, signed, negative, small, decide_true, if_true, if_false,
      UInt16.toNat_add, word_toNat, full]
    omega
  · have small : offset.toNat < 128 := by omega
    simp only [displace, bit_seven, signed, negative, small, decide_false, Bool.false_eq_true, if_true,
      if_false, UInt16.toNat_add, UInt8.toNat_toUInt16]
    omega

theorem branchTurn_eq (next : UInt16) (offset : UInt8) : branchTurn next offset =
    if ((next.toNat : Int) + signed offset) % 65536 / 256 = (next.toNat : Int) / 256 then 1
    else 2 := by
  have same : highByte next = highByte (displace next offset) ↔
      ((next.toNat : Int) + signed offset) % 65536 / 256 = (next.toNat : Int) / 256 := by
    rw [highByte_eq_iff, ← displace_toNat]
    omega
  simp only [branchTurn, ne_eq, same]
  split_ifs <;> rfl

/-! ## Buses without transfers -/

/-- States of a bus in which no transfer waits, whatever the processor does. -/
structure Quiet (Q : β → Prop) : Prop where
  none : ∀ b, Q b → ProcessorBus.takeTransfer b = (none, b)
  read : ∀ b address, Q b → Q (ProcessorBus.read b address).2
  write : ∀ b address value, Q b → Q (ProcessorBus.write b address value)

namespace Quiet

open Exec

variable {Q : β → Prop} (quiet : Quiet Q)
include quiet

theorem serveAll (halted : UInt16) (limit : Nat) {m : Machine β} (h : Q m.bus) :
    Exec.serveAll halted limit m = ((), m) := by
  cases limit with
  | zero => rfl
  | succ limit =>
    simp only [Exec.serveAll, modifyGet, MonadStateOf.modifyGet, StateT.modifyGet, bind, StateT.bind,
      Pure.pure, quiet.none m.bus h]
    rfl

theorem read_eq (address : UInt16) {m : Machine β} (h : Q m.bus) :
    Exec.read address m = cycleRead address m := by
  have served := quiet.serveAll address (ProcessorBus.transferLimit m.bus) h
  have read : Exec.read address m =
      cycleRead address (Exec.serveAll address (ProcessorBus.transferLimit m.bus) m).2 := rfl
  rw [read, served]

/-- Without transfers an access is a cycle. -/
theorem metered : Machine.MeteredSteps (β := β) fun k m n =>
    Q m.bus → Q n.bus ∧ n.cpu.cycles = m.cpu.cycles + k where
  refl m h := ⟨h, rfl⟩
  trans first second h := by
    obtain ⟨h, spent⟩ := first h
    obtain ⟨h, more⟩ := second h
    exact ⟨h, by omega⟩
  read m address h := by
    rw [quiet.read_eq address h]
    exact ⟨quiet.read _ _ h, rfl⟩
  push m value h := ⟨quiet.write _ _ _ h, rfl⟩
  registers m f h := ⟨h, rfl⟩
  vector m value h := by
    rw [← takeVector_bus m] at h
    rw [← takeVector_cycles m]
    exact ⟨quiet.write _ _ _ h, rfl⟩
  poll m h := ⟨h, rfl⟩
  settle m h := ⟨h, rfl⟩
  jam m h := ⟨h, rfl⟩

/-- A step takes as many cycles as it makes accesses. -/
theorem step_cycles {m : Machine β} (h : Q m.bus) :
    (step m).2.cpu.cycles = m.cpu.cycles + stepAccesses m := by
  have closing := quiet.metered.closing fun m address value h => ⟨quiet.write _ address value h, rfl⟩
  exact (quiet.metered.step_at closing m h).2

/-! ## The bytes of an instruction -/

/-- A read answers with the byte of the bus. -/
theorem read_fst (address : UInt16) {m : Machine β} (h : Q m.bus) :
    (Exec.read address m).1 = (look address m.bus).1 := by
  rw [quiet.read_eq address h]
  rfl

/-- A read leaves the bus that has answered. -/
theorem read_bus (address : UInt16) {m : Machine β} (h : Q m.bus) :
    (Exec.read address m).2.bus = (look address m.bus).2 := by
  rw [quiet.read_eq address h]
  rfl

theorem fetch_fst {m : Machine β} (h : Q m.bus) :
    (fetch m).1 = (look m.cpu.registers.pc m.bus).1 :=
  quiet.read_fst m.cpu.registers.pc h

theorem fetch_bus {m : Machine β} (h : Q m.bus) :
    (fetch m).2.bus = (look m.cpu.registers.pc m.bus).2 :=
  quiet.read_bus m.cpu.registers.pc h

theorem fetch_quiet {m : Machine β} (h : Q m.bus) : Q (fetch m).2.bus :=
  (quiet.metered.fetch m h).1

theorem fetchWord_fst {m : Machine β} (h : Q m.bus) :
    (fetchWord m).1.toNat =
      (lookWord m.cpu.registers.pc (m.cpu.registers.pc + 1) m.bus).1 := by
  rw [fetchWord_eq, word_toNat, quiet.fetch_fst (quiet.fetch_quiet h), quiet.fetch_bus h,
    quiet.fetch_fst h, fetch_registers, lookWord_eq]

theorem readZeroPageWord_fst (pointer : UInt8) {m : Machine β} (h : Q m.bus) :
    (readZeroPageWord pointer m).1.toNat =
      (lookWord (word 0 pointer) (word 0 (pointer + 1)) m.bus).1 := by
  have first := (quiet.metered.read m (word 0 pointer) h).1
  rw [readZeroPageWord_eq, word_toNat, lookWord_eq, quiet.read_fst _ first, quiet.read_bus _ h,
    quiet.read_fst _ h]

/-- The accesses that depend on data are the cycles that the bytes behind the opcode announce. -/
theorem extraAccesses_eq (i : Instruction) {m : Machine β} (h : Q m.bus) {r : Registers}
    (behind : m.cpu.registers = { r with pc := r.pc + 1 }) :
    extraAccesses i m = (documentedExtra r i m.bus).1 := by
  have two : r.pc + 1 + 1 = r.pc + 2 := UInt16.add_assoc _ 1 1
  cases i with
  | read op mode =>
    cases mode with
    | absoluteX =>
      simp only [extraAccesses, resolve_absoluteX, index_fst, settling_reading .absoluteX rfl,
        quiet.fetchWord_fst h, fetchWord_registers, behind, two]
      rfl
    | absoluteY =>
      simp only [extraAccesses, resolve_absoluteY, index_fst, settling_reading .absoluteY rfl,
        quiet.fetchWord_fst h, fetchWord_registers, behind, two]
      rfl
    | indirectY =>
      simp only [extraAccesses, resolve_indirectY, index_fst, settling_reading .indirectY rfl,
        quiet.readZeroPageWord_fst _ (quiet.fetch_quiet h), readZeroPageWord_registers,
        quiet.fetch_fst h, quiet.fetch_bus h, fetch_registers, behind]
      rfl
    | _ => rfl
  | branch flag whenSet =>
    simp only [extraAccesses, quiet.fetch_fst h, behind, two, branchTurn_eq, beq_iff_eq]
    by_cases taken : flag.test r.p = whenSet
    · rw [if_pos taken]
      simp only [documentedExtra, if_pos taken]
      rfl
    · rw [if_neg taken]
      simp only [documentedExtra, if_neg taken]
      rfl
  | _ => rfl

end Quiet

/-! ## The program counter -/

/-- Whether an instruction leaves the program counter to its operand. -/
def Instruction.goesOn : Instruction → Bool
  | branch _ _ | jmp _ | jsr | rts | rti | brk => false
  | _ => true

theorem ReadOp.apply_pc (op : ReadOp) (value : UInt8) (r : Registers) :
    (op.apply value r).pc = r.pc := by
  cases op <;> rfl

theorem ModifyOp.apply_pc (op : ModifyOp) (value : UInt8) (r : Registers) :
    (op.apply value r).2.pc = r.pc := by
  cases op <;> rfl

theorem RegisterOp.apply_pc (op : RegisterOp) (r : Registers) : (op.apply r).pc = r.pc := by
  cases op <;> rfl

namespace Exec

theorem pull_pc (m : Machine β) : (pull m).2.cpu.registers.pc = m.cpu.registers.pc := by
  have whole : pull m = readAtStack
      { m with cpu := m.cpu.mapRegisters fun r => { r with sp := r.sp + 1 } } := rfl
  rw [whole, readAtStack_registers]
  rfl

/-- A value is pulled behind two accesses that leave the program counter alone as well. -/
theorem pulled_pc (m : Machine β) : (pull (readAtStack (readAtPc m).2).2).2.cpu.registers.pc =
    m.cpu.registers.pc := by
  rw [pull_pc, readAtStack_registers, readAtPc_registers]

theorem resolve_pc (mode : Mode) (purpose : Purpose) (m : Machine β) :
    (resolve mode purpose m).2.cpu.registers.pc =
      m.cpu.registers.pc + UInt16.ofNat mode.operandLength :=
  congrArg Registers.pc (resolve_registers mode purpose m)

/-- A value is read behind the operand. -/
theorem operand_pc (mode : Mode) (purpose : Purpose) (m : Machine β) :
    (read (resolve mode purpose m).1.address (resolve mode purpose m).2).2.cpu.registers.pc =
      m.cpu.registers.pc + UInt16.ofNat mode.operandLength := by
  rw [read_registers, resolve_pc]

/-- An instruction that goes on takes its operand from the program and nothing more. -/
theorem execute_pc {i : Instruction} (goesOn : i.goesOn) (m : Machine β) :
    (execute i m).2.cpu.registers.pc = m.cpu.registers.pc + UInt16.ofNat i.operandLength := by
  -- The instructions without an operand leave the program counter where it is.
  have stays (same : (execute i m).2.cpu.registers.pc = m.cpu.registers.pc)
      (none : i.operandLength = 0) :
      (execute i m).2.cpu.registers.pc = m.cpu.registers.pc + UInt16.ofNat i.operandLength := by
    rw [none]
    exact same.trans (UInt16.add_zero _).symm
  cases i with
  | read op mode =>
    have whole : (execute (.read op mode) m).2.cpu.registers =
        let got := read (resolve mode .reading m).1.address (resolve mode .reading m).2
        op.apply got.1 got.2.cpu.registers := rfl
    rw [whole, ReadOp.apply_pc]
    exact operand_pc mode .reading m
  | store op mode => exact resolve_pc mode .writing m
  | maskedStore op mode =>
    by_cases tas : op = .tas
    · subst tas
      exact resolve_pc mode .writing m
    · unfold execute maskedStore
      simp only [if_neg tas]
      exact resolve_pc mode .writing m
  | modify op mode =>
    have whole : (execute (.modify op mode) m).2.cpu.registers =
        let got := read (resolve mode .writing m).1.address (resolve mode .writing m).2
        (op.apply got.1 got.2.cpu.registers).2 := rfl
    rw [whole, ModifyOp.apply_pc]
    exact operand_pc mode .writing m
  | accumulator op =>
    refine stays ?_ rfl
    have whole : (execute (.accumulator op) m).2.cpu.registers.pc =
        (op.apply (readAtPc m).2.cpu.registers.a (readAtPc m).2.cpu.registers).2.pc := rfl
    rw [whole, ModifyOp.apply_pc, readAtPc_registers]
  | register op =>
    refine stays ?_ rfl
    have whole : (execute (.register op) m).2.cpu.registers =
        op.apply (readAtPc m).2.cpu.registers := rfl
    rw [whole, RegisterOp.apply_pc, readAtPc_registers]
  | pha | php =>
    have same := congrArg Registers.pc (readAtPc_registers m)
    exact stays same rfl
  | pla =>
    refine stays ?_ rfl
    have whole : (execute .pla m).2.cpu.registers =
        let pulled := pull (readAtStack (readAtPc m).2).2
        pulled.2.cpu.registers.setA pulled.1 := rfl
    rw [whole]
    exact pulled_pc m
  | plp =>
    refine stays ?_ rfl
    have whole : (execute .plp m).2.cpu.registers =
        let pulled := pull (readAtStack (readAtPc m).2).2
        pulled.2.cpu.registers.setStatus pulled.1 := rfl
    rw [whole]
    exact pulled_pc m
  | jam => exact stays rfl rfl
  | branch | jmp | jsr | rts | rti | brk => simp [Instruction.goesOn] at goesOn

/-- On a bus without transfers, and with no interrupt at the boundary, a step takes the documented
cycles, and an instruction that goes on leaves the program counter behind its operand. -/
theorem step_documented {Q : β → Prop} (quiet : Quiet Q) {m : Machine β} (h : Q m.bus)
    (running : m.cpu.jammed = false) (nmi : m.cpu.nmiPolled = false)
    (irq : m.cpu.irqPolled = false) (lenient : m.cpu.strict = false)
    (known : Instruction.decode (look m.cpu.registers.pc m.bus).1 ≠ .jam) :
    (step m).1 = .ok (documentedCycles m) ∧
      ((Instruction.decode (look m.cpu.registers.pc m.bus).1).goesOn →
        (step m).2.cpu.registers.pc = m.cpu.registers.pc + 1 + UInt16.ofNat
          (Instruction.decode (look m.cpu.registers.pc m.bus).1).operandLength) := by
  have accepts : ¬ Refuses m := fun refused => by
    rw [Refuses, fetch_strict, lenient] at refused
    exact Bool.noConfusion refused.1
  have ran : step m = (.ok ((execute (Instruction.decode (fetch m).1) (fetch m).2).2.cpu.cycles -
      m.cpu.cycles), (execute (Instruction.decode (fetch m).1) (fetch m).2).2) := by
    rw [step_of_ready (by simp [running]) (by simp [nmi, irq]), instruction_of_accepts accepts]
    rfl
  constructor
  · have spent := quiet.step_cycles h
    have count : stepAccesses m = documentedCycles m := by
      rw [stepAccesses, if_neg (by simp [running]), if_neg (by simp [nmi, irq]),
        instructionAccesses, if_neg accepts,
        quiet.extraAccesses_eq _ (quiet.fetch_quiet h) (fetch_registers m), quiet.fetch_fst h,
        quiet.fetch_bus h, ← Nat.add_assoc, ← publishedCycles_eq _ known]
      rfl
    rw [ran] at spent ⊢
    simp only at spent ⊢
    rw [spent, count, Nat.add_sub_cancel_left]
  · intro goesOn
    rw [ran, execute_pc (by rwa [quiet.fetch_fst h]), fetch_registers, quiet.fetch_fst h]

end Exec

/-- Memory alone asks for no transfer. -/
theorem FlatMemory.quiet : Quiet fun _ : FlatMemory => True where
  none _ _ := rfl
  read _ _ _ := trivial
  write _ _ _ _ := trivial

/-- The cycles of a processor in front of `LDA $10FF,X`: the index may lead to the next page. -/
theorem documentedCycles_load {m : Machine FlatMemory} (opcode : m.bus.peek m.cpu.registers.pc = 0xBD)
    (low : m.bus.peek (m.cpu.registers.pc + 1) = 0xFF)
    (high : m.bus.peek (m.cpu.registers.pc + 2) = 0x10) :
    documentedCycles m = 4 + pageCycle 0x10FF m.cpu.registers.x.toNat := by
  have load : Instruction.decode 0xBD = .read .lda .absoluteX := by decide
  have base : publishedCycles 0xBD = 4 := by decide
  have extra (r : Registers) (memory : FlatMemory) :
      (documentedExtra r (.read .lda .absoluteX) memory).1 =
        pageCycle ((memory.peek (r.pc + 1)).toNat + 256 * (memory.peek (r.pc + 2)).toNat)
          r.x.toNat := rfl
  have whole : documentedCycles m = publishedCycles (m.bus.peek m.cpu.registers.pc) +
      (documentedExtra m.cpu.registers (.decode (m.bus.peek m.cpu.registers.pc))
        { m.bus with cycles := m.bus.cycles + 1 }).1 := rfl
  have same (n : Nat) (address : UInt16) :
    ({ m.bus with cycles := n } : FlatMemory).peek address = m.bus.peek address := rfl
  rw [whole, opcode, load, base, extra]
  simp only [same, low, high]
  rfl

/-- A processor in front of `LDA $10FF,X` with `X` at one. -/
def crossingLoad : Machine FlatMemory where
  cpu := { Processor.initial with registers := { Registers.initial with x := 1, pc := 0x8000 } }
  bus := .withProgram 0x8000 [0xBD, 0xFF, 0x10]

theorem step_documented_load : (Exec.step crossingLoad).1 = .ok 5 ∧
    (Exec.step crossingLoad).2.cpu.registers.pc = 0x8003 := by
  have opcode : crossingLoad.bus.peek crossingLoad.cpu.registers.pc = 0xBD := by
    simp [crossingLoad, FlatMemory.withProgram, FlatMemory.load, FlatMemory.peek_poke_of_ne]
  have low : crossingLoad.bus.peek (crossingLoad.cpu.registers.pc + 1) = 0xFF := by
    simp [crossingLoad, FlatMemory.withProgram, FlatMemory.load, FlatMemory.peek_poke_of_ne]
  have high : crossingLoad.bus.peek (crossingLoad.cpu.registers.pc + 2) = 0x10 := by
    simp [crossingLoad, FlatMemory.withProgram, FlatMemory.load, FlatMemory.peek_poke_of_ne]
  have decoded : Instruction.decode (look crossingLoad.cpu.registers.pc crossingLoad.bus).1 =
      .read .lda .absoluteX := (congrArg Instruction.decode opcode).trans (by decide)
  have documented := Exec.step_documented FlatMemory.quiet (m := crossingLoad) trivial rfl rfl rfl
    rfl (by rw [decoded]; decide)
  rw [documentedCycles_load opcode low high, decoded] at documented
  exact ⟨documented.1, documented.2 rfl⟩

end Famiclone
