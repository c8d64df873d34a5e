import Famiclone.Proofs.Processor.Memory

/-!
# Compound instructions

Most unofficial instructions are two official ones in one. A modifying compound shifts or counts a byte in
memory and goes on with an arithmetic instruction on the new byte, whose carry comes from the first half;
the compound load fills two registers, the compound store leaves what two registers have in common, and
one compound on the accumulator masks it and shifts it. Here each of them is compared with its two halves,
executed at another place of the same memory and in addressing modes of their own, as long as these find
the same operand. Behind both the machine is the same but for the program counter and the time.
-/
namespace Famiclone

open Exec

/-! ## Halves -/

/-- The two halves of a modifying instruction that is a compound. -/
def ModifyOp.halves? : ModifyOp → Option (ModifyOp × ReadOp)
  | slo => some (asl, .ora)
  | rla => some (rol, .and)
  | sre => some (lsr, .eor)
  | rra => some (ror, .adc)
  | dcp => some (dec, .cmp)
  | isc => some (inc, .sbc)
  | asl | lsr | rol | ror | inc | dec => none

/-- The second half works with the byte, the carry and the flags that the first half leaves. -/
theorem ModifyOp.apply_of_halves {op first : ModifyOp} {second : ReadOp}
    (halves : op.halves? = some (first, second)) (value : UInt8) (r : Registers) :
    op.apply value r = ((first.apply value r).1,
      second.apply (first.apply value r).1 (first.apply value r).2) := by
  cases op <;> cases halves <;> rfl

/-- Compounds are outside the documented set. -/
theorem ModifyOp.unofficial_of_halves {op first : ModifyOp} {second : ReadOp}
    (halves : op.halves? = some (first, second)) {opcode : UInt8} {mode : Mode}
    (decoded : Instruction.decode opcode = .modify op mode) :
    Instruction.isOfficial opcode = false := by
  cases op <;> cases halves <;> simp [Instruction.isOfficial, decoded]

/-- Only the accumulator and the flags are changed. -/
theorem ModifyOp.apply_of_half {op first : ModifyOp} {second : ReadOp}
    (halves : op.halves? = some (first, second)) (value : UInt8) (r : Registers) :
    (first.apply value r).2 = { r with p := (first.apply value r).2.p } := by
  cases op <;> cases halves <;> rfl

/-- No modifying instruction looks at the program counter. -/
theorem ModifyOp.apply_withPc (op : ModifyOp) (value : UInt8) (r : Registers) (pc : UInt16) :
    op.apply value { r with pc } =
      ((op.apply value r).1, { (op.apply value r).2 with pc }) := by
  cases op <;> rfl

/-- No reading instruction looks at the program counter. -/
theorem ReadOp.apply_withPc (op : ReadOp) (value : UInt8) (r : Registers) (pc : UInt16) :
    op.apply value { r with pc } = { op.apply value r with pc } := by
  cases op <;> rfl

/-! ## Machines that are the same but for the time -/

/-- Cells are equal if all bytes are. -/
theorem FlatMemory.cells_of_peek {memory other : FlatMemory}
    (same : ∀ byte, memory.peek byte = other.peek byte) : memory.cells = other.cells := by
  apply Vector.ext
  intro i inside
  have byte := same (UInt16.ofNat i)
  have place : (UInt16.ofNat i).toNat = i := by
    rw [UInt16.toNat_ofNat']
    omega
  simpa only [peek, place] using byte

namespace Machine

/-- Two machines differ in the program counter and in what counts the time, and in nothing else. -/
structure AlikeButTime (m n : Machine FlatMemory) : Prop where
  memory : m.bus = { n.bus with cycles := m.bus.cycles }
  processor : m.cpu = { n.cpu with
    registers := { n.cpu.registers with pc := m.cpu.registers.pc }
    cycles := m.cpu.cycles
    samples := m.cpu.samples }

/-- No line of calm memory is asserted. -/
theorem CalmIn.lines {d : Nat} {m : Machine FlatMemory} (calm : m.CalmIn d) : m.bus.lines = .none := by
  have silent : m.bus.lines.union m.cpu.requested = .none := calm.silent
  simp only [Lines.union, Lines.none, Lines.mk.injEq, Bool.or_eq_false_iff] at silent
  obtain ⟨⟨nmi, -⟩, ⟨frame, -⟩, ⟨sample, -⟩, ⟨board, -⟩, ⟨external, -⟩⟩ := silent
  exact congr (congr (congr (congr (congrArg Lines.mk nmi) frame) sample) board) external

/-- Calm machines of equal memory, registers and settings are the same but for the time. -/
theorem CalmIn.alike {m n : Machine FlatMemory} (calm : m.CalmIn 0) (other : n.CalmIn 0)
    (stands : m.standing = n.standing) {pc : UInt16}
    (registers : m.cpu.registers = { n.cpu.registers with pc })
    (bytes : ∀ byte, m.bus.peek byte = n.bus.peek byte) : m.AlikeButTime n where
  memory := by
    obtain ⟨_, _, _, _⟩ := m
    obtain ⟨_, _, _, _⟩ := n
    cases FlatMemory.cells_of_peek bytes
    cases calm.lines.trans other.lines.symm
    rfl
  processor := by
    obtain ⟨⟨r, _, strict, jammed, requested, _, _, _, _, _, edges, _⟩, _⟩ := m
    obtain ⟨⟨s, _, _, _, _, _, _, _, _, _, _, _⟩, _⟩ := n
    cases calm.unlatched
    cases other.unlatched
    cases calm.line (by decide)
    cases other.line (by decide)
    cases calm.sampled (by decide)
    cases other.sampled (by decide)
    obtain ⟨⟨⟩, ⟨⟩⟩ := calm.polled rfl
    obtain ⟨⟨⟩, ⟨⟩⟩ := other.polled rfl
    cases stands
    cases registers
    rfl

/-! ## Pairs of instructions -/

/-- The machine in front of another place of the program. -/
def movedTo (m : Machine FlatMemory) (pc : UInt16) : Machine FlatMemory :=
  { m with cpu := m.cpu.mapRegisters fun r => { r with pc } }

/-- At a place of the program one instruction is to be executed, and behind it stands another. -/
structure Pair (m : Machine FlatMemory) (start : UInt16) (first second : Instruction) : Prop where
  executes : Executes (m.movedTo start) first
  follows : Instruction.decode (m.bus.peek (start + 1 + UInt16.ofNat first.operandLength)) = second

/-- Where the operand stands of an instruction that is executed at a place of the program. -/
def operandAt (m : Machine FlatMemory) (pc : UInt16) (mode : Mode) : UInt16 :=
  m.bus.operandAddress { m.cpu.registers with pc } mode

/-- The bytes that tell where that operand stands. -/
def footprintAt (m : Machine FlatMemory) (pc : UInt16) (mode : Mode) : List UInt16 :=
  m.bus.footprint { m.cpu.registers with pc } mode

/-- Compound instructions do what their halves do at another place of the program. The halves find the same
operand in modes of their own, and what the first half writes is no byte of the second and none of its
pointer. -/
structure SplitsCompounds (m : Machine FlatMemory) : Prop where
  modify : ∀ {op first second mode mode₁ mode₂ start}, op.halves? = some (first, second) →
    Executes m (.modify op mode) → m.Pair start (.modify first mode₁) (.read second mode₂) →
    let target := m.operandAt m.cpu.registers.pc mode
    let next := start + 1 + UInt16.ofNat mode₁.operandLength
    m.operandAt start mode₁ = target → m.operandAt next mode₂ = target →
    target ∉ m.footprintAt next mode₂ →
    (step m).2.AlikeButTime (step (step (m.movedTo start)).2).2
  load : ∀ {mode mode₁ mode₂ start},
    Executes m (.read .lax mode) → m.Pair start (.read .lda mode₁) (.read .ldx mode₂) →
    let target := m.operandAt m.cpu.registers.pc mode
    let next := start + 1 + UInt16.ofNat mode₁.operandLength
    m.operandAt start mode₁ = target → m.operandAt next mode₂ = target →
    (step m).2.AlikeButTime (step (step (m.movedTo start)).2).2
  mask : ∀ {start},
    Executes m (.read .alr .immediate) → m.Pair start (.read .and .immediate) (.accumulator .lsr) →
    m.bus.peek (start + 1) = m.bus.peek (m.cpu.registers.pc + 1) →
    (step m).2.AlikeButTime (step (step (m.movedTo start)).2).2
  store : ∀ {mode}, Executes m (.store .sax mode) →
    (step m).2.cpu.registers = { m.cpu.registers with pc := (step m).2.cpu.registers.pc } ∧
      ∀ byte, (step m).2.bus.peek byte =
        if m.operandAt m.cpu.registers.pc mode = byte then m.cpu.registers.a &&& m.cpu.registers.x
        else m.bus.peek byte

variable {m : Machine FlatMemory} {start : UInt16} {i j : Instruction}

/-- The second of two instructions is executed behind the first, if that leaves its opcode in place. -/
theorem Pair.second (pair : m.Pair start i j) (going : i ≠ .jam) (calm : m.CalmIn 2)
    (lenient : m.cpu.strict = false)
    (pc : (step (m.movedTo start)).2.cpu.registers.pc = start + 1 + UInt16.ofNat i.operandLength)
    (opcode : (step (m.movedTo start)).2.bus.peek (start + 1 + UInt16.ofNat i.operandLength) =
      m.bus.peek (start + 1 + UInt16.ofNat i.operandLength)) :
    Executes (step (m.movedTo start)).2 j ∧ (step (m.movedTo start)).2.CalmIn 0 ∧
      (step (m.movedTo start)).2.standing = m.standing := by
  have moved : (m.movedTo start).CalmIn 2 :=
    ⟨calm.silent, calm.unlatched, calm.line, calm.sampled, calm.polled⟩
  refine ⟨?_, step_calm pair.executes going moved⟩
  refine executes_behind pair.executes going moved (fun strict => ?_) ?_
  · exact absurd (strict.symm.trans lenient) Bool.noConfusion
  · rw [pc, opcode]
    exact pair.follows

/-- A reading half works on the byte at its operand, which stands where it stood before the first half:
that has changed the accumulator and the flags and no byte that tells. -/
theorem Pair.reads {second : ReadOp} {mode₂ : Mode} (pair : m.Pair start i (.read second mode₂))
    (going : i ≠ .jam) (calm : m.CalmIn 2) (lenient : m.cpu.strict = false) {next target : UInt16}
    (behind : start + 1 + UInt16.ofNat i.operandLength = next) {a : UInt8} {p : Status}
    (registers : (step (m.movedTo start)).2.cpu.registers = { m.cpu.registers with a, p, pc := next })
    (told : ∀ byte ∈ m.footprintAt next mode₂,
      (step (m.movedTo start)).2.bus.peek byte = m.bus.peek byte)
    (place : m.operandAt next mode₂ = target) :
    let n := (step (m.movedTo start)).2
    (Executes n (.read second mode₂) ∧ n.CalmIn 0 ∧ n.standing = m.standing) ∧
      (step n).2.cpu.registers =
        second.apply (n.bus.peek target) (FlatMemory.foundBy n.cpu.registers mode₂) ∧
      ∀ byte, (step n).2.bus.peek byte = n.bus.peek byte := by
  subst behind
  have follows := pair.second going calm lenient (congrArg Registers.pc registers)
    (told _ (FlatMemory.pc_mem_footprint ..))
  have operand : (step (m.movedTo start)).2.bus.operandAddress
      (step (m.movedTo start)).2.cpu.registers mode₂ = target := by
    rw [← place]
    exact FlatMemory.operandAddress_congr told (by rw [registers]) (by rw [registers])
      (by rw [registers])
  exact ⟨follows, FlatMemory.step_read follows.1 operand⟩

/-- What a compound and its halves leave is compared when all of them have been executed. -/
theorem Pair.alike (calm : m.CalmIn 2) (executes : Executes m i) (going : i ≠ .jam)
    {n : Machine FlatMemory} (second : Executes n j) (goes : j ≠ .jam) (rests : n.CalmIn 0)
    (stands : n.standing = m.standing) (pc : UInt16)
    (registers : (step m).2.cpu.registers = { (step n).2.cpu.registers with pc })
    (bytes : ∀ byte, (step m).2.bus.peek byte = (step n).2.bus.peek byte) :
    (step m).2.AlikeButTime (step n).2 := by
  obtain ⟨calm, same⟩ := step_calm executes going calm
  obtain ⟨rests, stays⟩ := step_calm second goes (rests.weaken 2)
  exact calm.alike rests (by rw [same, stays, stands]) registers bytes

/-- A modifying compound. -/
theorem modify_alike (calm : m.CalmIn 2) {op first : ModifyOp} {second : ReadOp}
    {mode mode₁ mode₂ : Mode} (halves : op.halves? = some (first, second))
    (executes : Executes m (.modify op mode))
    (pair : m.Pair start (.modify first mode₁) (.read second mode₂)) {target : UInt16}
    (place : m.operandAt m.cpu.registers.pc mode = target)
    (place₁ : m.operandAt start mode₁ = target)
    (place₂ : m.operandAt (start + 1 + UInt16.ofNat mode₁.operandLength) mode₂ = target)
    (apart : target ∉ m.footprintAt (start + 1 + UInt16.ofNat mode₁.operandLength) mode₂) :
    (step m).2.AlikeButTime (step (step (m.movedTo start)).2).2 := by
  have lenient : m.cpu.strict = false := executes.lenient (op.unofficial_of_halves halves)
  obtain ⟨whole, written⟩ := FlatMemory.step_modify executes place
  obtain ⟨registers, bytes⟩ := FlatMemory.step_modify pair.executes place₁
  -- The place where the first half is executed shows in the program counter alone.
  let found := FlatMemory.foundBy { m.cpu.registers with pc := start } mode₁
  let half := first.apply (m.bus.peek target) found
  have registers : (step (m.movedTo start)).2.cpu.registers = half.2 := registers
  have kept : half.2 = { found with p := half.2.p } := ModifyOp.apply_of_half halves _ _
  have unlike : ∀ byte ∈ m.footprintAt (start + 1 + UInt16.ofNat mode₁.operandLength) mode₂,
      (step (m.movedTo start)).2.bus.peek byte = m.bus.peek byte := by
    intro byte told
    rw [bytes, if_neg fun same : target = byte => apart (same ▸ told)]
    rfl
  obtain ⟨⟨follows, rests, stands⟩, ends, left⟩ :=
    pair.reads (by simp) calm lenient rfl (registers.trans kept) unlike place₂
  have value : (step (m.movedTo start)).2.bus.peek target = half.1 := by
    rw [bytes, if_pos rfl]
    rfl
  have result : op.apply (m.bus.peek target) (FlatMemory.foundBy m.cpu.registers mode) = (half.1,
      { second.apply half.1 half.2 with
        pc := (FlatMemory.foundBy m.cpu.registers mode).pc }) := by
    have elsewhere := op.apply_withPc (m.bus.peek target) found
      (FlatMemory.foundBy m.cpu.registers mode).pc
    rw [ModifyOp.apply_of_halves halves _ found] at elsewhere
    exact elsewhere
  refine Pair.alike calm executes (by simp) follows (by simp) rests stands
    (FlatMemory.foundBy m.cpu.registers mode).pc ?_ fun byte => ?_
  · rw [whole, result, ends, value, registers]
    exact congrArg (fun r : Registers => { r with pc := (FlatMemory.foundBy m.cpu.registers mode).pc })
      (second.apply_withPc half.1 half.2 (FlatMemory.foundBy half.2 mode₂).pc).symm
  · rw [written, result, left, bytes]
    rfl

/-- The compound load. Its first half changes the accumulator, which finds no operand. -/
theorem load_alike (calm : m.CalmIn 2) {mode mode₁ mode₂ : Mode}
    (executes : Executes m (.read .lax mode)) (pair : m.Pair start (.read .lda mode₁) (.read .ldx mode₂))
    {target : UInt16} (place : m.operandAt m.cpu.registers.pc mode = target)
    (place₁ : m.operandAt start mode₁ = target)
    (place₂ : m.operandAt (start + 1 + UInt16.ofNat mode₁.operandLength) mode₂ = target) :
    (step m).2.AlikeButTime (step (step (m.movedTo start)).2).2 := by
  have lenient : m.cpu.strict = false :=
    executes.lenient fun decoded => by simp [Instruction.isOfficial, decoded]
  obtain ⟨whole, kept⟩ := FlatMemory.step_read executes place
  obtain ⟨registers, same⟩ := FlatMemory.step_read pair.executes place₁
  obtain ⟨⟨follows, rests, stands⟩, ends, left⟩ :=
    pair.reads (by simp) calm lenient rfl registers (fun byte _ => same byte) place₂
  refine Pair.alike calm executes (by simp) follows (by simp) rests stands
    (FlatMemory.foundBy m.cpu.registers mode).pc ?_ fun byte => ?_
  · rw [whole, ends, same, registers]
    rfl
  · rw [kept, left, same]
    rfl

/-- The compound that masks the accumulator and shifts it. -/
theorem mask_alike (calm : m.CalmIn 2) (executes : Executes m (.read .alr .immediate))
    (pair : m.Pair start (.read .and .immediate) (.accumulator .lsr))
    (byte : m.bus.peek (start + 1) = m.bus.peek (m.cpu.registers.pc + 1)) :
    (step m).2.AlikeButTime (step (step (m.movedTo start)).2).2 := by
  have lenient : m.cpu.strict = false :=
    executes.lenient fun decoded => by simp [Instruction.isOfficial, decoded]
  obtain ⟨whole, kept⟩ := FlatMemory.step_read executes rfl
  obtain ⟨registers, same⟩ := FlatMemory.step_read pair.executes rfl
  obtain ⟨follows, rests, stands⟩ := pair.second (by simp) calm lenient
    (congrArg Registers.pc registers) (same _)
  obtain ⟨ends, left⟩ := FlatMemory.step_accumulator follows
  refine Pair.alike calm executes (by simp) follows (by simp) rests stands
    (FlatMemory.foundBy m.cpu.registers .immediate).pc ?_ fun cell => ?_
  · have operand : (m.movedTo start).bus.peek
        ((m.movedTo start).bus.operandAddress (m.movedTo start).cpu.registers .immediate) =
        m.bus.peek (m.bus.operandAddress m.cpu.registers .immediate) := byte
    rw [whole, ends, registers, operand]
    rfl
  · rw [kept, left, same]
    rfl

/-- In silence every compound does what its halves do. -/
theorem compounds_do_as_their_halves (m : Machine FlatMemory)
    (silent : m.Silent) (unlatched : m.cpu.nmiLatched = false) :
    m.SplitsCompounds where
  modify halves executes pair := fun place₁ place₂ apart =>
    modify_alike (calmIn_two silent unlatched) halves executes pair rfl place₁ place₂ apart
  load executes pair := fun place₁ place₂ =>
    load_alike (calmIn_two silent unlatched) executes pair rfl place₁ place₂
  mask executes pair byte := mask_alike (calmIn_two silent unlatched) executes pair byte
  store executes := by
    obtain ⟨registers, bytes⟩ := FlatMemory.step_store executes rfl
    exact ⟨by rw [registers]; rfl, bytes⟩

/-- A processor in front of `RRA ($10),Y`; at another place stand `ROR $0300` and `ADC $0300`. -/
def rotatingBench : Machine FlatMemory where
  cpu := { Processor.initial with
    registers := ⟨0x7F, 0, 0x10, { Status.powerOn with carry := true }, 0xFD, 0x8000⟩ }
  bus := (((FlatMemory.withProgram 0x8000 [0x73, 0x10]).load 0x9000
    [0x6E, 0x00, 0x03, 0x6D, 0x00, 0x03]).load 0x10 [0xF0, 0x02]).load 0x300 [3]

/-- The bytes of both programs, and the pointer. -/
theorem rotatingBench_peek :
    let memory := rotatingBench.bus
    (memory.peek 0x8000 = 0x73 ∧ memory.peek 0x8001 = 0x10) ∧
      (memory.peek 0x10 = 0xF0 ∧ memory.peek 0x11 = 0x02) ∧
      (memory.peek 0x9000 = 0x6E ∧ memory.peek 0x9001 = 0x00 ∧ memory.peek 0x9002 = 0x03) ∧
      memory.peek 0x9003 = 0x6D ∧ memory.peek 0x9004 = 0x00 ∧ memory.peek 0x9005 = 0x03 := by
  simp [rotatingBench, FlatMemory.withProgram, FlatMemory.load, FlatMemory.peek_poke_of_ne]

theorem rra_does_as_ror_adc : (step rotatingBench).2.AlikeButTime
    (step (step (rotatingBench.movedTo 0x9000)).2).2 := by
  obtain ⟨⟨opcode, pointer⟩, ⟨low, high⟩, ⟨first, low₁, high₁⟩, second, low₂, high₂⟩ :=
    rotatingBench_peek
  have calm : rotatingBench.CalmIn 0 := ⟨rfl, rfl, fun _ => rfl, fun _ => rfl, fun _ => ⟨rfl, rfl⟩⟩
  have moved : (rotatingBench.movedTo 0x9000).CalmIn 0 :=
    ⟨rfl, rfl, fun _ => rfl, fun _ => rfl, fun _ => ⟨rfl, rfl⟩⟩
  have compound : Executes rotatingBench (.modify .rra .indirectY) :=
    executes_of_lenient rfl rfl calm opcode (by decide)
  have pair : rotatingBench.Pair 0x9000 (.modify .ror .absolute) (.read .adc .absolute) :=
    ⟨executes_of_lenient rfl rfl moved first (by decide),
      (congrArg Instruction.decode second).trans (by decide)⟩
  have place : rotatingBench.operandAt 0x8000 .indirectY = 0x300 := by
    have sum : rotatingBench.operandAt 0x8000 .indirectY =
      rotatingBench.bus.wordAt (word 0 (rotatingBench.bus.peek 0x8001))
        (word 0 (rotatingBench.bus.peek 0x8001 + 1)) + 0x10 := rfl
    rw [sum, pointer]
    show word (rotatingBench.bus.peek 0x11) (rotatingBench.bus.peek 0x10) + 0x10 = 0x300
    rw [low, high]
    decide
  have place₁ : rotatingBench.operandAt 0x9000 .absolute = 0x300 := by
    show word (rotatingBench.bus.peek 0x9002) (rotatingBench.bus.peek 0x9001) = 0x300
    rw [low₁, high₁]
    decide
  have place₂ : rotatingBench.operandAt 0x9003 .absolute = 0x300 := by
    show word (rotatingBench.bus.peek 0x9005) (rotatingBench.bus.peek 0x9004) = 0x300
    rw [low₂, high₂]
    decide
  have apart : 0x300 ∉ rotatingBench.footprintAt 0x9003 .absolute := by decide
  exact (compounds_do_as_their_halves rotatingBench rfl rfl).modify rfl compound pair
    (place₁.trans place.symm) (place₂.trans place.symm) (fun told => apart (place ▸ told))

end Machine

end Famiclone
