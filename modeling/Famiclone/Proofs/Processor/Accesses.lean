import Famiclone.Processor.Step
import Mathlib.Logic.Relation
import Mathlib.Tactic.SplitIfs

/-!
# The accesses of the processor

Time passes only where the processor reads or writes, so what an instruction does over time is a row of
accesses with changes of the registers between them. A metered relation holds across one read, across
one push and across each change that takes no time, and adds the accesses up. Any such relation holds
across the actions of the processor with the number of accesses that each of them makes: exact cycle
counts, bounds, and facts that every cycle keeps are read off the same walk through the instructions.
-/
namespace Famiclone

variable {β : Type} [ProcessorBus β]

/-- What a taken branch leaves of the interrupt samples. -/
def Exec.takenBack (m : Machine β) : Machine β :=
  { m with cpu := { m.cpu with irqSampled := m.cpu.irqSampled && m.cpu.irqPolled } }

/-! ## Relations that add up -/

/-- A relation between two machines, graded by what leads from one to the other. -/
structure Machine.Additive (R : Nat → Machine β → Machine β → Prop) : Prop where
  refl : ∀ m, R 0 m m
  trans : ∀ {j k l m n}, R j l m → R k m n → R (j + k) l n

/-- A relation across reads, pushes and moves of the program counter and of the stack pointer. -/
structure Machine.Walked (R : Nat → Machine β → Machine β → Prop) : Prop extends Additive R where
  read : ∀ m address, R 1 m (Exec.read address m).2
  push : ∀ m value, R 1 m (Exec.write (Exec.stackTop m.cpu.registers) value m).2
  movesPc : ∀ m (pc : Registers → UInt16),
    R 0 m { m with cpu := m.cpu.mapRegisters fun r => { r with pc := pc r } }
  movesSp : ∀ m (sp : Registers → UInt8),
    R 0 m { m with cpu := m.cpu.mapRegisters fun r => { r with sp := sp r } }

/-- The same across those changes of the registers that leave the interrupt-disable flag as it is. -/
structure Machine.Gauged (R : Nat → Machine β → Machine β → Prop) : Prop extends Walked R where
  moves : ∀ m f, (f m.cpu.registers).p.interruptDisable = m.cpu.registers.p.interruptDisable →
    R 0 m { m with cpu := m.cpu.mapRegisters f }
  movesPc := fun m _ => moves m _ rfl
  movesSp := fun m _ => moves m _ rfl

/-- A relation across reads, pushes and changes of the registers. -/
structure Machine.Metered (R : Nat → Machine β → Machine β → Prop) : Prop extends Gauged R where
  registers : ∀ m f, R 0 m { m with cpu := m.cpu.mapRegisters f }
  moves := fun m f _ => registers m f

/-- A metered relation that also holds across the changes of the interrupt logic in entries into handlers.
The choice of a vector goes together with the push behind it. -/
structure Machine.MeteredEntries (R : Nat → Machine β → Machine β → Prop) : Prop extends
    Metered R where
  vector : ∀ m value, R 1 m
    (Exec.write (Exec.stackTop (Exec.takeVector m).2.cpu.registers) value (Exec.takeVector m).2).2
  /-- The end of a software interrupt. -/
  settle : ∀ m, R 0 m { m with cpu := { m.cpu with nmiPolled := false } }

/-- A metered relation that holds across the changes of the interrupt logic, but for those of taken
branches. -/
structure Machine.MeteredSequences (R : Nat → Machine β → Machine β → Prop) : Prop extends
    MeteredEntries R where
  jam : ∀ m, R 0 m { m with cpu := { m.cpu with jammed := true } }

/-- A metered relation that holds across all changes of the interrupt logic. -/
structure Machine.MeteredSteps (R : Nat → Machine β → Machine β → Prop) : Prop extends
    MeteredSequences R where
  /-- A taken branch takes back what only its operand fetch has seen. -/
  poll : ∀ m, R 0 m (Exec.takenBack m)

/-- A relation that holds across whole instructions, where one that is gauged holds in front of their
last writes. No read follows those, so a write to any address may weaken what is known. -/
structure Machine.Ending (R T : Nat → Machine β → Machine β → Prop) : Prop where
  start : ∀ m, T 0 m m
  before : ∀ {j k l m n}, R j l m → T k m n → T (j + k) l n
  store : ∀ {k l m} address value, T k l m → T (k + 1) l (Exec.write address value m).2
  moves : ∀ {k l m} f, (f m.cpu.registers).p.interruptDisable = m.cpu.registers.p.interruptDisable →
    T k l m → T k l { m with cpu := m.cpu.mapRegisters f }

/-- The same across all changes of the registers. -/
structure Machine.Closing (R T : Nat → Machine β → Machine β → Prop) : Prop extends Ending R T where
  registers : ∀ {k l m} f, T k l m → T k l { m with cpu := m.cpu.mapRegisters f }
  moves := fun f _ h => registers f h

/-- What holds in front of the last writes holds at the end where there are none. -/
theorem Machine.Ending.weaken {R T : Nat → Machine β → Machine β → Prop} (ending : Ending R T)
    {k : Nat} {m n : Machine β} (h : R k m n) : T k m n :=
  ending.before h (ending.start n)

/-- A gauged relation that writes to every address keep closes instructions itself. -/
theorem Machine.Gauged.ending {R : Nat → Machine β → Machine β → Prop} (gauged : Gauged R)
    (store : ∀ m address value, R 1 m (Exec.write address value m).2) : Ending R R where
  start := gauged.refl
  before := gauged.trans
  store address value h := gauged.trans h (store _ address value)
  moves f same h := gauged.trans h (gauged.moves _ f same)

/-- A metered relation that writes to every address keep closes instructions itself. -/
theorem Machine.Metered.closing {R : Nat → Machine β → Machine β → Prop} (metered : Metered R)
    (store : ∀ m address value, R 1 m (Exec.write address value m).2) : Closing R R where
  toEnding := metered.toGauged.ending store
  registers f h := metered.trans h (metered.registers _ f)

namespace Exec

variable {α γ : Type} {R : Nat → Machine β → Machine β → Prop}

/-- An action that makes a number of accesses from every state. -/
def Makes (R : Nat → Machine β → Machine β → Prop) (k : Nat) (action : Exec β α) : Prop :=
  ∀ m : Machine β, R k m (action m).2

end Exec

namespace Machine.Additive

open Exec

variable {α γ : Type} {R : Nat → Machine β → Machine β → Prop} (additive : Additive R)
include additive

omit [ProcessorBus β] in
theorem pure (a : α) : Makes R 0 (Pure.pure a : Exec β α) := additive.refl

omit [ProcessorBus β] in
theorem bind {j k : Nat} {action : Exec β α} {next : α → Exec β γ} (first : Makes R j action)
    (rest : ∀ a, Makes R k (next a)) : Makes R (j + k) (action >>= next) :=
  fun m => additive.trans (first m) (rest (action m).1 (action m).2)

omit [ProcessorBus β] in
/-- Behind what takes no time the accesses are those of the rest. -/
theorem bind_zero {k : Nat} {action : Exec β α} {next : α → Exec β γ} (first : Makes R 0 action)
    (rest : ∀ a, Makes R k (next a)) : Makes R k (action >>= next) := by
  have both := additive.bind first rest
  rwa [Nat.zero_add] at both

omit [ProcessorBus β] in
theorem get : Makes R 0 (MonadState.get : Exec β (Machine β)) := additive.refl

omit [ProcessorBus β] in
theorem registers_makes : Makes R 0 (Exec.registers (β := β)) := additive.refl

end Machine.Additive

/-! ## What one read is made of -/

/-- One change of the bus and of what the processor sees of it. -/
inductive Machine.BusChange : Machine β → Machine β → Prop
  | read (m : Machine β) (address : UInt16) : BusChange m (Exec.cycleRead address m).2
  | write (m : Machine β) (address : UInt16) (value : UInt8) :
      BusChange m (Exec.write address value m).2
  | take (m : Machine β) : BusChange m { m with bus := (ProcessorBus.takeTransfer m.bus).2 }
  | deliver (m : Machine β) (value : UInt8) :
      BusChange m { m with bus := ProcessorBus.deliver m.bus value }

abbrev Machine.BusCourse : Machine β → Machine β → Prop := Relation.ReflTransGen Machine.BusChange

namespace Exec

variable {α γ : Type}

/-- An action that only runs the bus. -/
def RunsBus (action : Exec β α) : Prop := ∀ m : Machine β, Machine.BusCourse m (action m).2

theorem RunsBus.bind {action : Exec β α} {next : α → Exec β γ} (first : RunsBus action)
    (rest : ∀ a, RunsBus (next a)) : RunsBus (action >>= next) :=
  fun m => (first m).trans (rest (action m).1 (action m).2)

theorem RunsBus.get : RunsBus (MonadState.get : Exec β (Machine β)) := fun _ => .refl

theorem RunsBus.forM {xs : List α} {action : α → Exec β PUnit} (h : ∀ x, RunsBus (action x)) :
    RunsBus (xs.forM action) := by
  induction xs with
  | nil => exact fun _ => .refl
  | cons x xs ih => exact .bind (h x) fun _ => ih

theorem cycleRead_runsBus (address : UInt16) : RunsBus (cycleRead (β := β) address) :=
  fun m => .single (.read m address)

theorem copySprite_runsBus (page : UInt8) (index : Nat) :
    RunsBus (copySprite (β := β) page index) :=
  .bind (cycleRead_runsBus _) fun value m => .single (.write m spriteData value)

/-- Every transfer begins with a cycle in which the processor halts. -/
theorem serve_begins (halted : UInt16) (t : Transfer) :
    ∃ rest : Exec β Unit, RunsBus rest ∧ serve halted t = (cycleRead halted >>= fun _ => rest) := by
  cases t with
  | sprites page =>
    have copies : RunsBus ((List.range 256).forM (copySprite (β := β) page)) :=
      .forM fun i => copySprite_runsBus page i
    refine ⟨_, .bind .get fun m => ?_, rfl⟩
    dsimp only
    split
    · exact .bind (cycleRead_runsBus _) fun _ => copies
    · exact copies
  | sample address =>
    refine ⟨_, .bind (cycleRead_runsBus halted) fun _ => .bind (cycleRead_runsBus halted) fun _ =>
      .bind (cycleRead_runsBus address) fun value m => .single (.deliver m value), rfl⟩

theorem serve_runsBus (halted : UInt16) (t : Transfer) : RunsBus (serve (β := β) halted t) := by
  obtain ⟨rest, runs, same⟩ := serve_begins (β := β) halted t
  rw [same]
  exact .bind (cycleRead_runsBus _) fun _ => runs

theorem serveAll_runsBus (halted : UInt16) (limit : Nat) :
    RunsBus (serveAll (β := β) halted limit) := by
  induction limit with
  | zero => exact fun _ => .refl
  | succ limit ih =>
    refine .bind (fun m => .single (.take m)) fun next => ?_
    cases next with
    | none => exact fun _ => .refl
    | some t => exact .bind (serve_runsBus halted t) fun _ => ih

theorem serveAll_done {halted : UInt16} {limit : Nat} {m : Machine β}
    (h : (ProcessorBus.takeTransfer m.bus).1 = none) :
    (serveAll halted (limit + 1) m).2 = { m with bus := (ProcessorBus.takeTransfer m.bus).2 } := by
  obtain ⟨bus, taken⟩ : ∃ bus, ProcessorBus.takeTransfer m.bus = (none, bus) := ⟨_, Prod.ext h rfl⟩
  simp only [serveAll, modifyGet, MonadStateOf.modifyGet, StateT.modifyGet, bind, StateT.bind,
    Pure.pure, taken]
  rfl

theorem serveAll_next {halted : UInt16} {limit : Nat} {m : Machine β} {t : Transfer}
    (h : (ProcessorBus.takeTransfer m.bus).1 = some t) :
    (serveAll halted (limit + 1) m).2 = (serveAll halted limit
      (serve halted t { m with bus := (ProcessorBus.takeTransfer m.bus).2 }).2).2 := by
  obtain ⟨bus, taken⟩ : ∃ bus, ProcessorBus.takeTransfer m.bus = (some t, bus) :=
    ⟨_, Prod.ext h rfl⟩
  simp only [serveAll, modifyGet, MonadStateOf.modifyGet, StateT.modifyGet, bind, StateT.bind,
    Pure.pure, taken]
  rfl

/-- A read of the processor only runs the bus, transfers included. -/
theorem read_runsBus (address : UInt16) : RunsBus (read (β := β) address) :=
  .bind .get fun _ => .bind (serveAll_runsBus _ _) fun _ => cycleRead_runsBus _

end Exec

/-- What each step of a row keeps, the row keeps. -/
theorem keeps_of_steps {α : Type} {r : α → α → Prop} {P : α → Prop} (step : ∀ a b, r a b → P a → P b)
    {a b : α} (row : Relation.ReflTransGen r a b) (h : P a) : P b := by
  induction row with
  | refl => exact h
  | tail _ last ih => exact step _ _ last ih

/-- What each change of the bus keeps, a course of them keeps. -/
theorem Machine.BusCourse.keeps {P : Machine β → Prop}
    (step : ∀ m n, Machine.BusChange m n → P m → P n) {m n : Machine β} (h : m.BusCourse n)
    (hm : P m) : P n := keeps_of_steps step h hm

/-- A fact about the processor that the end of every cycle keeps is kept while the bus runs. -/
theorem Machine.BusCourse.keepsCycles {P : Processor → Prop}
    (step : ∀ c asserted, P c → P (c.endCycle asserted)) {m n : Machine β} (course : m.BusCourse n)
    (h : P m.cpu) : P n.cpu := by
  refine course.keeps (P := fun n => P n.cpu) (fun k l change kept => ?_) h
  cases change with
  | read | write => exact step _ _ kept
  | take | deliver => exact kept

theorem Machine.BusChange.registers {m n : Machine β} (h : m.BusChange n) :
    n.cpu.registers = m.cpu.registers := by
  cases h <;> rfl

theorem Machine.BusChange.cycles_le {m n : Machine β} (h : m.BusChange n) :
    m.cpu.cycles ≤ n.cpu.cycles := by
  cases h with
  | read | write => exact Nat.le_succ _
  | take | deliver => exact Nat.le_refl _

theorem Machine.BusChange.strict {m n : Machine β} (h : m.BusChange n) :
    n.cpu.strict = m.cpu.strict := by
  cases h <;> rfl

namespace Exec

/-- No cycle is taken back while the bus runs. -/
theorem RunsBus.cycles_le {α : Type} {action : Exec β α} (h : RunsBus action) (m : Machine β) :
    m.cpu.cycles ≤ (action m).2.cpu.cycles :=
  (h m).keeps (P := fun n => m.cpu.cycles ≤ n.cpu.cycles)
    (fun _ _ change le => Nat.le_trans le change.cycles_le) (Nat.le_refl _)

/-- As long as no cycle passes, the processor does not change. -/
theorem RunsBus.cpu_of_cycles {α : Type} {action : Exec β α} (h : RunsBus action) {m : Machine β}
    (none : (action m).2.cpu.cycles = m.cpu.cycles) : (action m).2.cpu = m.cpu := by
  have kept := (h m).keeps
    (P := fun n => m.cpu.cycles ≤ n.cpu.cycles ∧ (n.cpu.cycles = m.cpu.cycles → n.cpu = m.cpu))
    (fun k n change kept => by
      cases change with
      | read address => exact ⟨Nat.le_succ_of_le kept.1, fun same => absurd same (by
          have one : (cycleRead address k).2.cpu.cycles = k.cpu.cycles + 1 := rfl
          omega)⟩
      | write address value => exact ⟨Nat.le_succ_of_le kept.1, fun same => absurd same (by
          have one : (write address value k).2.cpu.cycles = k.cpu.cycles + 1 := rfl
          omega)⟩
      | take | deliver => exact kept)
    ⟨Nat.le_refl _, fun _ => rfl⟩
  exact kept.2 none

/-! ## The registers behind reads -/

/-- No transfer touches the registers. -/
@[simp] theorem read_registers (address : UInt16) (m : Machine β) :
    (read address m).2.cpu.registers = m.cpu.registers :=
  (read_runsBus address m).keeps (P := fun n => n.cpu.registers = m.cpu.registers)
    (fun _ _ change kept => change.registers.trans kept) rfl

@[simp] theorem read_strict (address : UInt16) (m : Machine β) :
    (read address m).2.cpu.strict = m.cpu.strict :=
  (read_runsBus address m).keeps (P := fun n => n.cpu.strict = m.cpu.strict)
    (fun _ _ change kept => change.strict.trans kept) rfl

@[simp] theorem readAtPc_registers (m : Machine β) :
    (readAtPc m).2.cpu.registers = m.cpu.registers := read_registers _ _

theorem readAtStack_registers (m : Machine β) :
    (readAtStack m).2.cpu.registers = m.cpu.registers := read_registers _ m

@[simp] theorem fetch_registers (m : Machine β) :
    (fetch m).2.cpu.registers = { m.cpu.registers with pc := m.cpu.registers.pc + 1 } := by
  have same := readAtPc_registers m
  exact congrArg (fun r : Registers => { r with pc := r.pc + 1 }) same

@[simp] theorem fetch_strict (m : Machine β) : (fetch m).2.cpu.strict = m.cpu.strict :=
  read_strict _ _

theorem fetchWord_eq (m : Machine β) : fetchWord m =
    (word (fetch (fetch m).2).1 (fetch m).1, (fetch (fetch m).2).2) := rfl

theorem readZeroPageWord_eq (pointer : UInt8) (m : Machine β) : readZeroPageWord pointer m =
    (word (read (word 0 (pointer + 1)) (read (word 0 pointer) m).2).1 (read (word 0 pointer) m).1,
      (read (word 0 (pointer + 1)) (read (word 0 pointer) m).2).2) := rfl

@[simp] theorem fetchWord_registers (m : Machine β) :
    (fetchWord m).2.cpu.registers = { m.cpu.registers with pc := m.cpu.registers.pc + 2 } := by
  have two : m.cpu.registers.pc + 1 + 1 = m.cpu.registers.pc + 2 := UInt16.add_assoc _ 1 1
  rw [fetchWord_eq, fetch_registers, fetch_registers]
  simp only [two]

@[simp] theorem readZeroPageWord_registers (pointer : UInt8) (m : Machine β) :
    (readZeroPageWord pointer m).2.cpu.registers = m.cpu.registers := by
  simp only [readZeroPageWord_eq, read_registers]

@[simp] theorem index_fst (base : UInt16) (offset : UInt8) (purpose : Purpose) (m : Machine β) :
    (index base offset purpose m).1 = ⟨base + offset.toUInt16, base⟩ := by
  unfold index
  dsimp only
  split <;> rfl

@[simp] theorem index_registers (base : UInt16) (offset : UInt8) (purpose : Purpose)
    (m : Machine β) : (index base offset purpose m).2.cpu.registers = m.cpu.registers := by
  unfold index
  dsimp only
  split
  · exact read_registers _ m
  · rfl

theorem resolve_absoluteX (purpose : Purpose) (m : Machine β) : resolve .absoluteX purpose m =
    index (fetchWord m).1 (fetchWord m).2.cpu.registers.x purpose (fetchWord m).2 := rfl

theorem resolve_absoluteY (purpose : Purpose) (m : Machine β) : resolve .absoluteY purpose m =
    index (fetchWord m).1 (fetchWord m).2.cpu.registers.y purpose (fetchWord m).2 := rfl

theorem resolve_indirectX (purpose : Purpose) (m : Machine β) : resolve .indirectX purpose m =
    let looked := (read (word 0 (fetch m).1) (fetch m).2).2
    let pointed := readZeroPageWord ((fetch m).1 + looked.cpu.registers.x) looked
    (⟨pointed.1, pointed.1⟩, pointed.2) := rfl

theorem resolve_indirectY (purpose : Purpose) (m : Machine β) : resolve .indirectY purpose m =
    let pointed := readZeroPageWord (fetch m).1 (fetch m).2
    index pointed.1 pointed.2.cpu.registers.y purpose pointed.2 := rfl

theorem indexZeroPage_registers (offset : Registers → UInt8) (m : Machine β) :
    (indexZeroPage offset m).2.cpu.registers =
      { m.cpu.registers with pc := m.cpu.registers.pc + 1 } := by
  have looked : (indexZeroPage offset m).2 = (read (word 0 (fetch m).1) (fetch m).2).2 := rfl
  rw [looked, read_registers, fetch_registers]

/-- Finding an operand moves the program counter behind it and changes nothing else. -/
theorem resolve_registers (mode : Mode) (purpose : Purpose) (m : Machine β) :
    (resolve mode purpose m).2.cpu.registers =
      { m.cpu.registers with
        pc := m.cpu.registers.pc + UInt16.ofNat mode.operandLength } := by
  cases mode with
  | immediate => rfl
  | zeroPage => exact fetch_registers m
  | zeroPageX | zeroPageY => exact indexZeroPage_registers _ m
  | absolute => exact fetchWord_registers m
  | absoluteX => rw [resolve_absoluteX, index_registers, fetchWord_registers]; rfl
  | absoluteY => rw [resolve_absoluteY, index_registers, fetchWord_registers]; rfl
  | indirectX =>
    simp only [resolve_indirectX, readZeroPageWord_registers, read_registers, fetch_registers]
    rfl
  | indirectY =>
    simp only [resolve_indirectY, index_registers, readZeroPageWord_registers, fetch_registers]
    rfl

omit [ProcessorBus β] in
/-- The choice of a vector touches the latch of the first line alone. -/
theorem takeVector_snd (m : Machine β) : (takeVector m).2 = { m with
    cpu := { m.cpu with nmiLatched := false, edges := (takeVector m).2.cpu.edges } } := by
  unfold takeVector
  simp only [modifyGet, MonadStateOf.modifyGet, StateT.modifyGet, Pure.pure]
  split
  next => rfl
  next unlatched =>
    have low : m.cpu.nmiLatched = false := Bool.eq_false_iff.mpr unlatched
    rw [← low]

omit [ProcessorBus β] in
@[simp] theorem takeVector_registers (m : Machine β) :
    (takeVector m).2.cpu.registers = m.cpu.registers := by rw [takeVector_snd]

omit [ProcessorBus β] in
@[simp] theorem takeVector_cycles (m : Machine β) :
    (takeVector m).2.cpu.cycles = m.cpu.cycles := by rw [takeVector_snd]

omit [ProcessorBus β] in
@[simp] theorem takeVector_strict (m : Machine β) :
    (takeVector m).2.cpu.strict = m.cpu.strict := by rw [takeVector_snd]

omit [ProcessorBus β] in
@[simp] theorem takeVector_bus (m : Machine β) : (takeVector m).2.bus = m.bus := by
  rw [takeVector_snd]

end Exec

/-! ## The kinds of steps -/

namespace Exec

/-- Whether a strict processor refuses the opcode in front of it. -/
abbrev Refuses (m : Machine β) : Prop :=
  (fetch m).2.cpu.strict ∧ ¬ Instruction.isOfficial (fetch m).1

/-- A refused opcode has been fetched all the same, and is put back. -/
theorem instruction_of_refuses {m : Machine β} (h : Refuses m) :
    instruction m = (.error ⟨(fetch m).1, m.cpu.registers.pc⟩,
      { (fetch m).2 with
        cpu := (fetch m).2.cpu.mapRegisters fun r => { r with pc := m.cpu.registers.pc } }) := by
  have refused : instruction m = (if Refuses m then _ else _ : Exec β _) (fetch m).2 := rfl
  rw [refused, if_pos h]
  rfl

theorem instruction_of_accepts {m : Machine β} (h : ¬ Refuses m) :
    instruction m =
      (.ok (), (execute (Instruction.decode (fetch m).1) (fetch m).2).2) := by
  have accepted : instruction m = (if Refuses m then _ else _ : Exec β _) (fetch m).2 := rfl
  rw [accepted, if_neg h]
  rfl

/-- A processor that has stopped reads on. -/
theorem step_of_jammed {m : Machine β} (h : m.cpu.jammed) :
    step m = (.ok 1, (read 0xFFFF m).2) := by
  have idle : step m = (if m.cpu.jammed then _ else _ : Exec β _) m := rfl
  rw [idle, if_pos h]
  rfl

theorem step_of_pending {m : Machine β} (running : ¬ m.cpu.jammed)
    (h : m.cpu.nmiPolled || m.cpu.irqPolled) :
    step m = (.ok ((interrupt m).2.cpu.cycles - m.cpu.cycles), (interrupt m).2) := by
  have entered : step m = (if m.cpu.jammed then _ else if m.cpu.nmiPolled || m.cpu.irqPolled then _
    else _ : Exec β _) m := rfl
  rw [entered, if_neg running, if_pos h]
  rfl

theorem step_of_ready {m : Machine β} (running : ¬ m.cpu.jammed)
    (h : ¬ (m.cpu.nmiPolled || m.cpu.irqPolled)) :
    step m = ((instruction m).1.map fun _ => (instruction m).2.cpu.cycles - m.cpu.cycles,
      (instruction m).2) := by
  have ran : step m = (if m.cpu.jammed then _ else if m.cpu.nmiPolled || m.cpu.irqPolled then _
    else _ : Exec β _) m := rfl
  rw [ran, if_neg running, if_neg h]
  simp only [bind, StateT.bind]
  rcases instruction m with ⟨_ | _, n⟩ <;> rfl

end Exec

/-! ## The accesses of an instruction -/

/-- Whether an addressing mode adds an index to a full address. -/
def Mode.indexed : Mode → Bool
  | .absoluteX | .absoluteY | .indirectY => true
  | _ => false

/-- The accesses that find an operand, the one in which an indexed address settles apart. -/
def Mode.accesses : Mode → Nat
  | .immediate => 0
  | .zeroPage => 1
  | .zeroPageX | .zeroPageY | .absolute | .absoluteX | .absoluteY => 2
  | .indirectY => 3
  | .indirectX => 4

/-- The access in which the address of an operand settles. -/
def Mode.settling (mode : Mode) (purpose : Purpose) (o : Operand) : Nat :=
  if mode.indexed ∧ (o.crosses ∨ purpose = .writing) then 1 else 0

/-- The accesses of a taken branch beyond those of one that is not taken. -/
def branchTurn (next : UInt16) (offset : UInt8) : Nat :=
  1 + if highByte next ≠ highByte (displace next offset) then 1 else 0

/-- The accesses of an instruction behind its opcode, without those that depend on data. -/
def Instruction.accesses : Instruction → Nat
  | read _ mode => mode.accesses + 1
  | store _ mode | maskedStore _ mode => mode.accesses + mode.indexed.toNat + 1
  | modify _ mode => mode.accesses + mode.indexed.toNat + 3
  | accumulator _ | register _ | branch _ _ => 1
  | jmp false | pha | php => 2
  | pla | plp => 3
  | jmp true => 4
  | jsr | rts | rti => 5
  | brk => 6
  | jam => 0

/-- A branch that is taken. -/
def Instruction.turns (i : Instruction) (p : Status) : Bool :=
  match i with
  | branch flag whenSet => flag.test p == whenSet
  | _ => false

/-- Whether an instruction, if it changes the interrupt-disable flag at all, does so behind its last
access. -/
def Instruction.masksLate : Instruction → Bool
  | rti | brk | jam => false
  | _ => true

/-- The next step executes a certain instruction. -/
structure Exec.Executes (m : Machine β) (i : Instruction) : Prop where
  running : ¬ m.cpu.jammed
  quiet : ¬ (m.cpu.nmiPolled || m.cpu.irqPolled)
  accepted : ¬ Exec.Refuses m
  decoded : Instruction.decode (Exec.fetch m).1 = i

/-- The next step is a branch that is taken. -/
def Exec.Turns (m : Machine β) : Prop :=
  ∃ i, Exec.Executes m i ∧ i.turns m.cpu.registers.p = true

theorem Exec.Executes.not_turns {m : Machine β} {i : Instruction} (h : Executes m i)
    (straight : i.turns m.cpu.registers.p = false) : ¬ Turns m := by
  rintro ⟨j, other, turns⟩
  rw [← other.decoded, h.decoded, straight] at turns
  contradiction

theorem Exec.step_of_executes {m : Machine β} {i : Instruction} (h : Exec.Executes m i) :
    step m = (.ok ((execute i (fetch m).2).2.cpu.cycles - m.cpu.cycles),
      (execute i (fetch m).2).2) := by
  rw [step_of_ready h.running h.quiet, instruction_of_accepts h.accepted, h.decoded]
  rfl

/-- The accesses of an instruction that depend on data: where a reading instruction crosses a page, and
where a branch is taken. -/
def Exec.extraAccesses (i : Instruction) (m : Machine β) : Nat :=
  match i with
  | .read _ mode => mode.settling .reading (Exec.resolve mode .reading m).1
  | .branch flag whenSet =>
    if flag.test m.cpu.registers.p == whenSet then
      branchTurn (m.cpu.registers.pc + 1) (Exec.fetch m).1
    else 0
  | _ => 0

/-- The accesses of an instruction from its opcode on. -/
def Exec.instructionAccesses (m : Machine β) : Nat :=
  if Exec.Refuses m then 1
  else 1 + ((Instruction.decode (Exec.fetch m).1).accesses +
    Exec.extraAccesses (Instruction.decode (Exec.fetch m).1) (Exec.fetch m).2)

/-- The accesses of a step. -/
def Exec.stepAccesses (m : Machine β) : Nat :=
  if m.cpu.jammed then 1
  else if m.cpu.nmiPolled || m.cpu.irqPolled then 7
  else Exec.instructionAccesses m

theorem Exec.one_le_stepAccesses (m : Machine β) : 1 ≤ Exec.stepAccesses m := by
  simp only [stepAccesses, instructionAccesses]
  split_ifs <;> omega

/-- Every instruction that does not stop the processor makes an access behind its opcode. -/
theorem Instruction.one_le_accesses {i : Instruction} (going : i ≠ .jam) : 1 ≤ i.accesses := by
  cases i with
  | jmp indirect => cases indirect <;> decide
  | jam => contradiction
  | _ => simp [accesses]

theorem Instruction.accesses_le (i : Instruction) : i.accesses ≤ 7 := by
  have small : ∀ mode : Mode, mode.accesses + mode.indexed.toNat ≤ 4 := by
    intro mode
    cases mode <;> decide
  cases i with
  | read op mode => have := small mode; simp only [accesses]; omega
  | store op mode | maskedStore op mode | modify op mode =>
    have := small mode; simp only [accesses]; omega
  | jmp indirect => cases indirect <;> decide
  | _ => simp [accesses]

theorem Exec.extraAccesses_le (i : Instruction) (m : Machine β) :
    Exec.extraAccesses i m ≤ 2 := by
  cases i with
  | read op mode => simp only [extraAccesses, Mode.settling]; split_ifs <;> omega
  | branch flag whenSet => simp only [extraAccesses, branchTurn]; split_ifs <;> omega
  | _ => exact Nat.zero_le 2

theorem Exec.stepAccesses_le (m : Machine β) : Exec.stepAccesses m ≤ 10 := by
  have opcode := Instruction.accesses_le (Instruction.decode (fetch m).1)
  have extra := extraAccesses_le (Instruction.decode (fetch m).1) (fetch m).2
  simp only [stepAccesses, instructionAccesses]
  split_ifs <;> omega

/-- No modifying instruction touches the interrupt-disable flag. -/
theorem ModifyOp.apply_interruptDisable (op : ModifyOp) (value : UInt8) (r : Registers) :
    (op.apply value r).2.p.interruptDisable = r.p.interruptDisable := by
  cases op <;> rfl

/-- How a taken branch goes on at its target. -/
def Exec.turnTo (pc target : UInt16) : Exec β Unit :=
  if highByte pc ≠ highByte target then do
    let _ ← read (word (highByte pc) (lowByte target))
    mapRegisters fun r => { r with pc := target }
  else mapRegisters fun r => { r with pc := target }

theorem Exec.branch_taken (m : Machine β) :
    (branch true m).2 = (turnTo (m.cpu.registers.pc + 1)
      (displace (m.cpu.registers.pc + 1) (fetch m).1) (readAtPc (takenBack (fetch m).2)).2).2 := by
  have next : (readAtPc (takenBack (fetch m).2)).2.cpu.registers.pc = m.cpu.registers.pc + 1 := by
    rw [readAtPc_registers]
    exact congrArg Registers.pc (fetch_registers m)
  rw [← next]
  rfl

/-- The machine on which the reset sequence runs: what was pending is forgotten. -/
def Exec.forgotten (m : Machine β) : Machine β :=
  { m with
    cpu := { m.cpu with
      jammed := false
      requested := .none
      nmiLatched := false
      nmiPolled := false
      irqSampled := false
      irqPolled := false
      edges := .none } }

omit [ProcessorBus β] in
theorem Exec.bind_apply {α γ : Type} (action : Exec β α) (next : α → Exec β γ) (m : Machine β) :
    (action >>= next) m = next (action m).1 (action m).2 := rfl

omit [ProcessorBus β] in
theorem Exec.modify_bind {α : Type} (f : Machine β → Machine β) (next : Exec β α) (m : Machine β) :
    (modify f >>= fun _ => next : Exec β α) m = next (f m) := rfl

namespace Machine.Walked

open Exec

variable {α γ : Type} {R : Nat → Machine β → Machine β → Prop} (walked : Walked R)
include walked

theorem movePc (pc : Registers → UInt16) :
    Makes R 0 (Exec.mapRegisters (β := β) fun r => { r with pc := pc r }) :=
  fun m => walked.movesPc m pc

theorem moveSp (sp : Registers → UInt8) :
    Makes R 0 (Exec.mapRegisters (β := β) fun r => { r with sp := sp r }) :=
  fun m => walked.movesSp m sp

theorem read_makes (address : UInt16) : Makes R 1 (Exec.read (β := β) address) :=
  fun m => walked.read m address

theorem readAtPc : Makes R 1 (Exec.readAtPc (β := β)) :=
  walked.bind_zero walked.registers_makes fun _ => walked.read_makes _

theorem fetch : Makes R 1 (Exec.fetch (β := β)) :=
  walked.bind walked.readAtPc fun _ => walked.movePc fun r => r.pc + 1

theorem fetchWord : Makes R 2 (Exec.fetchWord (β := β)) :=
  walked.bind walked.fetch fun _ => walked.fetch

theorem readWord (address : UInt16) : Makes R 2 (Exec.readWord (β := β) address) :=
  walked.bind (walked.read_makes _) fun _ => walked.read_makes _

theorem readZeroPageWord (pointer : UInt8) :
    Makes R 2 (Exec.readZeroPageWord (β := β) pointer) :=
  walked.bind (walked.read_makes _) fun _ => walked.read_makes _

theorem readAtStack : Makes R 1 (Exec.readAtStack (β := β)) :=
  walked.bind_zero walked.registers_makes fun _ => walked.read_makes _

theorem push_makes (value : UInt8) : Makes R 1 (Exec.push (β := β) value) :=
  fun m => walked.trans (walked.push m value) (walked.moveSp _ _)

theorem pull : Makes R 1 (Exec.pull (β := β)) :=
  walked.bind_zero (walked.moveSp _) fun _ => walked.readAtStack

theorem pushWord (value : UInt16) : Makes R 2 (Exec.pushWord (β := β) value) :=
  walked.bind (walked.push_makes _) fun _ => walked.push_makes _

theorem pullWord : Makes R 2 (Exec.pullWord (β := β)) :=
  walked.bind walked.pull fun _ => walked.pull

theorem indexZeroPage (offset : Registers → UInt8) :
    Makes R 2 (Exec.indexZeroPage (β := β) offset) :=
  walked.bind walked.fetch fun _ => walked.bind (walked.read_makes _) fun _ =>
    walked.registers_makes

/-- Indexing makes an access exactly where the address needs to settle. -/
theorem index_at {mode : Mode} (indexed : mode.indexed) (base : UInt16) (offset : UInt8)
    (purpose : Purpose) (m : Machine β) :
    R (mode.settling purpose (index base offset purpose m).1) m
      (index base offset purpose m).2 := by
  unfold index
  dsimp only
  split
  next h =>
    have settles : mode.settling purpose ⟨base + offset.toUInt16, base⟩ = 1 :=
      if_pos ⟨indexed, h⟩
    have reads := walked.read_makes (word (highByte base) (lowByte (base + offset.toUInt16))) m
    rw [← settles] at reads
    exact reads
  next h =>
    have settled : mode.settling purpose ⟨base + offset.toUInt16, base⟩ = 0 :=
      if_neg fun both => h both.2
    have stays := walked.refl m
    rw [← settled] at stays
    exact stays

/-- Finding an operand makes the accesses of its mode, and one more where its address settles. -/
theorem resolve_at (mode : Mode) (purpose : Purpose) (m : Machine β) :
    R (mode.accesses + mode.settling purpose (resolve mode purpose m).1) m
      (resolve mode purpose m).2 := by
  have plain : ∀ {mode : Mode} {k : Nat} {o : Operand} {n : Machine β}, mode.indexed = false →
      R k m n → R (k + mode.settling purpose o) m n := by
    intro mode k o n fixed h
    have none : mode.settling purpose o = 0 := if_neg fun both => by simp [fixed] at both
    rwa [none, Nat.add_zero]
  cases mode with
  | immediate => exact plain rfl (walked.movePc _ m)
  | zeroPage => exact plain rfl (walked.fetch m)
  | zeroPageX => exact plain rfl (walked.indexZeroPage _ m)
  | zeroPageY => exact plain rfl (walked.indexZeroPage _ m)
  | absolute => exact plain rfl (walked.fetchWord m)
  | absoluteX => exact walked.trans (walked.fetchWord m) (walked.index_at rfl _ _ _ _)
  | absoluteY => exact walked.trans (walked.fetchWord m) (walked.index_at rfl _ _ _ _)
  | indirectX =>
    have pointer := walked.bind walked.fetch fun p => walked.bind (walked.read_makes (word 0 p))
      fun _ => walked.bind_zero walked.registers_makes fun r => walked.readZeroPageWord (p + r.x)
    exact plain rfl (pointer m)
  | indirectY =>
    have pointer := walked.bind walked.fetch fun p => walked.readZeroPageWord p
    exact walked.trans (pointer m) (walked.index_at rfl _ _ _ _)

/-- An instruction that writes always lets the address settle. -/
theorem resolve_writing (mode : Mode) :
    Makes R (mode.accesses + mode.indexed.toNat) (resolve (β := β) mode .writing) := by
  intro m
  have settles : mode.settling .writing (resolve mode .writing m).1 = mode.indexed.toNat := by
    cases h : mode.indexed <;> simp [Mode.settling, h]
  have found := walked.resolve_at mode .writing m
  rwa [settles] at found

theorem resolveIndirect : Makes R 4 (Exec.resolveIndirect (β := β)) :=
  walked.bind walked.fetchWord fun _ => walked.bind (walked.read_makes _) fun _ =>
    walked.bind (walked.read_makes _) fun _ => walked.pure _

/-- A taken branch makes one access more, and two more where it leaves the page. -/
theorem branch_at (taken : Bool) (m : Machine β) (polls : taken = true → ∀ n, R 0 n (takenBack n)) :
    R (1 + if taken then branchTurn (m.cpu.registers.pc + 1) (Exec.fetch m).1 else 0) m
      (branch taken m).2 := by
  refine walked.trans (walked.fetch m) ?_
  cases taken with
  | false => exact walked.refl _
  | true =>
    rw [branch_taken]
    refine walked.trans (walked.trans (polls rfl _) (walked.readAtPc _)) ?_
    unfold turnTo
    split
    · exact walked.bind (walked.read_makes _) (fun _ => walked.movePc _) _
    · exact walked.movePc _ _

theorem resetPush : Makes R 1 (Exec.resetPush (β := β)) :=
  walked.bind walked.readAtStack fun _ => walked.moveSp _

/-! ### Instructions that only move the program counter and the stack pointer -/

/-- The operand of a reading instruction and the byte there. -/
theorem readOperand (mode : Mode) (m : Machine β) :
    R (mode.accesses + mode.settling .reading (resolve mode .reading m).1 + 1) m
      (Exec.read (resolve mode .reading m).1.address (resolve mode .reading m).2).2 :=
  walked.trans (walked.resolve_at mode .reading m) (walked.read_makes _ _)

/-- The operand of an instruction that modifies memory and the byte there. -/
theorem readModified (mode : Mode) (m : Machine β) :
    R (mode.accesses + mode.indexed.toNat + 1) m
      (Exec.read (resolve mode .writing m).1.address (resolve mode .writing m).2).2 :=
  walked.trans (walked.resolve_writing mode m) (walked.read_makes _ _)

theorem jmp (indirect : Bool) :
    Makes R (Instruction.jmp indirect).accesses (execute (β := β) (.jmp indirect)) := by
  cases indirect
  · exact walked.bind walked.fetchWord fun pc => walked.movePc fun _ => pc
  · exact walked.bind walked.resolveIndirect fun pc => walked.movePc fun _ => pc

theorem jsr : Makes R 5 (execute (β := β) .jsr) :=
  walked.bind walked.fetch fun low => walked.bind walked.readAtStack fun _ =>
    walked.bind walked.registers_makes fun r => walked.bind (walked.pushWord r.pc) fun _ =>
      walked.bind walked.readAtPc fun high => walked.movePc fun _ => word high low

theorem rts : Makes R 5 (execute (β := β) .rts) :=
  walked.bind walked.readAtPc fun _ => walked.bind walked.readAtStack fun _ =>
    walked.bind walked.pullWord fun pc => walked.bind (walked.movePc fun _ => pc) fun _ =>
      walked.bind walked.readAtPc fun _ => walked.movePc fun r => r.pc + 1

theorem pha : Makes R 2 (execute (β := β) .pha) :=
  walked.bind walked.readAtPc fun _ => walked.bind walked.registers_makes fun r =>
    walked.push_makes r.a

theorem php : Makes R 2 (execute (β := β) .php) :=
  walked.bind walked.readAtPc fun _ => walked.bind walked.registers_makes fun r =>
    walked.push_makes r.p.pushedByInstruction.toByte

/-- What an instruction that pulls a byte does before it changes a register. -/
theorem pullOne : Makes R 3 (do
    let _ ← Exec.readAtPc (β := β)
    let _ ← Exec.readAtStack
    Exec.pull) :=
  walked.bind walked.readAtPc fun _ => walked.bind walked.readAtStack fun _ => walked.pull

end Machine.Walked

namespace Machine.Gauged

open Exec

variable {R : Nat → Machine β → Machine β → Prop} (gauged : Gauged R)
include gauged

/-- The accesses of each instruction behind its opcode that leaves the interrupt-disable flag as it is up to
its last access. It may change the registers behind that. -/
theorem execute_front {T : Nat → Machine β → Machine β → Prop} (ending : Ending R T) {i : Instruction}
    (late : i.masksLate = true) (m : Machine β)
    (polls : i.turns m.cpu.registers.p = true → ∀ n, R 0 n (takenBack n)) :
    ∃ n f, (execute i m).2 = { n with cpu := n.cpu.mapRegisters f } ∧
      T (i.accesses + extraAccesses i m) m n := by
  cases i with
  | read op mode =>
    have order : (Instruction.read op mode).accesses + extraAccesses (.read op mode) m =
        mode.accesses + mode.settling .reading (resolve mode .reading m).1 + 1 := by
      simp only [Instruction.accesses, extraAccesses]; omega
    rw [order]
    exact ⟨_, fun r => op.apply _ r, rfl, ending.weaken (gauged.readOperand mode m)⟩
  | store op mode =>
    exact ⟨_, id, rfl, ending.store _ _ (ending.weaken (gauged.resolve_writing mode m))⟩
  | maskedStore op mode =>
    have found := ending.weaken (gauged.resolve_writing mode m)
    refine ⟨_, id, rfl, ?_⟩
    by_cases tas : op = .tas
    · subst tas
      exact ending.store _ _ (ending.moves _ rfl found)
    · unfold execute maskedStore
      simp only [if_neg tas]
      exact ending.store _ _ found
  | modify op mode =>
    let operand := resolve mode .writing m
    let got := Exec.read operand.1.address operand.2
    have back := ending.store operand.1.address got.1 (ending.weaken (gauged.readModified mode m))
    have changed := ending.moves
      (fun _ => (op.apply got.1 (write operand.1.address got.1 got.2).2.cpu.registers).2)
      (op.apply_interruptDisable got.1 _) back
    exact ⟨_, id, rfl, ending.store operand.1.address _ changed⟩
  | accumulator op =>
    exact ⟨_, fun r => { (op.apply r.a r).2 with a := (op.apply r.a r).1 }, rfl,
      ending.weaken (gauged.readAtPc m)⟩
  | branch flag whenSet =>
    exact ⟨_, id, rfl, ending.weaken (gauged.branch_at _ m polls)⟩
  | register op => exact ⟨_, fun r => op.apply r, rfl, ending.weaken (gauged.readAtPc m)⟩
  | jmp indirect => exact ⟨_, id, rfl, ending.weaken (gauged.jmp indirect m)⟩
  | jsr => exact ⟨_, id, rfl, ending.weaken (gauged.jsr m)⟩
  | rts => exact ⟨_, id, rfl, ending.weaken (gauged.rts m)⟩
  | pha => exact ⟨_, id, rfl, ending.weaken (gauged.pha m)⟩
  | php => exact ⟨_, id, rfl, ending.weaken (gauged.php m)⟩
  | pla => exact ⟨_, fun r => r.setA _, rfl, ending.weaken (gauged.pullOne m)⟩
  | plp => exact ⟨_, fun r => r.setStatus _, rfl, ending.weaken (gauged.pullOne m)⟩
  | rti | brk | jam => contradiction

end Machine.Gauged

/-- All changes of the registers are let through. -/
theorem Machine.Metered.mapRegisters {R : Nat → Machine β → Machine β → Prop} (metered : Metered R)
    (f : Registers → Registers) : Exec.Makes R 0 (Exec.mapRegisters (β := β) f) :=
  fun m => metered.registers m f

/-- A return from a handler pulls the flags in front of its last accesses. -/
theorem Machine.Metered.rti {R : Nat → Machine β → Machine β → Prop} (metered : Metered R) :
    Exec.Makes R 5 (Exec.execute (β := β) .rti) :=
  metered.bind metered.readAtPc fun _ => metered.bind metered.readAtStack fun _ =>
    metered.bind metered.pull fun p => metered.bind (metered.mapRegisters fun r => r.setStatus p)
      fun _ => metered.bind metered.pullWord fun pc => metered.movePc fun _ => pc

namespace Machine.MeteredEntries

open Exec

variable {R T : Nat → Machine β → Machine β → Prop} (metered : MeteredEntries R)
include metered

/-- The vector is chosen together with the third push. -/
theorem enterHandler (pushed : Status → Status) :
    Makes R 5 (Exec.enterHandler (β := β) pushed) := by
  refine metered.bind_zero metered.registers_makes fun r =>
    metered.bind (k := 3) (metered.pushWord r.pc) fun _ m => ?_
  have jump (vector : UInt16) := metered.bind (metered.mapRegisters (β := β)
    Registers.disableInterrupts) fun _ => metered.bind (metered.readWord vector) fun pc =>
      metered.movePc fun _ => pc
  have rest := jump (takeVector m).1
  exact metered.trans (metered.trans (metered.vector m _) (metered.registers _ _)) (rest _)

theorem interrupt : Makes R 7 (Exec.interrupt (β := β)) :=
  metered.bind metered.readAtPc fun _ => metered.bind metered.readAtPc fun _ =>
    metered.enterHandler _

/-- The reset sequence makes seven accesses behind what it forgets. -/
theorem reset_at (m : Machine β) : R 7 (forgotten m) (Exec.reset m).2 := by
  have sequence := metered.bind metered.readAtPc fun _ => metered.bind metered.readAtPc fun _ =>
    metered.bind metered.resetPush fun _ => metered.bind metered.resetPush fun _ =>
      metered.bind metered.resetPush fun _ =>
        metered.bind (metered.mapRegisters Registers.disableInterrupts) fun _ =>
          metered.bind (metered.readWord resetVector) fun pc => metered.movePc fun _ => pc
  have counted : R 7 _ _ := sequence (forgotten m)
  unfold Exec.reset
  rw [modify_bind]
  exact counted

variable (closing : Closing R T)
include closing

/-- The accesses of each instruction behind its opcode. -/
theorem execute_at (i : Instruction) (m : Machine β)
    (polls : i.turns m.cpu.registers.p = true → ∀ n, R 0 n (takenBack n))
    (jams : i = .jam → R 0 m { m with cpu := { m.cpu with jammed := true } }) :
    T (i.accesses + extraAccesses i m) m (execute i m).2 := by
  by_cases late : i.masksLate = true
  · obtain ⟨n, f, same, counted⟩ := metered.execute_front closing.toEnding late m polls
    rw [same]
    exact closing.registers f counted
  cases i with
  | rti => exact closing.weaken (metered.rti m)
  | brk =>
    have all := metered.bind metered.fetch fun _ => metered.enterHandler Status.pushedByInstruction
    exact closing.weaken (metered.trans (all m) (metered.settle _))
  | jam => exact closing.weaken (jams rfl)
  | _ => exact absurd rfl late

/-- The accesses of a step of any kind, one that fails among them. -/
theorem step_at (m : Machine β) (polls : Turns m → ∀ n, R 0 n (takenBack n))
    (jams : Executes m .jam → ∀ n, R 0 n { n with cpu := { n.cpu with jammed := true } }) :
    T (stepAccesses m) m (step m).2 := by
  by_cases jammed : m.cpu.jammed
  · rw [stepAccesses, if_pos jammed, step_of_jammed jammed]
    exact closing.weaken (metered.read_makes _ m)
  by_cases pending : m.cpu.nmiPolled || m.cpu.irqPolled
  · rw [stepAccesses, if_neg jammed, if_pos pending, step_of_pending jammed pending]
    exact closing.weaken (metered.interrupt m)
  rw [stepAccesses, if_neg jammed, if_neg pending, step_of_ready jammed pending]
  by_cases refused : Refuses m
  · rw [instructionAccesses, if_pos refused, instruction_of_refuses refused]
    exact closing.registers _ (closing.weaken (metered.fetch m))
  · rw [instructionAccesses, if_neg refused, instruction_of_accepts refused]
    refine closing.before (metered.fetch m) (metered.execute_at closing _ _ (fun turns => polls ?_)
      fun stops => jams ⟨jammed, pending, refused, stops⟩ _)
    rw [fetch_registers] at turns
    exact ⟨_, ⟨jammed, pending, refused, rfl⟩, turns⟩

end Machine.MeteredEntries

namespace Machine.MeteredSequences

open Exec

variable {R T : Nat → Machine β → Machine β → Prop} (metered : MeteredSequences R) (closing : Closing R T)
include metered closing

theorem execute_at (i : Instruction) (m : Machine β)
    (polls : i.turns m.cpu.registers.p = true → ∀ n, R 0 n (takenBack n)) :
    T (i.accesses + extraAccesses i m) m (execute i m).2 :=
  metered.toMeteredEntries.execute_at closing i m polls fun _ => metered.jam m

theorem step_at (m : Machine β) (polls : Turns m → ∀ n, R 0 n (takenBack n)) :
    T (stepAccesses m) m (step m).2 :=
  metered.toMeteredEntries.step_at closing m polls fun _ => metered.jam

end Machine.MeteredSequences

namespace Machine.MeteredSteps

open Exec

variable {R T : Nat → Machine β → Machine β → Prop} (metered : MeteredSteps R) (closing : Closing R T)
include metered closing

/-- The accesses of a step of any kind, taken branches among them. -/
theorem step_at (m : Machine β) : T (stepAccesses m) m (step m).2 :=
  metered.toMeteredSequences.step_at closing m fun _ => metered.poll

/-- Every step begins with a read, and nine accesses at most follow. -/
theorem step_behind_read (m : Machine β) :
    ∃ address k, k ≤ 9 ∧ T k (Exec.read address m).2 (step m).2 := by
  by_cases jammed : m.cpu.jammed
  · rw [step_of_jammed jammed]
    exact ⟨0xFFFF, 0, by decide, closing.start _⟩
  by_cases pending : m.cpu.nmiPolled || m.cpu.irqPolled
  · rw [step_of_pending jammed pending]
    have rest := metered.bind metered.readAtPc fun _ => metered.enterHandler Status.pushedByInterrupt
    exact ⟨m.cpu.registers.pc, 6, by decide, closing.weaken (rest _)⟩
  · rw [step_of_ready jammed pending]
    have fetched := metered.registers (Exec.read m.cpu.registers.pc m).2 fun r =>
      { r with pc := r.pc + 1 }
    by_cases refused : Refuses m
    · rw [instruction_of_refuses refused]
      exact ⟨_, 0, by decide, closing.registers _ (closing.weaken fetched)⟩
    · rw [instruction_of_accepts refused]
      have executed := closing.before fetched
        (metered.execute_at closing (Instruction.decode (fetch m).1) (fetch m).2 fun _ => metered.poll)
      have opcode := Instruction.accesses_le (Instruction.decode (fetch m).1)
      have extra := extraAccesses_le (Instruction.decode (fetch m).1) (fetch m).2
      exact ⟨_, _, by omega, executed⟩

end Machine.MeteredSteps

end Famiclone
