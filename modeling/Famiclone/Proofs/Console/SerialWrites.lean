import Famiclone.Proofs.Board.SerialPort
import Famiclone.Proofs.Console.StartUp
import Famiclone.Proofs.Console.Transfers

/-!
# Writes to the serial port

An instruction that modifies memory writes twice, on two cycles in a row, and no transfer can come
between. So a serial port takes the first write and misses the second one. Before its first write each
instruction has read at least twice, so what the instruction before it has written does not matter.
-/
namespace Famiclone

/-! ## Cycles without a write -/

theorem Mmc1.aged_clocks (b : Mmc1) (cycles : Nat) :
    b.aged (.replicate cycles .clock) = { b with idle := b.idle.advance cycles } := by
  induction cycles with
  | zero => simp
  | succ cycles ih => simp [List.replicate_succ, ih, happen, clock, Counter.advance_advance]

variable {chip : Mmc1}

/-- What the picture unit does in a dot does not reach the port. -/
theorem PictureUnit.ticks_mmc1 (n : Nat) (u : PictureUnit) :
    (ticks n u (Board.mmc1 chip)).2 = .mmc1 chip := by
  have deaf (heard : List UInt16) : heard.foldl PictureBus.observe (Board.mmc1 chip) = .mmc1 chip := by
    induction heard with
    | nil => rfl
    | cons address rest ih => exact ih
  induction n generalizing u with
  | zero => rfl
  | succ n ih =>
    have dot : (u.tick (Board.mmc1 chip)).2 = .mmc1 chip := by
      cases u with
      | full p => exact (p.tick_snd (Board.mmc1 chip)).trans (deaf _)
      | blank p => rfl
    simp only [ticks, dot, ih]

theorem PictureUnit.read_mmc1 (u : PictureUnit) (register : Fin 8) :
    (u.read (Board.mmc1 chip) register).2.2 = .mmc1 chip := by
  cases u with
  | blank p => rfl
  | full p =>
    have moved (p : Picture) : (p.moveOn (Board.mmc1 chip)).2 = .mmc1 chip := by
      unfold Picture.moveOn
      split <;> rfl
    have data : (p.readData (Board.mmc1 chip)).2.2 = .mmc1 chip := by
      unfold Picture.readData
      dsimp only
      split <;> exact moved _
    show (p.read (Board.mmc1 chip) register).2.2 = .mmc1 chip
    unfold Picture.read
    dsimp only
    split
    · rfl
    · rfl
    · exact data
    · rfl

namespace Mainboard

variable {m : Mainboard}

theorem clock_mmc1 (slot : m.board = .mmc1 chip) : m.clock.board = .mmc1 chip.clock := by
  unfold clock
  rw [slot]
  exact congrArg Board.clock (PictureUnit.ticks_mmc1 _ _)

/-- A read is a cycle for the board, wherever it leads. -/
theorem read_mmc1 (slot : m.board = .mmc1 chip) (address : UInt16) :
    (m.read address).2.board = .mmc1 chip.clock := by
  have found : (m.access address).2.board = .mmc1 chip := by
    unfold access
    cases Place.of m.profile address with
    | picture register =>
      simp only [readPicture, slot]
      exact PictureUnit.read_mmc1 _ register
    | _ => exact slot
  unfold read
  dsimp only
  split <;> exact clock_mmc1 found

/-- So is a write where nothing is stored on the board. -/
theorem write_mmc1 {address : UInt16} {value : UInt8}
    (stored : (m.store address value).board = .mmc1 chip) :
    (m.write address value).board = .mmc1 chip.clock :=
  clock_mmc1 (m := { m.store address value with openBus := value }) stored

/-- The picture unit keeps the data of a sprite to itself. -/
theorem store_sprite (m : Mainboard) (value : UInt8) :
    (m.store Exec.spriteData value).board = m.board := by
  have place : Place.of m.profile Exec.spriteData = .picture 4 := rfl
  unfold store writePicture
  rw [place]
  cases m.picture with
  | full p => rfl
  | blank p => rfl

theorem store_stack (m : Mainboard) (r : Registers) (value : UInt8) :
    (m.store (Exec.stackTop r) value).board = m.board := by
  have place : ∃ cell, Place.of m.profile (Exec.stackTop r) = .ram cell := by
    have low : (Exec.stackTop r).toNat < 0x2000 := by
      have page : (1 : UInt8).toNat = 1 := rfl
      have := r.sp.toNat_lt
      simp only [Exec.stackTop, word, UInt16.toNat_ofNat', page]
      omega
    exact ⟨_, if_pos low⟩
  obtain ⟨cell, found⟩ := place
  unfold store
  rw [found]

/-- A write to the program reaches the port, and a cycle follows. -/
theorem write_program (slot : m.board = .mmc1 chip) {address : UInt16} (high : 0x8000 ≤ address)
    (value : UInt8) :
    (m.write address value).board = .mmc1 (chip.aged [.clock, .write address value]) := by
  have place : Place.of m.profile address = .cartridge := by
    have above : 0x8000 ≤ address.toNat := high
    rw [place_of_startPlace m.profile (.inr above), if_neg (by omega)]
  have stored : (m.store address value).board = .mmc1 (chip.write address value) := by
    unfold store
    rw [place, slot]
    rfl
  exact write_mmc1 stored

end Mainboard

namespace Machine

/-- Cycles pass, a number of them at least, and a serial port sees nothing else. -/
def Waits (k : Nat) (m n : Machine Mainboard) : Prop :=
  ∀ chip, m.bus.board = .mmc1 chip → ∃ cycles, k ≤ cycles ∧
    n.bus.board = .mmc1 (chip.aged (.replicate cycles .clock))

namespace Waits

variable {j k : Nat} {l m n : Machine Mainboard}

theorem refl (m : Machine Mainboard) : Waits 0 m m := fun _ slot => ⟨0, le_rfl, slot⟩

theorem trans (first : Waits j l m) (second : Waits k m n) : Waits (j + k) l n := by
  intro chip slot
  obtain ⟨some, enough, between⟩ := first chip slot
  obtain ⟨more, rest, behind⟩ := second _ between
  refine ⟨more + some, by omega, ?_⟩
  rw [behind, ← Mmc1.aged_append, List.replicate_append_replicate]

theorem cycle (step : ∀ chip, m.bus.board = .mmc1 chip → n.bus.board = .mmc1 chip.clock) :
    Waits 1 m n := fun chip slot => ⟨1, le_rfl, step chip slot⟩

theorem weaken (h : Waits k m n) (le : j ≤ k) : Waits j m n := by
  intro chip slot
  obtain ⟨cycles, enough, behind⟩ := h chip slot
  exact ⟨cycles, le.trans enough, behind⟩

end Waits

theorem waits_cycleRead (m : Machine Mainboard) (address : UInt16) :
    Waits 1 m (Exec.cycleRead address m).2 :=
  .cycle fun _ slot => Mainboard.read_mmc1 slot address

/-- Transfers take as many cycles as they want. -/
theorem waits_idling : Idling fun _ => Waits 0 where
  refl := Waits.refl
  trans first second := first.trans second
  spare h := h
  read m address := (waits_cycleRead m address).weaken (Nat.zero_le 1)
  sprite m value := by
    have one : Waits 1 m (Exec.write Exec.spriteData value m).2 := .cycle fun chip slot =>
      Mainboard.write_mmc1 ((m.bus.store_sprite value).trans slot)
    exact one.weaken (Nat.zero_le 1)
  deliver m value := Waits.refl m

/-- Each access is a cycle at least. -/
theorem waits_gauged : Gauged Waits where
  refl := Waits.refl
  trans first second := first.trans second
  read m address := by
    obtain ⟨_, _, _, _, served⟩ := Exec.serves_inTurn address m
    have taken : Waits 0 m (Exec.taken m) := fun chip slot =>
      ⟨0, le_rfl, (Mainboard.takeTransfer_board m.bus).trans slot⟩
    exact (taken.trans (served (R := fun _ => Waits 0) waits_idling)).trans (waits_cycleRead _ address)
  push m value := .cycle fun chip slot =>
    Mainboard.write_mmc1 ((m.bus.store_stack _ value).trans slot)
  moves m f same := Waits.refl m

end Machine

/-! ## Two writes and one -/

/-- The instruction does nothing but store. -/
def Instruction.stores : Instruction → Bool
  | store _ _ | maskedStore _ _ => true
  | _ => false

theorem ModifyOp.apply_fst_pc (op : ModifyOp) (value : UInt8) (r : Registers) (pc : UInt16) :
    (op.apply value { r with pc }).1 = (op.apply value r).1 := by
  cases op <;> rfl

namespace Exec

variable {m : Machine Mainboard}

/-- A read of the program finds what the board shows there, whatever has come between. -/
theorem read_program (slot : m.bus.board = .mmc1 chip) {address : UInt16} (high : 0x8000 ≤ address) :
    (Exec.read address m).1 = chip.banks.readPrg address := by
  obtain ⟨_, _, _, _, served⟩ := Exec.serves_inTurn address m
  have taken : m.bus.takeTransfer.2.board = .mmc1 chip :=
    (Mainboard.takeTransfer_board m.bus).trans slot
  obtain ⟨cycles, _, there⟩ := served (R := fun _ => Machine.Waits 0) Machine.waits_idling chip taken
  have above : 0x8000 ≤ address.toNat := high
  have found : (Exec.read address m).1 = ((Exec.serveAll address 2 m).2.bus.read address).1 := rfl
  rw [found, Mainboard.read_of_startPlace _ (.inr above), Mainboard.startValue, if_neg (by omega),
    there, Mmc1.aged_clocks, Board.readPrg, Mmc1.read, if_pos high]
  rfl

/-- An instruction that modifies memory, access by access. -/
theorem execute_modify (op : ModifyOp) (mode : Mode) (m : Machine Mainboard) :
    let found := resolve mode .writing m
    let got := Exec.read found.1.address found.2
    let between := (write found.1.address got.1 got.2).2
    (execute (.modify op mode) m).2.bus =
      between.bus.write found.1.address (op.apply got.1 between.cpu.registers).1 := rfl

theorem resolved_registers (mode : Mode) (m : Machine Mainboard) : ∃ pc,
    (resolve mode .writing (fetch m).2).2.cpu.registers = { m.cpu.registers with pc } := by
  rw [resolve_registers, fetch_registers]
  exact ⟨_, rfl⟩

/-- The operand of an instruction that writes is found behind the cycles of its search. -/
theorem waits_resolved (mode : Mode) (m : Machine Mainboard) :
    Machine.Waits (1 + (mode.accesses + mode.indexed.toNat)) m
      (resolve mode .writing (fetch m).2).2 :=
  (Machine.waits_gauged.fetch m).trans (Machine.waits_gauged.resolve_writing mode _)

/-- Behind some cycles come two writes of an instruction that modifies memory: what it has found, and that
changed. -/
theorem step_modify {op : ModifyOp} {mode : Mode} (slot : m.bus.board = .mmc1 chip)
    (executes : Executes m (.modify op mode)) {address : UInt16}
    (target : (resolve mode .writing (fetch m).2).1.address = address) (high : 0x8000 ≤ address) :
    let value := chip.banks.readPrg address
    ∃ cycles, 2 ≤ cycles ∧ (step m).2.bus.board = .mmc1 ((chip.aged (.replicate cycles .clock)).aged
      [.clock, .write address (op.apply value m.cpu.registers).1, .clock, .write address value]) := by
  intro value
  have finds := waits_resolved mode m
  have step_eq : (step m).2.bus = (execute (.modify op mode) (fetch m).2).2.bus := by
    rw [step_of_executes executes]
  obtain ⟨pc, registers⟩ := resolved_registers mode m
  rw [step_eq, execute_modify, target]
  generalize (resolve mode .writing (fetch m).2).2 = found at finds registers
  have got : (Exec.read address found).1 = value := by
    obtain ⟨some, _, there⟩ := finds chip slot
    rw [read_program there high, Mmc1.aged_clocks]
  have kept : (write address value (Exec.read address found).2).2.cpu.registers =
      { m.cpu.registers with pc } := (read_registers address found).trans registers
  obtain ⟨cycles, enough, here⟩ :=
    finds.trans (Machine.waits_gauged.read_makes address found) chip slot
  have once := Mainboard.write_program here high value
  rw [got, kept, op.apply_fst_pc]
  exact ⟨cycles, by omega, Mainboard.write_program once high _⟩

/-! ## Stores -/

/-- What an instruction that stores is going to write, and where. -/
def storeOf (i : Instruction) (m : Machine Mainboard) : Option (UInt16 × UInt8) :=
  match i with
  | .store op mode =>
    let found := resolve mode .writing (fetch m).2
    some (found.1.address, op.value found.2.cpu.registers)
  | .maskedStore op mode =>
    let found := resolve mode .writing (fetch m).2
    let value := op.source found.2.cpu.registers &&& (highByte found.1.base + 1)
    some (if found.1.crosses then word value (lowByte found.1.address) else found.1.address, value)
  | _ => none

/-- An instruction that stores has read its opcode and one byte more at least. -/
theorem two_le_accesses : ∀ opcode : UInt8, (Instruction.decode opcode).stores = true →
    2 ≤ (Instruction.decode opcode).accesses := by
  decide +kernel

/-- An instruction that stores writes once, at its end. -/
theorem step_of_storeOf {i : Instruction} (executes : Executes m i) {address : UInt16}
    {value : UInt8} (stores : storeOf i m = some (address, value)) :
    ∃ n, Machine.Waits 2 m n ∧ (step m).2.bus = n.bus.write address value := by
  have step_eq : (step m).2.bus = (execute i (fetch m).2).2.bus := by
    rw [step_of_executes executes]
  have late : i.stores = true → 2 ≤ i.accesses := by
    rw [← executes.decoded]
    exact two_le_accesses _
  rw [step_eq]
  cases i with
  | store op mode =>
    obtain ⟨rfl, rfl⟩ : _ = address ∧ _ = value := by simpa [storeOf] using stores
    have enough := late rfl
    simp only [Instruction.accesses] at enough
    exact ⟨_, (waits_resolved mode m).weaken (by omega), rfl⟩
  | maskedStore op mode =>
    obtain ⟨rfl, rfl⟩ : _ = address ∧ _ = value := by simpa [storeOf] using stores
    have enough := late rfl
    simp only [Instruction.accesses] at enough
    refine ⟨_, (waits_resolved mode m).weaken (by omega), ?_⟩
    by_cases tas : op = .tas
    · subst tas
      rfl
    · unfold execute maskedStore
      simp only [if_neg tas]
      rfl
  | _ => contradiction

end Exec

/-! ## What the port takes -/

namespace Mmc1

/-- A port is ready behind two cycles without a write. -/
theorem ready_of_waited (b : Mmc1) {cycles : Nat} (enough : 2 ≤ cycles) :
    (b.aged (.replicate cycles .clock)).consecutive = false := by
  rw [aged_clocks, consecutive_iff]
  show 2 ≤ min (b.idle.val + cycles) 0xFFFFFFFF
  omega

theorem Collects.waited (h : chip.Collects) (cycles : Nat) :
    (chip.aged (.replicate cycles .clock)).Collects ∧
      (chip.aged (.replicate cycles .clock)).port = chip.port := by
  rw [aged_clocks]
  exact ⟨⟨h.room, h.bits⟩, rfl⟩

theorem collects_of_course {banks : Banks}
    (course : (Board.mmc1 (mount banks)).Course (.mmc1 chip)) : chip.Collects := by
  obtain ⟨past, gone⟩ := course.past
  rw [Board.aged_mmc1] at gone
  obtain rfl := Board.mmc1.inj gone
  exact (aged_port banks past).1

end Mmc1

/-- The port takes one write of each instruction that writes to it: the first one of an instruction that
modifies memory, which puts back what it has found, and the only one of an instruction that stores. -/
theorem Exec.step_sends_once {banks : Banks} {m : Machine Mainboard} {i : Instruction}
    (slot : m.bus.board = .mmc1 chip) (course : (Board.mmc1 (.mount banks)).Course (.mmc1 chip))
    (executes : Executes m i) :
    (∀ op mode address, i = .modify op mode →
      (resolve mode .writing (fetch m).2).1.address = address → 0x8000 ≤ address → ∃ cycles,
        let value := chip.banks.readPrg address
        let first := chip.aged (.replicate cycles .clock)
        let second := first.aged [.clock, .write address value]
        let behind := second.aged [.clock, .write address (op.apply value m.cpu.registers).1]
        (step m).2.bus.board = .mmc1 behind ∧ first.consecutive = false ∧ second.consecutive = true ∧
          behind.port = chip.port.take address value) ∧
    ∀ address value, storeOf i m = some (address, value) → 0x8000 ≤ address → ∃ cycles,
      let first := chip.aged (.replicate cycles .clock)
      let behind := first.aged [.clock, .write address value]
      (step m).2.bus.board = .mmc1 behind ∧ first.consecutive = false ∧
        behind.port = chip.port.take address value := by
  have collects := Mmc1.collects_of_course course
  constructor
  · rintro op mode address rfl target high
    obtain ⟨cycles, enough, wrote⟩ := step_modify slot executes target high
    obtain ⟨sound, same⟩ := collects.waited cycles
    have ready := chip.ready_of_waited enough
    obtain ⟨kept, taken, again⟩ := sound.taken ready high (chip.banks.readPrg address)
    refine ⟨cycles, ?_, ready, again, ?_⟩
    · rw [wrote, ← Mmc1.aged_append]
      rfl
    · rw [kept.dropped again, taken, same]
  · intro address value stores high
    obtain ⟨n, waits, wrote⟩ := step_of_storeOf executes stores
    obtain ⟨cycles, enough, here⟩ := waits chip slot
    obtain ⟨sound, same⟩ := collects.waited cycles
    have ready := chip.ready_of_waited enough
    obtain ⟨_, taken, _⟩ := sound.taken ready high value
    refine ⟨cycles, ?_, ready, ?_⟩
    · rw [wrote]
      exact Mainboard.write_program here high value
    · rw [taken, same]

/-- A processor in front of an increment of the byte behind its opcode, with a serial port in the slot. -/
def serialBench : Machine Mainboard where
  cpu := { Processor.initial with registers := { Registers.initial with pc := 0x8000 } }
  bus := { Mainboard.initial .ntsc .blank {} .standard with
    board := .mmc1 (.mount
      ⟨#[0xEE, 0x01, 0x80], #[], false, #[], false, .replicate 4 0, .replicate 8 0⟩) }

/-- The increment sends the bit that was there before. -/
theorem Exec.increment_sends_one_bit :
    ∃ chip, (step serialBench).2.bus.board = .mmc1 chip ∧ chip.port.bits = [true] := by
  have opcode : (fetch serialBench).1 = 0xEE := by decide +kernel
  have executes : Executes serialBench (.modify .inc .absolute) := by
    refine ⟨by decide, by decide, ?_, ?_⟩
    · rw [Refuses, fetch_strict]
      exact fun refused => absurd refused.1 (by decide)
    · rw [opcode]
      rfl
  have target : (resolve .absolute .writing (fetch serialBench).2).1.address = 0x8001 := by
    decide +kernel
  obtain ⟨cycles, wrote, -, -, sent⟩ :=
    (step_sends_once rfl .refl executes).1 .inc .absolute 0x8001 rfl target (by decide)
  refine ⟨_, wrote, ?_⟩
  rw [sent]
  decide

end Famiclone
