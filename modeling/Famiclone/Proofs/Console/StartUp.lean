import Famiclone.Console
import Famiclone.Proofs.Board.PowerCycle

/-!
# The start sequence of a console

At power-on nothing is drawn and no transfer waits. The processor reads at the bottom of the RAM and at
the reset vector, and all that the board does meanwhile is to count cycles. So two consoles that differ
in their boards alone start alike, as long as the boards hold the same program behind the vector and
neither asks for an interrupt.
-/
namespace Famiclone

/-! ## Boards while cycles pass -/

namespace Board

@[simp] theorem readPrg_clock (b : Board) (address : UInt16) :
    b.clock.readPrg address = b.readPrg address := by
  cases b with
  | mmc3 b =>
    show (Mmc3.clock b).read address = b.read address
    unfold Mmc3.clock
    split <;> rfl
  | _ => rfl

@[simp] theorem irq_clock (b : Board) : b.clock.irq = b.irq := by
  cases b with
  | mmc3 b =>
    show (Mmc3.clock b).irqPending = b.irqPending
    unfold Mmc3.clock
    split <;> rfl
  | _ => rfl

theorem readPrg_clocks (n : Nat) (b : Board) (address : UInt16) :
    (clock^[n] b).readPrg address = b.readPrg address := by
  induction n with
  | zero => rfl
  | succ n ih => rw [Function.iterate_succ_apply', readPrg_clock, ih]

theorem irq_clocks (n : Nat) (b : Board) : (clock^[n] b).irq = b.irq := by
  induction n with
  | zero => rfl
  | succ n ih => rw [Function.iterate_succ_apply', irq_clock, ih]

end Board

/-! ## The other parts at rest -/

/-- A picture unit that does not render. -/
def PictureUnit.Dark : PictureUnit → Prop
  | full p => p.mask.renders = false
  | blank .. => True

namespace PictureUnit

/-- A dark unit leaves the board alone and goes on as with any other. -/
theorem tick_of_dark {u : PictureUnit} (dark : u.Dark) (board other : Board) :
    (u.tick board).1.Dark ∧ (u.tick board).2 = board ∧ (u.tick board).1 = (u.tick other).1 := by
  cases u with
  | blank p => exact ⟨trivial, rfl, rfl⟩
  | full p =>
    have here := Picture.tick_of_dark dark board
    have there := Picture.tick_of_dark dark other
    refine ⟨?_, ?_, ?_⟩
    · show (p.tick board).1.setup.mask.renders = false
      rw [Picture.tick_setup]
      exact dark
    · show (p.tick board).2 = board
      rw [here]
    · show full (p.tick board).1 = full (p.tick other).1
      rw [here, there]

theorem ticks_of_dark (n : Nat) {u : PictureUnit} (dark : u.Dark) (board other : Board) :
    (ticks n u board).1.Dark ∧ (ticks n u board).2 = board ∧
      (ticks n u board).1 = (ticks n u other).1 := by
  induction n generalizing u board other with
  | zero => exact ⟨dark, rfl, rfl⟩
  | succ n ih =>
    obtain ⟨dark', here, same⟩ := tick_of_dark dark board other
    have there := (tick_of_dark dark other board).2.1
    unfold ticks
    dsimp only
    rw [← same, here, there]
    exact ih dark' board other

end PictureUnit

theorem SoundChip.tick_remaining (c : SoundChip) : c.tick.delta.remaining = c.delta.remaining := by
  have timer (d : Delta) : d.clockTimer.remaining = d.remaining := by
    unfold Delta.clockTimer Delta.play
    split
    · dsimp only
      split
      · split <;> rfl
      · rfl
    · rfl
  unfold tick
  dsimp only
  split <;> split <;> exact timer _

namespace Mainboard

/-- A mainboard on which nothing is drawn and no transfer waits. -/
structure AtRest (m : Mainboard) : Prop where
  dark : m.picture.Dark
  page : m.spritePage = none
  pass : m.sound.chip.delta.remaining = 0

theorem AtRest.clock {m : Mainboard} (h : m.AtRest) : m.clock.AtRest where
  dark := (PictureUnit.ticks_of_dark _ h.dark m.board m.board).1
  page := h.page
  pass := by
    have chip : m.sound.tick.chip = m.sound.chip.tick := by
      unfold Sound.tick
      dsimp only
      split <;> rfl
    show m.sound.tick.chip.delta.remaining = 0
    rw [chip, SoundChip.tick_remaining]
    exact h.pass

/-- At rest a cycle is a cycle for the board. -/
theorem AtRest.clock_board {m : Mainboard} (h : m.AtRest) : m.clock.board = m.board.clock :=
  congrArg Board.clock (PictureUnit.ticks_of_dark _ h.dark m.board m.board).2.1

/-- At rest the other parts go on as with any other board. -/
theorem AtRest.clock_swap {m : Mainboard} (h : m.AtRest) (other : Board) :
    { m with board := other }.clock = { m.clock with board := other.clock } := by
  have dots := PictureUnit.ticks_of_dark
    ((m.remainder + m.ratio.dots) / m.ratio.cycles) h.dark other m.board
  unfold Mainboard.clock
  dsimp only
  rw [dots.2.1, dots.2.2]

theorem AtRest.takeTransfer {m : Mainboard} (h : m.AtRest) : m.takeTransfer = (none, m) := by
  have request : m.sound.chip.delta.request = none := by
    unfold Delta.request
    rw [if_neg]
    rintro ⟨-, some⟩
    rw [h.pass] at some
    exact absurd some (Nat.lt_irrefl 0)
  unfold Mainboard.takeTransfer
  rw [h.page, request]
  rfl

/-- The places that the start sequence reads. -/
def StartPlace (address : UInt16) : Prop := address.toNat < 0x2000 ∨ 0x8000 ≤ address.toNat

def startValue (m : Mainboard) (address : UInt16) : UInt8 :=
  if address.toNat < 0x2000 then m.ram.get (.ofNat 2048 address.toNat)
  else (m.board.readPrg address).getD m.openBus

theorem place_of_startPlace (profile : MemoryProfile) {address : UInt16}
    (place : StartPlace address) :
    Place.of profile address =
      if address.toNat < 0x2000 then .ram (.ofNat 2048 address.toNat) else .cartridge := by
  unfold Place.of
  dsimp only
  split
  · rfl
  · have high : 0x8000 ≤ address.toNat := place.resolve_left ‹_›
    iterate 7 rw [if_neg (by omega)]

theorem read_of_startPlace (m : Mainboard) {address : UInt16} (place : StartPlace address) :
    m.read address =
      (m.startValue address, { m with openBus := m.startValue address }.clock) := by
  have found : m.access address = (m.startValue address, m) := by
    unfold access startValue
    rw [place_of_startPlace m.profile place]
    by_cases low : address.toNat < 0x2000
    · rw [if_pos low, if_pos low]
    · rw [if_neg low, if_neg low]
  have other : address ≠ 0x4015 := by
    rintro rfl
    exact absurd place (by unfold StartPlace; decide)
  unfold read
  rw [found]
  dsimp only
  rw [if_neg other]

/-- A read of the start sequence is a cycle at rest, and finds the same with any board that holds the
same program. -/
theorem AtRest.read_swap {m : Mainboard} (h : m.AtRest) {address : UInt16}
    (place : StartPlace address) {other : Board}
    (program : 0x8000 ≤ address.toNat → other.readPrg address = m.board.readPrg address) :
    (m.read address).2.AtRest ∧ (m.read address).2.board = m.board.clock ∧
      { m with board := other }.read address =
        ((m.read address).1, { (m.read address).2 with board := other.clock }) := by
  have value : { m with board := other }.startValue address = m.startValue address := by
    unfold startValue
    split
    · rfl
    · rw [← program (place.resolve_left ‹_›)]
  have still : { m with openBus := m.startValue address }.AtRest := ⟨h.dark, h.page, h.pass⟩
  rw [read_of_startPlace m place, read_of_startPlace { m with board := other } place, value]
  refine ⟨still.clock, still.clock_board, ?_⟩
  dsimp only
  rw [← still.clock_swap other]

end Mainboard

/-! ## Two machines side by side -/

/-- Two machines in the course of the start sequence that differ in their boards alone. -/
structure Machine.Alike (b c : Board) (ports : Ports) (cycles : Nat) (m n : Machine Mainboard) :
    Prop where
  board : m.bus.board = Board.clock^[cycles] b
  twin : n = { m with bus := { m.bus with board := Board.clock^[cycles] c } }
  rest : m.bus.AtRest
  pc : m.cpu.registers.pc = 0
  ports : m.bus.ports = ports

namespace Exec

open Mainboard

variable {α γ : Type} {b c : Board}

/-- An action that takes a number of cycles of the start sequence alike with both boards. -/
def Twin (b c : Board) (cycles : Nat) (action : Exec Mainboard α) : Prop :=
  ∀ ports before m n, Machine.Alike b c ports before m n →
    (action m).1 = (action n).1 ∧ Machine.Alike b c ports (before + cycles) (action m).2 (action n).2

theorem Twin.pure (a : α) : Twin b c 0 (Pure.pure a : Exec Mainboard α) := fun _ _ _ _ h => ⟨rfl, h⟩

theorem Twin.bind {k l : Nat} {action : Exec Mainboard α} {next : α → Exec Mainboard γ}
    (first : Twin b c k action) (rest : ∀ a, Twin b c l (next a)) :
    Twin b c (k + l) (action >>= next) := by
  intro ports before m n h
  obtain ⟨same, behind⟩ := first ports before m n h
  have second := rest (action m).1 _ _ _ _ behind
  rw [Nat.add_assoc] at second
  show (next (action m).1 (action m).2).1 = (next (action n).1 (action n).2).1 ∧
    Machine.Alike b c _ _ (next (action m).1 (action m).2).2 (next (action n).1 (action n).2).2
  rw [← same]
  exact second

theorem registers_twin : Twin b c 0 registers := by
  intro ports before m n h
  refine ⟨?_, h⟩
  rw [h.twin]
  rfl

theorem mapRegisters_twin {f : Registers → Registers} (pc : ∀ r, (f r).pc = r.pc) :
    Twin b c 0 (mapRegisters f) := by
  intro ports before m n h
  refine ⟨rfl, h.board, ?_, h.rest, (pc _).trans h.pc, h.ports⟩
  rw [h.twin]
  rfl

theorem modifyGet_bind {α γ : Type} (f : Machine Mainboard → α × Machine Mainboard)
    (next : α → Exec Mainboard γ) (m : Machine Mainboard) :
    (modifyGet f >>= next : Exec Mainboard γ) m = next (f m).1 (f m).2 := rfl

/-- Where no transfer waits, nothing is served. -/
theorem serveAll_of_none (address : UInt16) (limit : Nat) {m : Machine Mainboard}
    (taken : m.bus.takeTransfer = (none, m.bus)) : serveAll address limit m = ((), m) := by
  have asked : ProcessorBus.takeTransfer m.bus = (none, m.bus) := taken
  cases limit with
  | zero => rfl
  | succ limit =>
    unfold serveAll
    rw [modifyGet_bind, asked]
    rfl

section Start

variable (program : ∀ address : UInt16, 0x8000 ≤ address.toNat →
  c.readPrg address = b.readPrg address) (irq : c.irq = b.irq)

include program irq in
theorem cycleRead_twin {address : UInt16} (place : StartPlace address) :
    Twin b c 1 (cycleRead address) := by
  intro ports before m n h
  have seen (high : 0x8000 ≤ address.toNat) : (Board.clock^[before] c).readPrg address =
      m.bus.board.readPrg address := by
    rw [h.board, Board.readPrg_clocks, Board.readPrg_clocks, program address high]
  obtain ⟨still, board, swapped⟩ := h.rest.read_swap place seen
  have next : (m.bus.read address).2.board = Board.clock^[before + 1] b := by
    rw [board, h.board, Function.iterate_succ_apply']
  have lines : { (m.bus.read address).2 with board := Board.clock^[before + 1] c }.lines =
      (m.bus.read address).2.lines := by
    unfold Mainboard.lines
    dsimp only
    rw [next, Board.irq_clocks, Board.irq_clocks, irq]
  rw [← Function.iterate_succ_apply' Board.clock before c] at swapped
  have answer : cycleRead address n = ((m.bus.read address).1,
      ⟨m.cpu.endCycle (m.bus.read address).2.lines,
        { (m.bus.read address).2 with board := Board.clock^[before + 1] c }⟩) := by
    rw [h.twin]
    show (_, _) = _
    rw [← lines]
    exact congrArg (fun r : UInt8 × Mainboard => (r.1, Machine.mk (m.cpu.endCycle r.2.lines) r.2))
      swapped
  have ports : (m.bus.read address).2.ports = ports := by
    rw [read_of_startPlace m.bus place]
    exact h.ports
  rw [answer]
  exact ⟨rfl, next, rfl, still, h.pc, ports⟩

include program irq in
/-- At rest no transfer waits, so a read is just its cycle. -/
theorem read_twin {address : UInt16} (place : StartPlace address) :
    Twin b c 1 (read address) := by
  have plain (m : Machine Mainboard) (h : m.bus.AtRest) : read address m = cycleRead address m := by
    have served := serveAll_of_none address 2 h.takeTransfer
    show cycleRead address (serveAll address 2 m).2 = _
    rw [served]
  intro ports before m n h
  have rest : n.bus.AtRest := by
    rw [h.twin]
    exact ⟨h.rest.dark, h.rest.page, h.rest.pass⟩
  rw [plain m h.rest, plain n rest]
  exact cycleRead_twin program irq place ports before m n h

include program irq in
theorem readAtPc_twin : Twin b c 1 readAtPc := by
  intro ports before m n h
  have same : n.cpu.registers.pc = 0 := by
    rw [h.twin]
    exact h.pc
  show (read m.cpu.registers.pc m).1 = (read n.cpu.registers.pc n).1 ∧
    Machine.Alike b c _ _ (read m.cpu.registers.pc m).2 (read n.cpu.registers.pc n).2
  rw [h.pc, same]
  exact read_twin program irq (.inl (by decide)) ports before m n h

include program irq in
theorem readAtStack_twin : Twin b c 1 readAtStack := by
  have low (r : Registers) : StartPlace (stackTop r) := by
    have top := r.sp.toNat_lt
    have one : (1 : UInt8).toNat = 1 := rfl
    unfold StartPlace stackTop word
    rw [UInt16.toNat_ofNat', one]
    omega
  exact Twin.bind registers_twin fun r => read_twin program irq (low r)

include program irq in
theorem resetPush_twin : Twin b c 1 resetPush := by
  have moved : Twin b c 0 (mapRegisters fun r => { r with sp := r.sp - 1 }) :=
    mapRegisters_twin fun _ => rfl
  exact Twin.bind (readAtStack_twin program irq) fun _ => moved

include program irq in
theorem readVector_twin : Twin b c 2 (readWord resetVector) :=
  Twin.bind (read_twin program irq (.inr (by decide))) fun _ =>
    Twin.bind (read_twin program irq (.inr (by decide))) fun _ => Twin.pure _

/-- The reset sequence up to the jump. -/
def untilVector : Exec Mainboard UInt16 := do
  modify forgotten
  let _ ← readAtPc
  let _ ← readAtPc
  resetPush
  resetPush
  resetPush
  mapRegisters Registers.disableInterrupts
  readWord resetVector

theorem reset_eq :
    (reset : Exec Mainboard Unit) =
      untilVector >>= fun pc => mapRegisters fun r => { r with pc } := by
  unfold reset untilVector
  simp only [bind_assoc]
  rfl

def jump (first : UInt16 × Machine Mainboard) : Machine Mainboard :=
  { first.2 with cpu := first.2.cpu.mapRegisters fun r => { r with pc := first.1 } }

theorem bind_jump (action : Exec Mainboard UInt16) (m : Machine Mainboard) :
    ((action >>= fun pc => mapRegisters fun r => { r with pc }) m).2 = jump (action m) := rfl

theorem powerOn_jump (m : Machine Mainboard) : (powerOn m).2 = jump (untilVector (cleared m)) := by
  rw [powerOn_eq, reset_eq, bind_jump]

include program irq in
theorem untilVector_twin : Twin b c startCycles untilVector := by
  have cleared : Twin b c 0 (modify forgotten) := by
    intro ports before m n h
    refine ⟨rfl, h.board, ?_, h.rest, h.pc, h.ports⟩
    rw [h.twin]
    rfl
  have disabled : Twin b c 0 (mapRegisters Registers.disableInterrupts) :=
    mapRegisters_twin fun _ => rfl
  have idle := readAtPc_twin program irq
  have push := resetPush_twin program irq
  exact Twin.bind cleared fun _ => Twin.bind idle fun _ => Twin.bind idle fun _ =>
    Twin.bind push fun _ => Twin.bind push fun _ => Twin.bind push fun _ =>
      Twin.bind disabled fun _ => readVector_twin program irq

include program irq in
/-- Behind power-on the machines differ in their boards alone, and these have counted the cycles. The
devices stay in their ports. -/
theorem powerOn_twin {m : Machine Mainboard} (rest : m.bus.AtRest) (board : m.bus.board = b) :
    (powerOn m).2.bus.board = Board.clock^[startCycles] b ∧
      (powerOn m).2.bus.ports = m.bus.ports ∧ (powerOn { m with bus := { m.bus with board := c } }).2 =
        { (powerOn m).2 with
          bus := { (powerOn m).2.bus with board := Board.clock^[startCycles] c } } := by
  have start : Machine.Alike b c m.bus.ports 0 (cleared m)
      (cleared { m with bus := { m.bus with board := c } }) := ⟨board, rfl, rest, rfl, rfl⟩
  obtain ⟨vector, behind⟩ := untilVector_twin program irq _ 0 _ _ start
  rw [Nat.zero_add] at behind
  have twin := behind.twin
  have board' := behind.board
  have ports := behind.ports
  rw [powerOn_jump, powerOn_jump]
  generalize untilVector (cleared m) = first at vector twin board' ports ⊢
  generalize untilVector (cleared { m with bus := { m.bus with board := c } }) = second
    at vector twin ⊢
  refine ⟨board', ports, ?_⟩
  unfold jump
  rw [← vector, twin]

end Start

end Exec

end Famiclone
