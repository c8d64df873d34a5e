import Famiclone.Proofs.Cartridge.Image
import Famiclone.Proofs.Console.Clocks
import Famiclone.Proofs.Console.Playing
import Famiclone.Proofs.Console.StartUp
import Famiclone.Storage.Memory

/-!
# Does a power cycle load the cartridge again?

A power cycle brings all parts of the console back but the board, which is only reset. So it leaves the
console as loading the same image does exactly if the reset brings the board back; otherwise the
program sees other windows, and may even start elsewhere.
-/
namespace Famiclone

namespace Board

theorem started_course (b : Board) : b.Course b.started := by
  have clocks (n : Nat) (b : Board) : b.Course (clock^[n] b) := by
    induction n with
    | zero => exact .refl
    | succ n ih =>
      rw [Function.iterate_succ_apply']
      exact ih.tail (.clock _)
  exact .head (.reset b) (clocks _ _)

/-- With the same chips and the same view the program shows the same. -/
theorem readPrg_eq_of_view {b c : Board} (chips : b.SameChips c) (view : c.view = b.view)
    {address : UInt16} (high : 0x8000 ≤ address.toNat) : c.readPrg address = b.readPrg address := by
  obtain ⟨banks, other, left, right, same⟩ := chips
  have windows := prgWindows_view left
  have windows' := prgWindows_view right
  rw [view, windows, Option.some_inj] at windows'
  rw [readPrg_of_high left high, readPrg_of_high right high]
  unfold Banks.readPrg Banks.prgOffset
  rw [same.program, windows']

theorem irq_reset (b : Board) : b.reset.irq = false := by
  cases b <;> rfl

end Board

/-! ## Consoles with a cartridge in the slot -/

/-- A machine with a certain cartridge in the slot. -/
def Machine.Holds (fresh : Board) (m : Machine Mainboard) : Prop := fresh.Course m.bus.board

theorem Machine.Holds.kept (fresh : Board) : Kept (Holds fresh) where
  change change h := h.trans change.board
  reset _ h := h.tail (.reset _)
  taken _ h := h
  heard _ h := h
  moved _ _ h := h

namespace Console

/-- The region that a cartridge runs in. -/
def regionFor (c : Console) (cartridge : Cartridge) : Region :=
  c.settings.region.resolve cartridge.header.regionHint

theorem switchRegion_fixture (c : Console) (region : Region) :
    (c.switchRegion region).fixture = (c.settings, region, c.label) := by
  unfold switchRegion
  split
  next same =>
    rw [same]
    rfl
  next => rfl

@[simp] theorem switchRegion_region (c : Console) (region : Region) :
    (c.switchRegion region).region = region := (fixture_eq_iff.mp (c.switchRegion_fixture region)).2.1

@[simp] theorem switchRegion_settings (c : Console) (region : Region) :
    (c.switchRegion region).settings = c.settings :=
  (fixture_eq_iff.mp (c.switchRegion_fixture region)).1

theorem switchRegion_self (c : Console) : c.switchRegion c.region = c := by
  unfold switchRegion
  exact if_pos rfl

/-- A console with a cartridge in the slot, before it is powered on. -/
def fill (c : Console) (cartridge : Cartridge) : Console :=
  { (c.switchRegion (c.regionFor cartridge)).mapBus fun m => { m with board := cartridge.board } with
    label := some ⟨cartridge.header, cartridge.id⟩ }

theorem insert_eq (c : Console) (cartridge : Cartridge) :
    c.insert cartridge = (c.fill cartridge).powerOn := rfl

theorem load_eq {c : Console} {image : Array UInt8} {cartridge : Cartridge}
    (accepted : Cartridge.ofImage image = .ok cartridge) :
    c.orKeep (c.load image) = (c.fill cartridge).powerOn := by
  unfold load orKeep
  rw [accepted, ← insert_eq]
  rfl

/-! ## Power -/

/-- The machine on which the start sequence runs. -/
def unstarted (c : Console) : Machine Mainboard where
  cpu := { Processor.initial with strict := c.settings.strictOpcodes }
  bus := { c.machine.bus.powerOn with board := c.machine.bus.powerOn.board.reset }

theorem powerOn_machine (c : Console) : c.powerOn.machine = (Exec.powerOn c.unstarted).2 := by
  unfold powerOn unstarted
  dsimp only

theorem unstarted_atRest (c : Console) : c.unstarted.bus.AtRest := by
  have off : (⟨0⟩ : Mask).renders = false := by decide
  have dark : c.machine.bus.picture.powerOn.Dark := by
    cases c.machine.bus.picture with
    | full p => exact off
    | blank p => exact trivial
  exact ⟨dark, rfl, rfl⟩

theorem unstarted_board (c : Console) : c.unstarted.bus.board = c.bus.board.reset := rfl

/-- Behind power-on the board has been reset and has counted the cycles of the start sequence. -/
theorem powerOn_board (c : Console) : c.powerOn.bus.board = c.bus.board.started := by
  have behind := (Exec.powerOn_twin (c := c.bus.board.reset) (fun _ _ => rfl) rfl
    c.unstarted_atRest c.unstarted_board).1
  unfold bus at behind ⊢
  unfold Board.started
  rw [powerOn_machine, behind]

/-- The devices stay in their ports and keep their state while the power is off. -/
theorem powerOn_ports (c : Console) : c.powerOn.bus.ports = c.bus.ports := by
  have behind := (Exec.powerOn_twin (c := c.bus.board.reset) (fun _ _ => rfl) rfl
    c.unstarted_atRest c.unstarted_board).2.1
  unfold bus at behind ⊢
  rw [powerOn_machine, behind]
  rfl

def swap (c : Console) (board : Board) : Console := c.mapBus fun m => { m with board }

theorem swap_unstarted (c : Console) (other : Board) :
    (c.swap other).unstarted =
      { c.unstarted with bus := { c.unstarted.bus with board := other.reset } } := rfl

/-- A console starts alike with another board that holds the same program behind a reset. -/
theorem powerOn_swap_machine (c : Console) (other : Board)
    (program : ∀ address : UInt16, 0x8000 ≤ address.toNat →
      other.reset.readPrg address = c.bus.board.reset.readPrg address) :
    (c.swap other).powerOn.machine =
      { c.powerOn.machine with bus := { c.powerOn.machine.bus with board := other.started } } := by
  have irq : other.reset.irq = c.bus.board.reset.irq := by
    rw [Board.irq_reset, Board.irq_reset]
  have twin := (Exec.powerOn_twin program irq c.unstarted_atRest c.unstarted_board).2.2
  unfold Board.started
  rw [powerOn_machine, powerOn_machine, swap_unstarted, twin]

/-- Two consoles agree in all but the contents of work RAM and pattern RAM. -/
structure Agree (c d : Console) : Prop where
  processor : c.cpu = d.cpu
  /-- Internal RAM, picture unit, sound unit, ports and the other parts of the mainboard. -/
  mainboard : { c.bus with board := .empty } = { d.bus with board := .empty }
  board : c.bus.board.view = d.bus.board.view
  chips : c.bus.board.SameChips d.bus.board
  /-- Settings, label, samples, frames and listener. -/
  host : { c with machine := d.machine } = d

theorem powerOn_host (c : Console) (m : Machine Mainboard) :
    { c.powerOn with machine := m } = { c with machine := m, samples := #[], frames := 0 } := by
  unfold powerOn
  dsimp only

theorem swap_host (c : Console) (board : Board) (m : Machine Mainboard) :
    { (c.swap board).powerOn with machine := m } = { c.powerOn with machine := m } := by
  rw [powerOn_host, powerOn_host]
  rfl

/-- A power cycle does what mounting the board anew does if what the reset leaves is as mounted. -/
theorem agree_swap_iff (c : Console) {fresh : Board} (mounted : fresh.Mounted)
    (like : fresh.Like c.bus.board) :
    Agree c.powerOn (c.swap fresh).powerOn ↔ fresh.AsMounted c.bus.board := by
  have swapped : (c.swap fresh).bus.board = fresh := rfl
  rw [← Board.started_view_eq_iff mounted like]
  constructor
  · intro agree
    have view := agree.board
    rw [powerOn_board, powerOn_board, swapped] at view
    exact view
  · intro view
    have chips : fresh.started.SameChips c.bus.board.started :=
      (mounted.like.course fresh.started_course).sameChips.symm.trans
        (like.course c.bus.board.started_course).sameChips
    have started (b : Board) (address : UInt16) :
        b.started.readPrg address = b.reset.readPrg address := Board.readPrg_clocks _ _ _
    have program (address : UInt16) (high : 0x8000 ≤ address.toNat) :
        fresh.reset.readPrg address = c.bus.board.reset.readPrg address := by
      have shown := Board.readPrg_eq_of_view chips view high
      rw [started, started] at shown
      exact shown.symm
    have machine := c.powerOn_swap_machine fresh program
    have board := (c.swap fresh).powerOn_board
    rw [swapped] at board
    refine ⟨?_, ?_, ?_, ?_, ?_⟩
    · unfold cpu
      rw [machine]
    · unfold bus
      rw [machine]
    · rw [powerOn_board, board]
      exact view
    · rw [powerOn_board, board]
      exact chips.symm
    · rw [← swap_host c fresh]

/-! ## Playing between -/

theorem perform_holds {σ : Type} [Storage σ] {fresh : Board}
    {fixture : Settings × Region × Option Label} (calls : List (Call σ))
    (playing : ∀ call ∈ calls, call.Playing) {c : Console} (holds : c.machine.Holds fresh)
    (fixed : c.fixture = fixture) :
    (c.performAll calls).machine.Holds fresh ∧ (c.performAll calls).fixture = fixture := by
  refine performAll_keeps (P := fun c => c.machine.Holds fresh ∧ c.fixture = fixture)
    Call.Playing ?_ calls playing c ⟨holds, fixed⟩
  rintro c call played ⟨holds, fixed⟩
  exact ⟨(Machine.Holds.kept fresh).perform played holds, (perform_fixture c played).trans fixed⟩

theorem fill_holds (c : Console) (cartridge : Cartridge) :
    (c.fill cartridge).powerOn.machine.Holds cartridge.board := by
  have started := (Exec.powerOn_course (c.fill cartridge).unstarted).board
  rw [powerOn_machine]
  exact .head (.reset cartridge.board) started

theorem fill_fixture (c : Console) (cartridge : Cartridge) :
    (c.fill cartridge).powerOn.fixture =
      (c.settings, c.regionFor cartridge, some ⟨cartridge.header, cartridge.id⟩) := by
  rw [powerOn_fixture, fixture_eq_iff]
  exact ⟨c.switchRegion_settings _, c.switchRegion_region _, rfl⟩

/-- To put the same cartridge into the slot again is to exchange its board. -/
theorem fill_again {c : Console} {cartridge : Cartridge} (region : c.region = c.regionFor cartridge)
    (label : c.label = some ⟨cartridge.header, cartridge.id⟩) :
    c.fill cartridge = c.swap cartridge.board := by
  unfold fill swap
  rw [← region, switchRegion_self, ← label]
  rfl

/-- What is known of a console on which a cartridge has been loaded and played. -/
theorem played_holds {σ : Type} [Storage σ] (c : Console) {image : Array UInt8}
    {cartridge : Cartridge} (accepted : Cartridge.ofImage image = .ok cartridge)
    (calls : List (Call σ)) (playing : ∀ call ∈ calls, call.Playing) :
    let used := (c.orKeep (c.load image)).performAll calls
    used.machine.Holds cartridge.board ∧
      used.fixture = (c.settings, c.regionFor cartridge, some ⟨cartridge.header, cartridge.id⟩) := by
  intro used
  refine perform_holds calls playing ?_ ?_
  · rw [load_eq accepted]
    exact fill_holds c cartridge
  · rw [load_eq accepted]
    exact fill_fixture c cartridge

theorem played_like {σ : Type} [Storage σ] (c : Console) {image : Array UInt8}
    {cartridge : Cartridge} (accepted : Cartridge.ofImage image = .ok cartridge)
    (calls : List (Call σ)) (playing : ∀ call ∈ calls, call.Playing) :
    cartridge.board.Like ((c.orKeep (c.load image)).performAll calls).bus.board :=
  (Cartridge.ofImage_mounted accepted).like.course (c.played_holds accepted calls playing).1

/-- Play a cartridge in any way and switch the power off and on: the console is as after loading the
image again, but for the contents of work RAM and pattern RAM, exactly if the registers that the board
does not reset are as they were mounted. This is so for boards without a latch and for those whose
latch is reset; on the others it depends on what the program has written. -/
theorem power_cycle_reloads_iff {σ : Type} [Storage σ] (c : Console) {image : Array UInt8}
    {cartridge : Cartridge} (accepted : Cartridge.ofImage image = .ok cartridge)
    (calls : List (Call σ)) (playing : ∀ call ∈ calls, call.Playing) :
    let used := (c.orKeep (c.load image)).performAll calls
    Agree used.powerOn (used.orKeep (used.load image)) ↔
      cartridge.board.AsMounted used.bus.board := by
  intro used
  obtain ⟨settings, region, label⟩ :=
    fixture_eq_iff.mp (c.played_holds accepted calls playing).2
  have chosen : used.region = used.regionFor cartridge := by
    unfold regionFor
    rw [settings]
    exact region
  rw [load_eq accepted, fill_again chosen label]
  exact agree_swap_iff used (Cartridge.ofImage_mounted accepted)
    (c.played_like accepted calls playing)

/-- A plain cartridge comes back, whatever is played in between. -/
theorem plain_asMounted {cartridge : Cartridge} {program : List UInt8} {origin : UInt16}
    (accepted : Cartridge.ofImage (Cartridge.imageOfProgram program origin) = .ok cartridge)
    {live : Board} (like : cartridge.board.Like live) : cartridge.board.AsMounted live := by
  obtain ⟨banks, fits, known⟩ :=
    Cartridge.ofImage_board accepted (Cartridge.parse_imageOfProgram program origin)
  have board : Board.latch (.mount .fixed banks .horizontal) = cartridge.board :=
    Option.some_inj.mp known
  rw [← board] at like ⊢
  cases like with
  | latch like => exact trivial

/-- The calls of a session with a plain cartridge. -/
def session : List (Call MemoryStorage) := [.step, .update 1 (.trigger true), .runFrame, .reset, .step]

/-- The power cycle behind a session with a plain cartridge. -/
theorem power_cycle_reloads_program :
    ∃ cartridge, Cartridge.ofImage (Cartridge.imageOfProgram [0x4C, 0x00, 0x80] 0x8000) =
        .ok cartridge ∧ (∀ call ∈ session, call.Playing) ∧
      let image := Cartridge.imageOfProgram [0x4C, 0x00, 0x80] 0x8000
      let used := ((build {} .full .standard).orKeep
        ((build {} .full .standard).load image)).performAll session
      Agree used.powerOn (used.orKeep (used.load image)) := by
  obtain ⟨cartridge, accepted⟩ := Cartridge.ofImage_imageOfProgram [0x4C, 0x00, 0x80] 0x8000
  have playing : ∀ call ∈ session, call.Playing := by
    intro call mem
    simp only [session, List.mem_cons, List.not_mem_nil, or_false] at mem
    obtain rfl | rfl | rfl | rfl | rfl := mem <;> trivial
  refine ⟨cartridge, accepted, playing, ?_⟩
  have reloads := power_cycle_reloads_iff (build {} .full .standard) accepted session playing
  exact reloads.mpr (plain_asMounted accepted (played_like _ accepted session playing))

end Console

end Famiclone
