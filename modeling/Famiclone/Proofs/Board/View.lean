import Famiclone.Proofs.Board.Switches
import Famiclone.Proofs.Board.Windows

/-!
# What a program sees of a board

A program sees the windows, the nametables, whether the work RAM answers and takes writes, and the
state of the serial port and of the scanline counter, but not the registers behind them. Two boards of
one cartridge have the same chips, apart from what is in their RAM, and agree in whatever the program
cannot move.
-/
namespace Famiclone

/-- The serial port as a program finds it. -/
structure SerialView where
  shift : UInt8
  collected : Nat
  /-- Whether a write now is ignored. -/
  deaf : Bool
  deriving DecidableEq

/-- The scanline counter as a program finds it. -/
structure CounterView where
  latch : UInt8
  counter : UInt8
  reload : Bool
  enabled : Bool
  pending : Bool
  /-- Whether a rise of the address line would count now. -/
  armed : Bool
  deriving DecidableEq

/-- A board as a program finds it. -/
structure BoardView where
  prgWindows : Vector Nat 4
  chrWindows : Vector Nat 8
  mirroring : Mirroring
  /-- Whether the work RAM answers. -/
  workEnabled : Bool
  /-- Whether the work RAM keeps out writes. -/
  workProtected : Bool
  serial : Option SerialView
  counter : Option CounterView
  deriving DecidableEq

def LatchBoard.view (b : LatchBoard) : BoardView where
  prgWindows := b.banks.prgWindows
  chrWindows := b.banks.chrWindows
  mirroring := b.mirroring
  workEnabled := true
  workProtected := !writesWork b.wiring
  serial := none
  counter := none

def Mmc1.view (b : Mmc1) : BoardView where
  prgWindows := b.banks.prgWindows
  chrWindows := b.banks.chrWindows
  mirroring := b.mirroring
  workEnabled := b.workEnabled
  workProtected := false
  serial := some ⟨b.shift, b.collected, b.consecutive⟩
  counter := none

def Mmc3.view (b : Mmc3) : BoardView where
  prgWindows := b.banks.prgWindows
  chrWindows := b.banks.chrWindows
  mirroring := b.mirroring
  workEnabled := b.workEnabled
  workProtected := b.workProtected
  serial := none
  counter := some ⟨b.irqLatch, b.irqCounter, b.irqReload, b.irqEnabled, b.irqPending,
    !b.a12 && decide (a12LowCycles ≤ b.lowCycles.val)⟩

/-- A board as a program finds it; of an empty slot there is nothing to find. -/
def Board.view : Board → Option BoardView
  | empty => none
  | latch b => some b.view
  | mmc1 b => some b.view
  | mmc3 b => some b.view

/-! ## The chips -/

namespace Banks

/-- The same chips, apart from the contents of the RAM and the windows in force. -/
structure SameChips (b c : Banks) : Prop where
  program : c.prg = b.prg
  writable : c.chrWritable = b.chrWritable
  patterns : b.chrWritable = false → c.chr = b.chr
  patternSize : c.chr.size = b.chr.size
  workSize : c.workRam.size = b.workRam.size
  battery : c.battery = b.battery

namespace SameChips

variable {b c d : Banks}

theorem refl (b : Banks) : b.SameChips b := ⟨rfl, rfl, fun _ => rfl, rfl, rfl, rfl⟩

theorem trans (h : b.SameChips c) (k : c.SameChips d) : b.SameChips d where
  program := k.program.trans h.program
  writable := k.writable.trans h.writable
  patterns rom := (k.patterns (h.writable.trans rom)).trans (h.patterns rom)
  patternSize := k.patternSize.trans h.patternSize
  workSize := k.workSize.trans h.workSize
  battery := k.battery.trans h.battery

theorem symm (h : b.SameChips c) : c.SameChips b where
  program := h.program.symm
  writable := h.writable.symm
  patterns rom := (h.patterns (h.writable.symm.trans rom)).symm
  patternSize := h.patternSize.symm
  workSize := h.workSize.symm
  battery := h.battery.symm

/-- Other windows onto the same chips. -/
theorem windows (h : b.SameChips c) (prg : Vector Nat 4) (chr : Vector Nat 8) :
    b.SameChips { c with prgWindows := prg, chrWindows := chr } :=
  ⟨h.program, h.writable, h.patterns, h.patternSize, h.workSize, h.battery⟩

theorem writeChr (h : b.SameChips c) (address : UInt16) (value : UInt8) :
    b.SameChips (c.writeChr address value) := by
  unfold Banks.writeChr
  split
  · have ram : c.chrWritable = true := ‹_›
    refine ⟨h.program, h.writable, ?_, ?_, h.workSize, h.battery⟩
    · intro rom
      rw [h.writable, rom] at ram
      contradiction
    · dsimp only
      rw [Array.size_setIfInBounds]
      exact h.patternSize
  · exact h

theorem setWork (h : b.SameChips c) (cell : Nat) (value : UInt8) :
    b.SameChips { c with workRam := c.workRam.setIfInBounds cell value } := by
  refine ⟨h.program, h.writable, h.patterns, h.patternSize, ?_, h.battery⟩
  dsimp only
  rw [Array.size_setIfInBounds]
  exact h.workSize

theorem change (h : b.SameChips c) (change : Change c d) : b.SameChips d := by
  cases change with
  | switchPrg first count bank => exact h.windows _ _
  | switchChr first count bank => exact h.windows _ _
  | writeChr address value => exact h.writeChr address value
  | writeWork cell value => exact h.setWork cell value

/-- A board cannot exchange its chips. -/
theorem course (h : b.SameChips c) (course : c.Course d) : b.SameChips d :=
  course.keeps (fun _ _ step same => same.change step) h

end SameChips

end Banks

/-! ## Boards of one cartridge -/

/-- Whether the latch of a board moves program windows. -/
def Wiring.movesPrg : Wiring → Bool
  | .fixed | .cnrom => false
  | .uxrom | .axrom | .colorDreams | .bnrom | .gxrom => true

/-- Whether the latch of a board moves pattern windows. -/
def Wiring.movesChr : Wiring → Bool
  | .cnrom | .colorDreams | .gxrom => true
  | .fixed | .uxrom | .axrom | .bnrom => false

/-- Two latch boards of one cartridge. -/
structure LatchBoard.Like (b c : LatchBoard) : Prop where
  wiring : c.wiring = b.wiring
  chips : b.banks.SameChips c.banks
  prg : b.wiring.movesPrg = false → c.banks.prgWindows = b.banks.prgWindows
  chr : b.wiring.movesChr = false → c.banks.chrWindows = b.banks.chrWindows
  mirroring : b.wiring ≠ .axrom → c.mirroring = b.mirroring

/-- Two boards of one cartridge, in whatever state their registers are. -/
inductive Board.Like : Board → Board → Prop
  | latch {b c : LatchBoard} (h : b.Like c) : Like (.latch b) (.latch c)
  | mmc1 {b c : Mmc1} (h : b.banks.SameChips c.banks) : Like (.mmc1 b) (.mmc1 c)
  | mmc3 {b c : Mmc3} (h : b.banks.SameChips c.banks) : Like (.mmc3 b) (.mmc3 c)

namespace LatchBoard

/-! ### What the latch moves -/

theorem latch_wiring (c : LatchBoard) (value : UInt8) : (c.latch value).wiring = c.wiring := by
  unfold latch
  dsimp only
  split <;> rfl

theorem latch_prgWindows {c : LatchBoard} (fixed : c.wiring.movesPrg = false) (value : UInt8) :
    (c.latch value).banks.prgWindows = c.banks.prgWindows := by
  unfold latch
  cases w : c.wiring with
  | fixed => rfl
  | cnrom => rfl
  | _ =>
    rw [w] at fixed
    contradiction

theorem latch_chrWindows {c : LatchBoard} (fixed : c.wiring.movesChr = false) (value : UInt8) :
    (c.latch value).banks.chrWindows = c.banks.chrWindows := by
  unfold latch
  cases w : c.wiring with
  | fixed => rfl
  | uxrom => rfl
  | axrom => rfl
  | bnrom => rfl
  | _ =>
    rw [w] at fixed
    contradiction

theorem latch_mirroring {c : LatchBoard} (other : c.wiring ≠ .axrom) (value : UInt8) :
    (c.latch value).mirroring = c.mirroring := by
  unfold latch
  cases w : c.wiring with
  | axrom => exact absurd w other
  | _ => rfl

end LatchBoard

namespace LatchBoard.Like

variable {b c : LatchBoard}

theorem refl (b : LatchBoard) : b.Like b := ⟨rfl, .refl _, fun _ => rfl, fun _ => rfl, fun _ => rfl⟩

/-- A value in the latch moves only what the wiring lets it move. -/
theorem latch (h : b.Like c) (value : UInt8) : b.Like (c.latch value) where
  wiring := (latch_wiring c value).trans h.wiring
  chips := h.chips.course (c.latch_course value)
  prg fixed := (latch_prgWindows (by rw [h.wiring]; exact fixed) value).trans (h.prg fixed)
  chr fixed := (latch_chrWindows (by rw [h.wiring]; exact fixed) value).trans (h.chr fixed)
  mirroring other :=
    (latch_mirroring (by rw [h.wiring]; exact other) value).trans (h.mirroring other)

theorem setWork (h : b.Like c) (cell : Nat) (value : UInt8) :
    b.Like { c with banks := { c.banks with workRam := c.banks.workRam.setIfInBounds cell value } } :=
  ⟨h.wiring, h.chips.setWork cell value, h.prg, h.chr, h.mirroring⟩

theorem write (h : b.Like c) (address : UInt16) (value : UInt8) : b.Like (c.write address value) := by
  unfold LatchBoard.write
  split
  · exact h.latch value
  · split
    · exact h.setWork _ value
    · exact h

theorem writeChr (h : b.Like c) (address : UInt16) (value : UInt8) :
    b.Like { c with banks := c.banks.writeChr address value } := by
  have prg : (c.banks.writeChr address value).prgWindows = c.banks.prgWindows := by
    unfold Banks.writeChr
    split <;> rfl
  have chr : (c.banks.writeChr address value).chrWindows = c.banks.chrWindows := by
    unfold Banks.writeChr
    split <;> rfl
  refine ⟨h.wiring, h.chips.writeChr address value, ?_, ?_, h.mirroring⟩
  · intro fixed
    exact prg.trans (h.prg fixed)
  · intro fixed
    exact chr.trans (h.chr fixed)

theorem reset (h : b.Like c) : b.Like c.reset := by
  unfold LatchBoard.reset
  split
  · exact h.latch 0
  · exact h.latch 0
  · exact h

end LatchBoard.Like

namespace Board.Like

/-- A cartridge keeps its kind of board and its chips, whatever is done to it. -/
theorem change {fresh b c : Board} (change : Board.Change b c) (h : fresh.Like b) :
    fresh.Like c := by
  cases h with
  | latch h =>
    cases change with
    | write address value => exact .latch (h.write address value)
    | writeChr address value => exact .latch (h.writeChr address value)
    | writeWork cell value => exact .latch (h.setWork _ value)
    | observe address => exact .latch h
    | clock => exact .latch h
    | reset => exact .latch h.reset
  | mmc1 h =>
    cases change with
    | write address value => exact .mmc1 (h.course (Mmc1.write_course .refl address value))
    | writeChr address value => exact .mmc1 (h.writeChr address value)
    | writeWork cell value => exact .mmc1 (h.setWork _ value)
    | observe address => exact .mmc1 h
    | clock => exact .mmc1 h
    | reset => exact .mmc1 (h.course (Mmc1.update_course .refl))
  | @mmc3 f c h =>
    cases change with
    | write address value => exact .mmc3 (h.course (Mmc3.write_course .refl address value))
    | writeChr address value => exact .mmc3 (h.writeChr address value)
    | writeWork cell value => exact .mmc3 (h.setWork _ value)
    | observe address =>
      refine .mmc3 ?_
      rw [Mmc3.observe_banks]
      exact h
    | clock =>
      refine .mmc3 ?_
      rw [Mmc3.clock_banks]
      exact h
    | reset => exact .mmc3 (h.course (Mmc3.update_course .refl))

theorem course {fresh b c : Board} (course : b.Course c) (h : fresh.Like b) : fresh.Like c :=
  course.keeps (fun _ _ => Like.change) h

end Board.Like

/-! ## Boards with the same chips -/

/-- Two boards with the same chips, apart from the contents of the RAM. -/
def Board.SameChips (b c : Board) : Prop :=
  ∃ chips other, b.banks? = some chips ∧ c.banks? = some other ∧ chips.SameChips other

namespace Board

theorem Like.sameChips {b c : Board} (h : b.Like c) : b.SameChips c := by
  cases h with
  | latch h => exact ⟨_, _, rfl, rfl, h.chips⟩
  | mmc1 h => exact ⟨_, _, rfl, rfl, h⟩
  | mmc3 h => exact ⟨_, _, rfl, rfl, h⟩

theorem SameChips.symm {b c : Board} (h : b.SameChips c) : c.SameChips b := by
  obtain ⟨chips, other, left, right, same⟩ := h
  exact ⟨other, chips, right, left, same.symm⟩

theorem SameChips.trans {b c d : Board} (h : b.SameChips c) (k : c.SameChips d) :
    b.SameChips d := by
  obtain ⟨chips, other, left, middle, same⟩ := h
  obtain ⟨other', last, middle', right, same'⟩ := k
  rw [middle, Option.some_inj] at middle'
  rw [← middle'] at same'
  exact ⟨chips, last, left, right, same.trans same'⟩

/-! ## What a board shows of its chips -/

variable {b : Board} {banks : Banks}

theorem readPrg_of_high (found : b.banks? = some banks) {address : UInt16}
    (high : 0x8000 ≤ address.toNat) : b.readPrg address = some (banks.readPrg address) := by
  have inside : 0x8000 ≤ address := high
  cases b with
  | empty => contradiction
  | latch b =>
    cases found
    exact if_pos inside
  | mmc1 b =>
    cases found
    exact if_pos inside
  | mmc3 b =>
    cases found
    exact if_pos inside

theorem prgWindows_view (found : b.banks? = some banks) :
    b.view.map BoardView.prgWindows = some banks.prgWindows := by
  cases b with
  | empty => contradiction
  | latch b =>
    cases found
    rfl
  | mmc1 b =>
    cases found
    rfl
  | mmc3 b =>
    cases found
    rfl

end Board

end Famiclone
