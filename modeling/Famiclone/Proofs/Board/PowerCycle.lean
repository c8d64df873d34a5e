import Famiclone.Proofs.Board.View
import Famiclone.Proofs.Cartridge.Image
import Mathlib.Data.FinEnum

/-!
# What a reset leaves on a board

At a power cycle the board in the slot is reset and not mounted anew. Some boards have no reset, and
others reset a part of their registers. For each board this module finds what the program must not have
changed for the board to come back as it was mounted, no more and no less.
-/
namespace Famiclone

/-! ## Freshly mounted boards -/

/-- The sizes of chips that a cartridge can have. -/
structure Banks.Fits (b : Banks) : Prop where
  program : 0x4000 ≤ b.prg.size
  patterns : 0 < b.chr.size
  /-- The pattern memory holds all windows, or repeats within half of them. -/
  repeats : 0x2000 ≤ b.chr.size ∨ b.chr.size ∣ 0x1000

/-- A board as it comes out of an image. -/
inductive Board.Mounted : Board → Prop
  | latch (wiring : Wiring) {banks : Banks} (wired : Mirroring) (fits : banks.Fits) :
      Mounted (.latch (.mount wiring banks wired))
  | mmc1 {banks : Banks} (fits : banks.Fits) : Mounted (.mmc1 (.mount banks))
  | mmc3 {banks : Banks} (wired : Mirroring) (fits : banks.Fits) :
      Mounted (.mmc3 (.mount banks wired))

theorem Board.Mounted.like {b : Board} (mounted : b.Mounted) : b.Like b := by
  cases mounted with
  | latch wiring wired fits => exact .latch (.refl _)
  | mmc1 fits => exact .mmc1 (.refl _)
  | mmc3 wired fits => exact .mmc3 (.refl _)

/-- Pattern RAM has one of fifteen sizes, whether the header declares it or not. -/
theorem chrRamSize_eq_shiftSize (h : Header) :
    ∃ shift : Fin 16, shift ≠ 0 ∧ h.chrRamSize = Header.shiftSize shift.val := by
  unfold Header.chrRamSize
  split
  · exact ⟨7, by decide, rfl⟩
  · have declared : h.declaredChrRam ≠ 0 := ‹_›
    unfold Header.declaredChrRam at declared ⊢
    split
    · rw [if_pos ‹_›] at declared
      refine ⟨⟨h.byte11.toNat % 16, Nat.mod_lt _ (by decide)⟩, ?_, rfl⟩
      intro none
      rw [Fin.ext_iff] at none
      exact declared (if_pos none)
    · rw [if_neg ‹_›] at declared
      contradiction

theorem shiftSize_fits : ∀ shift : Fin 16, shift ≠ 0 →
    0x2000 ≤ Header.shiftSize shift.val ∨ Header.shiftSize shift.val ∣ 0x1000 := by
  decide

theorem chrRamSize_fits (h : Header) : 0x2000 ≤ h.chrRamSize ∨ h.chrRamSize ∣ 0x1000 := by
  obtain ⟨shift, some, size⟩ := chrRamSize_eq_shiftSize h
  rw [size]
  exact shiftSize_fits shift some

theorem Banks.mount_fits (h : Header) (prg chr : Array UInt8) (program : 0x4000 ≤ prg.size)
    (patterns : chr.size = 0 ∨ 0x2000 ≤ chr.size) : (Banks.mount h prg chr).Fits := by
  have size : (Banks.mount h prg chr).chr.size =
      if chr.isEmpty then h.chrRamSize else chr.size := by
    show Array.size (if chr.isEmpty = true then Array.replicate h.chrRamSize 0 else chr) = _
    split
    · exact Array.size_replicate
    · rfl
  have ram := h.chrRamSize_pos
  refine ⟨program, ?_, ?_⟩
  · rw [size]
    split
    · exact ram
    · have some : ¬ chr.isEmpty = true := ‹_›
      rw [Array.isEmpty_iff_size_eq_zero] at some
      omega
  · rw [size]
    split
    · exact chrRamSize_fits h
    · have some : ¬ chr.isEmpty = true := ‹_›
      rw [Array.isEmpty_iff_size_eq_zero] at some
      exact .inl (by omega)

theorem Board.mounted_of_mapper {number : Nat} {wired : Mirroring} {banks : Banks} {board : Board}
    (fits : banks.Fits) (known : Board.ofMapper? number wired banks = some board) :
    board.Mounted := by
  unfold Board.ofMapper? at known
  split at known <;> cases known
  · exact .latch .fixed wired fits
  · exact .mmc1 fits
  · exact .latch .uxrom wired fits
  · exact .latch .cnrom wired fits
  · exact .mmc3 wired fits
  · exact .latch .axrom wired fits
  · exact .latch .colorDreams wired fits
  · exact .latch .bnrom wired fits
  · exact .latch .gxrom wired fits

theorem LatchBoard.mount_chips (wiring : Wiring) (banks : Banks) (wired : Mirroring) :
    banks.SameChips (mount wiring banks wired).banks :=
  (Banks.SameChips.refl banks).course (mount_course wiring banks wired)

theorem Mmc1.mount_chips (banks : Banks) : banks.SameChips (mount banks).banks :=
  (Banks.SameChips.refl banks).course (update_course .refl)

theorem Mmc3.mount_chips (banks : Banks) (wired : Mirroring) :
    banks.SameChips (mount banks wired).banks :=
  (Banks.SameChips.refl banks).course (update_course .refl)

theorem Board.chips_of_mapper {number : Nat} {wired : Mirroring} {banks : Banks} {board : Board}
    (known : Board.ofMapper? number wired banks = some board) :
    ∃ chips, board.banks? = some chips ∧ banks.SameChips chips := by
  obtain ⟨chips, found, course⟩ := Board.ofMapper?_course known
  exact ⟨chips, found, (Banks.SameChips.refl banks).course course⟩

/-- The board of an image that is accepted is the one that the header names. -/
theorem Cartridge.ofImage_board {image : Array UInt8} {cartridge : Cartridge} {h : Header}
    (accepted : ofImage image = .ok cartridge) (parsed : Header.parse image = .ok h) :
    ∃ banks : Banks, banks.Fits ∧
      Board.ofMapper? h.mapper h.mirroring banks = some cartridge.board := by
  have known := ofImage_accepted accepted
  have same : cartridge.header = h := Except.ok.inj (known.header.symm.trans parsed)
  have program := known.program
  have whole := known.whole
  have board := known.board
  rw [same] at program whole board
  have end_eq : h.romEnd = h.prgStart + h.prgUnits * 0x4000 + h.chrUnits * 0x2000 := rfl
  have start_eq : h.chrStart = h.prgStart + h.prgUnits * 0x4000 := rfl
  refine ⟨_, Banks.mount_fits h _ _ ?_ ?_, board⟩
  · rw [Array.size_extract]
    omega
  · rw [Array.size_extract]
    omega

theorem Cartridge.ofImage_mounted {image : Array UInt8} {cartridge : Cartridge}
    (accepted : ofImage image = .ok cartridge) : cartridge.board.Mounted := by
  obtain ⟨banks, fits, known⟩ := ofImage_board accepted (ofImage_accepted accepted).header
  exact Board.mounted_of_mapper fits known

/-- Every board of a cartridge has the chips of the image. -/
theorem Cartridge.chips_of_like {image : Array UInt8} {cartridge : Cartridge}
    (accepted : ofImage image = .ok cartridge) {b : Board} (like : cartridge.board.Like b) :
    ∃ chips, b.banks? = some chips ∧ (Banks.mount cartridge.header
      (image.extract cartridge.header.prgStart cartridge.header.chrStart)
      (image.extract cartridge.header.chrStart cartridge.header.romEnd)).SameChips chips := by
  obtain ⟨fresh, found, mounted⟩ := Board.chips_of_mapper (ofImage_accepted accepted).board
  obtain ⟨first, last, left, right, same⟩ := like.sameChips
  rw [found, Option.some_inj] at left
  rw [← left] at same
  exact ⟨last, right, mounted.trans same⟩

/-- The chips stay those of the image, whatever is done to the board. -/
theorem Cartridge.ofImage_chips {image : Array UInt8} {cartridge : Cartridge}
    (accepted : ofImage image = .ok cartridge) {b : Board} (course : cartridge.board.Course b) :
    ∃ chips, b.banks? = some chips ∧ (Banks.mount cartridge.header
      (image.extract cartridge.header.prgStart cartridge.header.chrStart)
      (image.extract cartridge.header.chrStart cartridge.header.romEnd)).SameChips chips :=
  chips_of_like accepted ((ofImage_mounted accepted).like.course course)

/-! ## The board behind a power cycle -/

/-- The cycles of the start sequence of the processor. -/
def startCycles : Nat := 7

def Board.started (b : Board) : Board := Board.clock^[startCycles] b.reset

@[simp] theorem Board.clocks_latch (n : Nat) (b : LatchBoard) :
    Board.clock^[n] (.latch b) = .latch b := Function.iterate_fixed rfl n

theorem Board.clocks_mmc1 (n : Nat) (b : Mmc1) :
    Board.clock^[n] (.mmc1 b) = .mmc1 { b with idle := b.idle.advance n } := by
  induction n with
  | zero =>
    rw [Counter.advance_zero]
    rfl
  | succ n ih =>
    rw [Function.iterate_succ_apply', ih]
    show Board.mmc1 (Mmc1.clock _) = _
    unfold Mmc1.clock
    dsimp only
    rw [Counter.advance_advance]

/-- While the address line is high the filter does not count cycles. -/
theorem Board.clocks_mmc3_of_high (n : Nat) {b : Mmc3} (high : b.a12 = true) :
    Board.clock^[n] (.mmc3 b) = .mmc3 b := by
  refine Function.iterate_fixed ?_ n
  show Board.mmc3 (Mmc3.clock b) = _
  unfold Mmc3.clock
  rw [if_pos high]

theorem Board.clocks_mmc3_of_low (n : Nat) {b : Mmc3} (low : b.a12 = false) :
    Board.clock^[n] (.mmc3 b) = .mmc3 { b with lowCycles := b.lowCycles.advance n } := by
  induction n with
  | zero =>
    rw [Counter.advance_zero]
    rfl
  | succ n ih =>
    rw [Function.iterate_succ_apply', ih]
    show Board.mmc3 (Mmc3.clock _) = _
    unfold Mmc3.clock
    dsimp only
    rw [if_neg (Bool.eq_false_iff.mp low), Counter.advance_advance]

/-! ## Latch boards -/

namespace Banks.SameChips

variable {banks banks' : Banks}

/-- Once all windows are moved, the chips alone tell where they are. -/
theorem setPrg32_prgWindows (h : banks.SameChips banks') (program : banks.prg.size ≠ 0) (bank : Int) :
    (banks'.setPrg32 bank).prgWindows = (banks.setPrg32 bank).prgWindows := by
  unfold Banks.setPrg32
  rw [h.program]
  exact selectWindows_all _ _ _ program (Nat.le_refl 4)

theorem setChr8_chrWindows (h : banks.SameChips banks') (patterns : banks.chr.size ≠ 0) (bank : Int) :
    (banks'.setChr8 bank).chrWindows = (banks.setChr8 bank).chrWindows := by
  unfold Banks.setChr8
  rw [h.patternSize]
  exact selectWindows_all _ _ _ patterns (Nat.le_refl 8)

end Banks.SameChips

namespace LatchBoard

/-- What a power cycle does not bring back on a latch board: where there is no reset, the windows that
the latch moves have to be where they were. -/
def AsMounted (fresh live : LatchBoard) : Prop :=
  match fresh.wiring with
  | .fixed | .axrom | .gxrom => True
  | .uxrom | .bnrom => live.banks.prgWindows = fresh.banks.prgWindows
  | .cnrom => live.banks.chrWindows = fresh.banks.chrWindows
  | .colorDreams =>
    live.banks.prgWindows = fresh.banks.prgWindows ∧
      live.banks.chrWindows = fresh.banks.chrWindows

theorem view_eq_iff {b c : LatchBoard} (wiring : c.wiring = b.wiring) :
    c.view = b.view ↔
      c.banks.prgWindows = b.banks.prgWindows ∧ c.banks.chrWindows = b.banks.chrWindows ∧
        c.mirroring = b.mirroring := by
  unfold view
  rw [wiring, BoardView.mk.injEq]
  simp only [and_true]

/-- The latch boards with a reset come back by it, and the others if they have not moved. -/
theorem reset_view_eq_iff {fresh live : LatchBoard} (like : fresh.Like live)
    (program : fresh.banks.prg.size ≠ 0) (patterns : fresh.banks.chr.size ≠ 0) :
    live.reset.view = fresh.reset.view ↔ fresh.AsMounted live := by
  have chips := like.chips
  rw [view_eq_iff (like.reset.wiring.trans ((LatchBoard.Like.refl fresh).reset.wiring).symm)]
  have kind := like.wiring
  unfold AsMounted reset
  cases w : fresh.wiring with
  | fixed =>
    rw [kind, w]
    exact iff_of_true ⟨like.prg (by rw [w]; rfl), like.chr (by rw [w]; rfl),
      like.mirroring (by rw [w]; decide)⟩ trivial
  | uxrom =>
    rw [kind, w]
    have chr := like.chr (by rw [w]; rfl)
    have mirroring := like.mirroring (by rw [w]; decide)
    exact and_iff_left ⟨chr, mirroring⟩
  | cnrom =>
    rw [kind, w]
    have prg := like.prg (by rw [w]; rfl)
    have mirroring := like.mirroring (by rw [w]; decide)
    exact ⟨fun same => same.2.1, fun chr => ⟨prg, chr, mirroring⟩⟩
  | axrom =>
    rw [kind, w]
    dsimp only
    unfold latch
    rw [kind, w]
    exact iff_of_true ⟨chips.setPrg32_prgWindows program 0, like.chr (by rw [w]; rfl), rfl⟩ trivial
  | colorDreams =>
    rw [kind, w]
    have mirroring := like.mirroring (by rw [w]; decide)
    exact ⟨fun same => ⟨same.1, same.2.1⟩, fun same => ⟨same.1, same.2, mirroring⟩⟩
  | bnrom =>
    rw [kind, w]
    have chr := like.chr (by rw [w]; rfl)
    have mirroring := like.mirroring (by rw [w]; decide)
    exact and_iff_left ⟨chr, mirroring⟩
  | gxrom =>
    rw [kind, w]
    dsimp only
    unfold latch
    rw [kind, w]
    exact iff_of_true ⟨chips.setPrg32_prgWindows program _, chips.setChr8_chrWindows patterns _,
      like.mirroring (by rw [w]; decide)⟩ trivial

end LatchBoard

/-! ## MMC1 boards -/

namespace Mmc1

/-- The first bank of the half that the pattern register chooses on a large board. -/
def outerBank (b : Mmc1) : Nat :=
  if b.banks.prgBanks16 > 16 then b.chrBank0.toNat / 16 % 2 * 16 else 0

/-- What a power cycle does not bring back on an MMC1 board: it sets the mode of the program windows
and empties the serial port, so the bank registers and the rest of the control register have to select
what they selected at first. -/
structure AsMounted (b : Mmc1) : Prop where
  prg : b.prgBank.toNat % 16 % b.banks.prgBanks16 = 0
  outer : 16 < b.banks.prgBanks16 → b.chrBank0.toNat / 16 % 2 = 0
  chr : if b.control &&& 0x10 != 0 then
      b.chrBank0.toNat % bankCount chrWindow b.banks.chr.size 4 = 0 ∧
        b.chrBank1.toNat % bankCount chrWindow b.banks.chr.size 4 =
          1 % bankCount chrWindow b.banks.chr.size 4
    else b.chrBank0.toNat / 2 % bankCount chrWindow b.banks.chr.size 8 = 0
  mirroring : b.control.toNat % 4 = 0
  work : b.workEnabled = true

theorem fixed_mode : ∀ c : UInt8, (c ||| 0x0C).toNat / 4 % 4 = 3 := by
  decide +kernel

theorem fixed_arrangement : ∀ c : UInt8, (c ||| 0x0C).toNat % 4 = c.toNat % 4 := by
  decide +kernel

theorem fixed_halves : ∀ c : UInt8, (c ||| 0x0C) &&& 0x10 = c &&& 0x10 := by
  decide +kernel

theorem selectChr_prgWindows (b : Mmc1) (banks : Banks) :
    (b.selectChr banks).prgWindows = banks.prgWindows := by
  unfold selectChr
  split <;> rfl

theorem selectPrg_chr (b : Mmc1) (banks : Banks) : (b.selectPrg banks).chr = banks.chr := by
  unfold selectPrg
  dsimp only
  split <;> rfl

/-- In the mode that a reset sets the second half of the program is fixed. -/
theorem selectPrg_of_fixed {b : Mmc1} (banks : Banks) (mode : b.control.toNat / 4 % 4 = 3) :
    b.selectPrg banks =
      let outer : Nat := if banks.prgBanks16 > 16 then b.chrBank0.toNat / 16 % 2 * 16 else 0
      (banks.setPrg16 0 (outer + b.prgBank.toNat % 16 : Nat)).setPrg16 1 (outer + 15 : Nat) := by
  unfold selectPrg
  dsimp only
  rw [mode]
  rfl

/-- In that mode the second half of the program shows the last bank of its part. -/
theorem update_prgWindows {b : Mmc1} (some : b.banks.prg.size ≠ 0)
    (mode : b.control.toNat / 4 % 4 = 3) (i : Fin 4) :
    b.update.banks.prgWindows.get i = bankPlace prgWindow b.banks.prg.size 2
      (if i.val < 2 then (b.outerBank + b.prgBank.toNat % 16 : Nat)
        else (b.outerBank + 15 : Nat) : Nat) (i.val % 2) := by
  unfold update
  dsimp only
  rw [selectChr_prgWindows, selectPrg_of_fixed _ mode]
  dsimp only [Banks.setPrg16]
  rw [selectWindows_get _ _ some, selectWindows_get _ _ some]
  by_cases low : i.val < 2
  · rw [if_neg (by omega), if_pos (by omega), if_pos low]
    have piece : i.val - 0 * 2 = i.val % 2 := by omega
    rw [piece]
    rfl
  · rw [if_pos (by omega), if_neg low]
    have piece : i.val - 1 * 2 = i.val % 2 := by omega
    rw [piece]
    rfl

/-- A reset sets that mode. -/
theorem reset_prgWindows (b : Mmc1) (some : b.banks.prg.size ≠ 0) (i : Fin 4) :
    b.reset.banks.prgWindows.get i = bankPlace prgWindow b.banks.prg.size 2
      (if i.val < 2 then (b.outerBank + b.prgBank.toNat % 16 : Nat)
        else (b.outerBank + 15 : Nat) : Nat) (i.val % 2) :=
  update_prgWindows (b := { b with shift := 0, collected := 0, control := b.control ||| 0x0C })
    some (fixed_mode _) i

/-- Behind a reset the halves of the pattern memory are switched as before. -/
theorem reset_chrWindows (b : Mmc1) (some : b.banks.chr.size ≠ 0) (i : Fin 8) :
    b.reset.banks.chrWindows.get i =
      if b.control &&& 0x10 != 0 then
        bankPlace chrWindow b.banks.chr.size 4
          (if i.val < 4 then b.chrBank0.toNat else b.chrBank1.toNat : Nat) (i.val % 4)
      else bankPlace chrWindow b.banks.chr.size 8 (b.chrBank0.toNat / 2 : Nat) i.val := by
  unfold reset update
  dsimp only
  unfold selectChr
  dsimp only
  rw [fixed_halves]
  split
  · dsimp only [Banks.setChr4]
    rw [selectPrg_chr, selectWindows_get _ _ some, selectWindows_get _ _ some]
    by_cases low : i.val < 4
    · rw [if_neg (by omega), if_pos (by omega), if_pos low]
      have piece : i.val - 0 * 4 = i.val % 4 := by omega
      rw [piece]
    · rw [if_pos (by omega), if_neg low]
      have piece : i.val - 1 * 4 = i.val % 4 := by omega
      rw [piece]
  · dsimp only [Banks.setChr8]
    rw [selectPrg_chr, selectWindows_get _ _ some, if_pos (by omega)]
    rfl

variable {banks : Banks} {b : Mmc1}

theorem mount_workEnabled (banks : Banks) : (mount banks).workEnabled = true := by
  have bank : (mount banks).prgBank = 0 := rfl
  unfold workEnabled
  rw [bank]
  decide

theorem mount_outerBank (banks : Banks) : (mount banks).outerBank = 0 := by
  have zero : (mount banks).chrBank0.toNat = 0 := rfl
  unfold outerBank
  rw [zero]
  split <;> rfl

/-- On a large board the last bank of the second half cannot pass for the last of the first. -/
theorem halves_eq_iff {n bank half : Nat} (flag : half < 2) :
    (((if n > 16 then half * 16 else 0) + bank) % n = 0 % n ∧
        ((if n > 16 then half * 16 else 0) + 15) % n = 15 % n) ↔
      bank % n = 0 ∧ (16 < n → half = 0) := by
  rw [Nat.zero_mod]
  by_cases large : n > 16
  · rw [if_pos large, Nat.mod_eq_of_lt (show 15 < n by omega)]
    constructor
    · rintro ⟨first, last⟩
      have half_eq : half = 0 := by
        by_contra other
        have one : half = 1 := by omega
        rw [one] at last
        have whole := Nat.div_add_mod (1 * 16 + 15) n
        rw [last] at whole
        have some : 0 < (1 * 16 + 15) / n := by
          refine Nat.pos_of_ne_zero fun none => ?_
          rw [none] at whole
          omega
        have bound := Nat.le_mul_of_pos_right n some
        omega
      rw [half_eq, Nat.zero_mul, Nat.zero_add] at first
      exact ⟨first, fun _ => half_eq⟩
    · rintro ⟨first, outer⟩
      rw [outer large, Nat.zero_mul, Nat.zero_add, Nat.zero_add]
      exact ⟨first, Nat.mod_eq_of_lt (by omega)⟩
  · rw [if_neg large, Nat.zero_add, Nat.zero_add]
    exact ⟨fun same => ⟨same.1, fun more => absurd more large⟩, fun same => ⟨same.1, rfl⟩⟩

/-- The program windows come back if the first bank of the first half is selected. -/
theorem prgWindows_eq_iff (fits : banks.Fits) (chips : banks.SameChips b.banks) :
    b.reset.banks.prgWindows = (mount banks).reset.banks.prgWindows ↔
      b.prgBank.toNat % 16 % b.banks.prgBanks16 = 0 ∧
        (16 < b.banks.prgBanks16 → b.chrBank0.toNat / 16 % 2 = 0) := by
  have program := fits.program
  have large : 0x4000 ≤ b.banks.prg.size := by rwa [chips.program]
  have same : (mount banks).banks.prg = b.banks.prg :=
    (mount_chips banks).program.trans chips.program.symm
  have count : bankCount prgWindow b.banks.prg.size 2 = b.banks.prgBanks16 :=
    bankCount_of_le (by decide) large
  have place (i : Fin 4) :
      b.reset.banks.prgWindows.get i = (mount banks).reset.banks.prgWindows.get i ↔
        (if i.val < 2 then b.outerBank + b.prgBank.toNat % 16 else b.outerBank + 15) %
            b.banks.prgBanks16 =
          (if i.val < 2 then 0 else 15) % b.banks.prgBanks16 := by
    have zero : (mount banks).prgBank.toNat % 16 = 0 := rfl
    rw [reset_prgWindows b (by omega), reset_prgWindows (mount banks) (by rw [same]; omega), same,
      mount_outerBank, zero, bankPlace_natCast_eq_iff _ _ (by decide) (Nat.mod_lt _ (by decide)),
      count]
  rw [windows_eq_iff]
  simp only [place]
  unfold outerBank
  rw [← halves_eq_iff (Nat.mod_lt _ (by decide))]
  constructor
  · intro all
    exact ⟨all 0, all 2⟩
  · rintro ⟨low, high⟩ i
    split
    · exact low
    · exact high

/-- At first the pattern windows show the first eight pieces. -/
theorem mount_chrWindows (patterns : 0 < (mount banks).banks.chr.size) (i : Fin 8) :
    (mount banks).reset.banks.chrWindows.get i =
      bankPlace chrWindow (mount banks).banks.chr.size 8 (0 : Nat) i.val := by
  have control : (mount banks).control = 0x0C := rfl
  have bank : (mount banks).chrBank0 = 0 := rfl
  rw [reset_chrWindows (mount banks) (by omega), control, bank, if_neg (by decide), UInt8.toNat_zero,
    Nat.zero_div]

/-- The first bank of eight pieces has the first two banks of four. -/
theorem bankPlace_halves {size : Nat} (repeats : 2 * (chrWindow * 4) ≤ size ∨ size ∣ chrWindow * 4)
    (i : Fin 8) : bankPlace chrWindow size 8 (0 : Nat) i.val =
      bankPlace chrWindow size 4 (if i.val < 4 then 0 else 1 : Nat) (i.val % 4) := by
  have place := bankPlace_zero chrWindow size 8 i.val
  by_cases low : i.val < 4
  · have piece : i.val % 4 = i.val := Nat.mod_eq_of_lt low
    rw [if_pos low, piece]
    exact place.trans (bankPlace_zero chrWindow size 4 i.val).symm
  · have piece : 4 + i.val % 4 = i.val := by omega
    have next := bankPlace_one (i.val % 4) repeats
    rw [piece] at next
    rw [if_neg low]
    exact place.trans next.symm

/-- The pattern windows come back if the switch selects the first banks, in halves or as a whole. -/
theorem chrWindows_eq_iff (fits : banks.Fits) (chips : banks.SameChips b.banks) :
    b.reset.banks.chrWindows = (mount banks).reset.banks.chrWindows ↔
      if b.control &&& 0x10 != 0 then
        b.chrBank0.toNat % bankCount chrWindow b.banks.chr.size 4 = 0 ∧
          b.chrBank1.toNat % bankCount chrWindow b.banks.chr.size 4 =
            1 % bankCount chrWindow b.banks.chr.size 4
      else b.chrBank0.toNat / 2 % bankCount chrWindow b.banks.chr.size 8 = 0 := by
  have patterns : 0 < b.banks.chr.size := by
    rw [chips.patternSize]
    exact fits.patterns
  have repeats : 2 * (chrWindow * 4) ≤ b.banks.chr.size ∨ b.banks.chr.size ∣ chrWindow * 4 := by
    rw [chips.patternSize]
    exact fits.repeats
  have same : (mount banks).banks.chr.size = b.banks.chr.size :=
    (mount_chips banks).patternSize.trans chips.patternSize.symm
  rw [windows_eq_iff]
  simp only [mount_chrWindows (same.symm ▸ patterns), same, reset_chrWindows b (by omega)]
  split
  · simp only [bankPlace_halves repeats]
    have place (i : Fin 8) (c d : Nat) : bankPlace chrWindow b.banks.chr.size 4 c (i.val % 4) =
        bankPlace chrWindow b.banks.chr.size 4 d (i.val % 4) ↔
          c % bankCount chrWindow b.banks.chr.size 4 = d % bankCount chrWindow b.banks.chr.size 4 :=
      bankPlace_natCast_eq_iff c d (by decide) (Nat.mod_lt _ (by decide))
    simp only [place]
    constructor
    · intro all
      have low := all 0
      have high := all 4
      rw [← Nat.zero_mod (bankCount chrWindow b.banks.chr.size 4)]
      exact ⟨low, high⟩
    · rintro ⟨low, high⟩ i
      split
      · rw [low, Nat.zero_mod]
      · exact high
  · have place (i : Fin 8) (c d : Nat) : bankPlace chrWindow b.banks.chr.size 8 c i.val =
        bankPlace chrWindow b.banks.chr.size 8 d i.val ↔
          c % bankCount chrWindow b.banks.chr.size 8 = d % bankCount chrWindow b.banks.chr.size 8 :=
      bankPlace_natCast_eq_iff c d (by decide) i.isLt
    simp only [place, Nat.zero_mod, forall_const]

theorem reset_mirroring_eq_iff (b : Mmc1) :
    b.reset.mirroring = .singleLower ↔ b.control.toNat % 4 = 0 := by
  show mirroring { b with control := b.control ||| 0x0C } = _ ↔ _
  unfold mirroring
  dsimp only
  rw [fixed_arrangement]
  generalize b.control.toNat % 4 = arrangement
  match arrangement with
  | 0 => exact iff_of_true rfl rfl
  | 1 => exact iff_of_false (by decide) (by decide)
  | 2 => exact iff_of_false (by decide) (by decide)
  | n + 3 => exact iff_of_false (nomatch ·) (by omega)

/-- The start sequence is long enough for the serial port to listen again. -/
theorem consecutive_of_started (b : Mmc1) :
    { b with idle := b.idle.advance startCycles }.consecutive = false := by
  unfold consecutive
  refine decide_eq_false ?_
  show ¬ min (b.idle.val + 7) 0xFFFFFFFF ≤ 1
  omega

/-- The view of a board behind a power cycle. -/
theorem started_view (b : Mmc1) : (Board.mmc1 b).started.view = some {
    prgWindows := b.reset.banks.prgWindows
    chrWindows := b.reset.banks.chrWindows
    mirroring := b.reset.mirroring
    workEnabled := b.workEnabled
    workProtected := false
    serial := some ⟨0, 0, false⟩
    counter := none } := by
  have clocked : (Board.mmc1 b).started =
      .mmc1 { b.reset with idle := b.reset.idle.advance startCycles } :=
    Board.clocks_mmc1 startCycles b.reset
  rw [clocked]
  show some (view _) = _
  unfold view
  rw [consecutive_of_started]
  rfl

theorem started_view_eq_iff (fits : banks.Fits) (chips : banks.SameChips b.banks) :
    (Board.mmc1 b).started.view = (Board.mmc1 (mount banks)).started.view ↔ b.AsMounted := by
  have control : (mount banks).control = 0x0C := rfl
  have lower : (mount banks).reset.mirroring = .singleLower :=
    (reset_mirroring_eq_iff _).mpr (by rw [control]; decide)
  rw [started_view, started_view, Option.some_inj, BoardView.mk.injEq, prgWindows_eq_iff fits chips,
    chrWindows_eq_iff fits chips, lower, mount_workEnabled, reset_mirroring_eq_iff]
  constructor
  · rintro ⟨⟨prg, outer⟩, chr, mirroring, work, -⟩
    exact ⟨prg, outer, chr, mirroring, work⟩
  · rintro ⟨prg, outer, chr, mirroring, work⟩
    exact ⟨⟨prg, outer⟩, chr, mirroring, work, rfl, rfl, rfl⟩

end Mmc1

/-! ## MMC3 boards -/

namespace Mmc3

/-- The banks that the program windows show while the select value is zero. -/
def prgBank (b : Mmc3) : Fin 4 → Int
  | 0 => (b.registers.get 6).toNat
  | 1 => (b.registers.get 7).toNat
  | 2 => -2
  | 3 => -1

def chrBank (b : Mmc3) : Fin 8 → Nat
  | 0 => (b.registers.get 0).toNat / 2 * 2
  | 1 => (b.registers.get 0).toNat / 2 * 2 + 1
  | 2 => (b.registers.get 1).toNat / 2 * 2
  | 3 => (b.registers.get 1).toNat / 2 * 2 + 1
  | 4 => (b.registers.get 2).toNat
  | 5 => (b.registers.get 3).toNat
  | 6 => (b.registers.get 4).toNat
  | 7 => (b.registers.get 5).toNat

/-- What a power cycle does not bring back on an MMC3 board: it clears the select value and silences
the interrupt, but the bank registers, the arrangement of the nametables, the protection of the work
RAM, the counter with its latch, and the level of the address line stay. -/
structure AsMounted (fresh live : Mmc3) : Prop where
  prg : ∀ i, live.prgBank i % (bankCount prgWindow live.banks.prg.size 1 : Int) =
    fresh.prgBank i % (bankCount prgWindow live.banks.prg.size 1 : Int)
  chr : ∀ i, live.chrBank i % bankCount chrWindow live.banks.chr.size 1 =
    fresh.chrBank i % bankCount chrWindow live.banks.chr.size 1
  mirroring : live.mirroring = fresh.mirroring
  enabled : live.workEnabled = true
  unprotected : live.workProtected = false
  latch : live.irqLatch = 0
  counter : live.irqCounter = 0
  reload : live.irqReload = false
  level : live.a12 = false

theorem selectChr_prgWindows (b : Mmc3) (banks : Banks) :
    (b.selectChr banks).prgWindows = banks.prgWindows := by
  have step (banks : Banks) (slot : Nat) (bank : Int) :
      (banks.setChr1 slot bank).prgWindows = banks.prgWindows := rfl
  unfold selectChr
  dsimp only
  simp only [step]

theorem selectPrg_chr (b : Mmc3) (banks : Banks) : (b.selectPrg banks).chr = banks.chr := by
  have step (banks : Banks) (slot : Nat) (bank : Int) : (banks.setPrg8 slot bank).chr = banks.chr :=
    rfl
  unfold selectPrg
  dsimp only
  split
  · simp only [step]
  · simp only [step]

/-- A switch of one window leaves the others. -/
theorem setPrg8_get {banks : Banks} (some : banks.prg.size ≠ 0) (slot : Nat) (bank : Int)
    (i : Fin 4) : (banks.setPrg8 slot bank).prgWindows.get i =
      if i.val = slot then bankPlace prgWindow banks.prg.size 1 bank 0
      else banks.prgWindows.get i := by
  unfold Banks.setPrg8
  dsimp only
  rw [selectWindows_get _ _ some]
  by_cases here : i.val = slot
  · rw [if_pos (by omega), if_pos here, here, Nat.sub_self]
  · rw [if_neg (by omega), if_neg here]

theorem reset_prgWindows (b : Mmc3) (some : b.banks.prg.size ≠ 0) (i : Fin 4) :
    b.reset.banks.prgWindows.get i =
      bankPlace prgWindow b.banks.prg.size 1 (b.prgBank i) 0 := by
  have normal : (0 : UInt8) &&& 0x40 == 0 := rfl
  unfold reset update
  dsimp only
  rw [selectChr_prgWindows]
  unfold selectPrg
  dsimp only
  rw [if_pos normal]
  have chips (banks : Banks) (slot : Nat) (bank : Int) :
      (banks.setPrg8 slot bank).prg = banks.prg := rfl
  iterate 4 rw [setPrg8_get (by simpa only [chips] using some)]
  simp only [chips]
  match i with
  | 0 => simp [prgBank]
  | 1 => simp [prgBank]
  | 2 => simp [prgBank]
  | 3 => simp [prgBank]

theorem setChr1_get {banks : Banks} (some : banks.chr.size ≠ 0) (slot : Nat) (bank : Int)
    (i : Fin 8) : (banks.setChr1 slot bank).chrWindows.get i =
      if i.val = slot then bankPlace chrWindow banks.chr.size 1 bank 0
      else banks.chrWindows.get i := by
  unfold Banks.setChr1
  dsimp only
  rw [selectWindows_get _ _ some]
  by_cases here : i.val = slot
  · rw [if_pos (by omega), if_pos here, here, Nat.sub_self]
  · rw [if_neg (by omega), if_neg here]

theorem reset_chrWindows (b : Mmc3) (some : b.banks.chr.size ≠ 0) (i : Fin 8) :
    b.reset.banks.chrWindows.get i =
      bankPlace chrWindow b.banks.chr.size 1 (b.chrBank i : Nat) 0 := by
  have normal : (0 : UInt8) &&& 0x80 == 0 := rfl
  unfold reset update
  dsimp only
  unfold selectChr
  dsimp only
  rw [if_pos normal, if_pos normal]
  have chips (banks : Banks) (slot : Nat) (bank : Int) :
      (banks.setChr1 slot bank).chr = banks.chr := rfl
  iterate 8 rw [setChr1_get (by simpa only [chips, selectPrg_chr] using some)]
  simp only [chips, selectPrg_chr]
  match i with
  | 0 => simp [chrBank]
  | 1 => simp [chrBank]
  | 2 => simp [chrBank]
  | 3 => simp [chrBank]
  | 4 => simp [chrBank]
  | 5 => simp [chrBank]
  | 6 => simp [chrBank]
  | 7 => simp [chrBank]

variable {banks : Banks} {wired : Mirroring} {b : Mmc3}

theorem prgWindows_eq_iff (fits : banks.Fits) (chips : banks.SameChips b.banks) :
    b.reset.banks.prgWindows = (mount banks wired).reset.banks.prgWindows ↔
      ∀ i, b.prgBank i % (bankCount prgWindow b.banks.prg.size 1 : Int) =
        (mount banks wired).prgBank i % (bankCount prgWindow b.banks.prg.size 1 : Int) := by
  have program := fits.program
  rw [← chips.program] at program
  have same : (mount banks wired).banks.prg = b.banks.prg :=
    (mount_chips banks wired).program.trans chips.program.symm
  rw [windows_eq_iff]
  refine forall_congr' fun i => ?_
  rw [reset_prgWindows b (by omega), reset_prgWindows (mount banks wired) (by rw [same]; omega),
    same, bankPlace_eq_iff _ _ (by decide) (by decide)]

theorem chrWindows_eq_iff (fits : banks.Fits) (chips : banks.SameChips b.banks) :
    b.reset.banks.chrWindows = (mount banks wired).reset.banks.chrWindows ↔
      ∀ i, b.chrBank i % bankCount chrWindow b.banks.chr.size 1 =
        (mount banks wired).chrBank i % bankCount chrWindow b.banks.chr.size 1 := by
  have patterns := fits.patterns
  rw [← chips.patternSize] at patterns
  have same : (mount banks wired).banks.chr.size = b.banks.chr.size :=
    (mount_chips banks wired).patternSize.trans chips.patternSize.symm
  rw [windows_eq_iff]
  refine forall_congr' fun i => ?_
  rw [reset_chrWindows b (by omega), reset_chrWindows (mount banks wired) (by rw [same]; omega),
    same, bankPlace_natCast_eq_iff _ _ (by decide) (by decide)]

/-- The view of a board behind a power cycle. The start sequence is long enough for a rise to count,
unless the address line has stayed high. -/
theorem started_view (b : Mmc3) : (Board.mmc3 b).started.view = some {
    prgWindows := b.reset.banks.prgWindows
    chrWindows := b.reset.banks.chrWindows
    mirroring := b.mirroring
    workEnabled := b.workEnabled
    workProtected := b.workProtected
    serial := none
    counter := some ⟨b.irqLatch, b.irqCounter, b.irqReload, false, false, !b.a12⟩ } := by
  unfold Board.started
  show (Board.clock^[startCycles] (.mmc3 b.reset)).view = _
  have level : b.reset.a12 = b.a12 := rfl
  cases high : b.a12 with
  | true =>
    rw [Board.clocks_mmc3_of_high _ (level.trans high)]
    show some (view _) = _
    unfold view
    rw [level, high]
    rfl
  | false =>
    rw [Board.clocks_mmc3_of_low _ (level.trans high)]
    show some (view _) = _
    unfold view
    have armed : a12LowCycles ≤ (b.reset.lowCycles.advance startCycles).val := by
      rw [Counter.val_advance, a12LowCycles, startCycles]
      omega
    dsimp only
    rw [level, high, decide_eq_true armed]
    rfl

theorem started_view_eq_iff (fits : banks.Fits) (chips : banks.SameChips b.banks) :
    (Board.mmc3 b).started.view = (Board.mmc3 (mount banks wired)).started.view ↔
      (mount banks wired).AsMounted b := by
  rw [started_view, started_view, Option.some_inj, BoardView.mk.injEq,
    prgWindows_eq_iff fits chips, chrWindows_eq_iff fits chips, Option.some_inj,
    CounterView.mk.injEq]
  constructor
  · rintro ⟨prg, chr, mirroring, enabled, unprotected, -, latch, counter, reload, -, -, armed⟩
    have level : b.a12 = false := Bool.not_inj armed
    exact ⟨prg, chr, mirroring, enabled, unprotected, latch, counter, reload, level⟩
  · rintro ⟨prg, chr, mirroring, enabled, unprotected, latch, counter, reload, level⟩
    have armed : (!b.a12) = !(mount banks wired).a12 := congrArg not level
    exact ⟨prg, chr, mirroring, enabled, unprotected, rfl, latch, counter, reload, rfl, rfl, armed⟩

end Mmc3

/-! ## Every board -/

/-- What has to be true of a board for a power cycle to bring it back as it was mounted. -/
def Board.AsMounted : Board → Board → Prop
  | latch fresh, latch live => fresh.AsMounted live
  | mmc1 _, mmc1 live => live.AsMounted
  | mmc3 fresh, mmc3 live => fresh.AsMounted live
  | _, _ => False

/-- A power cycle brings a board back for the program exactly if what the reset leaves is as it was. -/
theorem Board.started_view_eq_iff {fresh live : Board} (mounted : fresh.Mounted)
    (like : fresh.Like live) : live.started.view = fresh.started.view ↔ fresh.AsMounted live := by
  cases like with
  | @latch b c like =>
    cases mounted with
    | @latch wiring banks wired fits =>
      have chips := LatchBoard.mount_chips wiring banks wired
      have program := fits.program
      rw [← chips.program] at program
      have patterns := fits.patterns
      rw [← chips.patternSize] at patterns
      have exact_iff := LatchBoard.reset_view_eq_iff like (by omega) (by omega)
      have behind (b : LatchBoard) : (Board.latch b).started.view = some b.reset.view := by
        show (Board.clock^[startCycles] (.latch b.reset)).view = _
        rw [clocks_latch]
        rfl
      rw [behind, behind, Option.some_inj]
      exact exact_iff
  | mmc1 chips =>
    cases mounted with
    | mmc1 fits => exact Mmc1.started_view_eq_iff fits ((Mmc1.mount_chips _).trans chips)
  | mmc3 chips =>
    cases mounted with
    | mmc3 wired fits => exact Mmc3.started_view_eq_iff fits ((Mmc3.mount_chips _ wired).trans chips)

end Famiclone
