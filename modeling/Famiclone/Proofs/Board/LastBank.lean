import Famiclone.Proofs.Board.WorkRam

/-!
# What shows at the end of processor space

The processor takes its vectors from the last bytes of its space, so a board has to have a program there
whatever banks are selected. Two of the boards count the bank they fix from the end of the program. The
MMC1 fixes the sixteenth bank of 16 KiB, counted modulo the number of banks, which is the last one only if
that number divides sixteen.
-/
namespace Famiclone

/-! ## The last window -/

namespace Banks

/-- The last program window shows a piece of a bank of `count` pieces. -/
def EndsWith (m : Banks) (count : Nat) (bank : Int) (piece : Nat) : Prop :=
  m.prgWindows.get 3 = bankPlace prgWindow m.prg.size count bank piece

variable {m n : Banks} {count piece : Nat} {bank : Int}

theorem EndsWith.congr (h : m.EndsWith count bank piece) (prg : n.prg = m.prg)
    (windows : n.prgWindows = m.prgWindows) : n.EndsWith count bank piece := by
  unfold EndsWith
  rw [prg, windows]
  exact h

theorem setPrg16_endsWith (some : m.prg.size ≠ 0) (bank : Int) :
    (m.setPrg16 1 bank).EndsWith 2 bank 1 :=
  (selectWindows_get _ _ some 3).trans (if_pos (by decide))

theorem EndsWith.setPrg16 (h : m.EndsWith count bank piece) (some : m.prg.size ≠ 0)
    (other : Int) : (m.setPrg16 0 other).EndsWith count bank piece :=
  ((selectWindows_get _ _ some 3).trans (if_neg (by decide))).trans h

theorem setPrg8_endsWith (some : m.prg.size ≠ 0) (bank : Int) :
    (m.setPrg8 3 bank).EndsWith 1 bank 0 :=
  (selectWindows_get _ _ some 3).trans (if_pos (by decide))

/-- Through the last window the program shows from the place of the window on. -/
theorem EndsWith.readPrg (h : m.EndsWith count bank piece) {i : Nat} (inside : i < prgWindow) :
    m.readPrg (.ofNat (0xE000 + i)) =
      m.prg.getD (bankPlace prgWindow m.prg.size count bank piece + i) 0 := by
  have bound : i < 0x2000 := inside
  have address : (UInt16.ofNat (0xE000 + i)).toNat = 0xE000 + i :=
    UInt16.toNat_ofNat_of_lt' (by show 0xE000 + i < 65536; omega)
  have window : (0xE000 + i) / prgWindow % 4 = 3 := by
    unfold prgWindow
    omega
  have rest : (0xE000 + i) % prgWindow = i := by
    unfold prgWindow
    omega
  have shown : m.prgWindows[3] = bankPlace prgWindow m.prg.size count bank piece := h
  unfold Banks.readPrg prgOffset
  simp only [address, window, rest, shown]

end Banks

/-! ## What the registers fix there -/

/-- Where the registers of a board fix the last window, it is in line with them. -/
def Board.LastInLine : Board → Prop
  | empty => True
  | latch b => b.wiring = .uxrom → b.banks.EndsWith 2 (-1) 1
  | mmc1 b => b.control.toNat / 4 % 4 = 3 → b.banks.EndsWith 2 (b.outerBank + 15 : Nat) 1
  | mmc3 b => b.banks.EndsWith 1 (-1) 0

theorem Board.LastInLine.mapBanks {f : Banks → Banks} (prg : ∀ m, (f m).prg = m.prg)
    (windows : ∀ m, (f m).prgWindows = m.prgWindows) {b : Board} (h : b.LastInLine) :
    (b.mapBanks f).LastInLine := by
  cases b with
  | empty => exact trivial
  | latch b =>
    intro wiring
    exact (h wiring).congr (prg _) (windows _)
  | mmc1 b =>
    intro mode
    have outer : Mmc1.outerBank { b with banks := f b.banks } = b.outerBank := by
      unfold Mmc1.outerBank Banks.prgBanks16
      dsimp only
      rw [prg]
    show (f b.banks).EndsWith 2 (Mmc1.outerBank { b with banks := f b.banks } + 15 : Nat) 1
    rw [outer]
    exact (h mode).congr (prg _) (windows _)
  | mmc3 b => exact Banks.EndsWith.congr h (prg _) (windows _)

theorem Board.LastInLine.writeWork {b : Board} (h : b.LastInLine) (address : UInt16)
    (value : UInt8) : (b.mapBanks fun m => m.writeWork address value).LastInLine :=
  h.mapBanks (fun m => m.writeWork_prg address value) fun m => m.writeWork_prgWindows address value

namespace LatchBoard

variable {b : LatchBoard}

theorem latch_lastInLine (some : b.banks.prg.size ≠ 0) (h : (Board.latch b).LastInLine)
    (value : UInt8) : (Board.latch (b.latch value)).LastInLine := by
  intro wiring
  rw [latch_wiring] at wiring
  have switched : b.latch value = { b with banks := b.banks.setPrg16 0 value.toNat } := by
    unfold latch
    dsimp only
    rw [wiring]
  rw [switched]
  exact (h wiring).setPrg16 some _

theorem write_lastInLine (some : b.banks.prg.size ≠ 0) (h : (Board.latch b).LastInLine)
    (address : UInt16) (value : UInt8) : (Board.latch (b.write address value)).LastInLine := by
  unfold write
  split
  · exact latch_lastInLine some h value
  · split
    · exact h.writeWork address value
    · exact h

theorem reset_lastInLine (some : b.banks.prg.size ≠ 0) (h : (Board.latch b).LastInLine) :
    (Board.latch b.reset).LastInLine := by
  unfold reset
  split
  · exact latch_lastInLine some h 0
  · exact latch_lastInLine some h 0
  · exact h

end LatchBoard

namespace Mmc1

variable {b : Mmc1}

/-- Whatever the registers hold, the windows are in line with them behind an update. -/
theorem update_lastInLine (some : b.banks.prg.size ≠ 0) : (Board.mmc1 b.update).LastInLine := by
  intro mode
  have chips := (Banks.SameChips.refl b.banks).course (update_course .refl)
  have outer : b.update.outerBank = b.outerBank := by
    unfold outerBank Banks.prgBanks16
    rw [chips.program]
    rfl
  unfold Banks.EndsWith
  rw [outer, chips.program]
  exact update_prgWindows some mode 3

theorem accept_lastInLine (some : b.banks.prg.size ≠ 0) (h : (Board.mmc1 b).LastInLine)
    (address : UInt16) (value : UInt8) : (Board.mmc1 (b.accept address value)).LastInLine := by
  unfold accept
  dsimp only
  split
  · exact update_lastInLine some
  · split
    · exact h
    · refine update_lastInLine ?_
      rw [load_banks]
      exact some

theorem write_lastInLine (some : b.banks.prg.size ≠ 0) (h : (Board.mmc1 b).LastInLine)
    (address : UInt16) (value : UInt8) : (Board.mmc1 (b.write address value)).LastInLine := by
  unfold write
  dsimp only
  split
  · split
    · exact h
    · exact accept_lastInLine (b := { b with idle := 0 }) some h address value
  · split
    · exact h.writeWork address value
    · exact h

end Mmc1

namespace Mmc3

variable {b : Mmc3}

theorem update_lastInLine (some : b.banks.prg.size ≠ 0) : (Board.mmc3 b.update).LastInLine := by
  show (b.selectChr (b.selectPrg b.banks)).EndsWith 1 (-1) 0
  have last : (b.selectPrg b.banks).EndsWith 1 (-1) 0 := by
    unfold selectPrg
    dsimp only
    refine Banks.setPrg8_endsWith ?_ (-1)
    split
    · exact some
    · exact some
  have chips := (Banks.SameChips.refl (b.selectPrg b.banks)).course (selectChr_course (b := b) .refl)
  exact last.congr chips.program (selectChr_prgWindows b _)

theorem writeRegister_lastInLine (some : b.banks.prg.size ≠ 0) (h : (Board.mmc3 b).LastInLine)
    (address : UInt16) (value : UInt8) :
    (Board.mmc3 (b.writeRegister address value)).LastInLine := by
  unfold writeRegister
  dsimp only
  split
  · exact update_lastInLine some
  · exact update_lastInLine some
  · split
    · exact h
    · exact h
  · exact h
  · exact h
  · exact h
  · exact h
  · exact h

theorem write_lastInLine (some : b.banks.prg.size ≠ 0) (h : (Board.mmc3 b).LastInLine)
    (address : UInt16) (value : UInt8) : (Board.mmc3 (b.write address value)).LastInLine := by
  unfold write
  split
  · exact writeRegister_lastInLine some h address value
  · split
    · exact h.writeWork address value
    · exact h

end Mmc3

namespace Board

/-- No change of a board moves the last window away from what the registers fix. -/
theorem LastInLine.change {b c : Board} (change : Change b c)
    (some : ∀ m, b.banks? = some m → m.prg.size ≠ 0) (h : b.LastInLine) : c.LastInLine := by
  cases change with
  | write address value =>
    cases b with
    | empty => exact trivial
    | latch b => exact LatchBoard.write_lastInLine (some _ rfl) h address value
    | mmc1 b => exact Mmc1.write_lastInLine (some _ rfl) h address value
    | mmc3 b => exact Mmc3.write_lastInLine (some _ rfl) h address value
  | writeChr address value =>
    refine h.mapBanks (fun m => ?_) (fun m => ?_)
    · unfold Banks.writeChr
      split <;> rfl
    · unfold Banks.writeChr
      split <;> rfl
  | writeWork cell value =>
    refine h.mapBanks (fun m => ?_) (fun m => ?_)
    · rfl
    · rfl
  | observe address =>
    cases b with
    | mmc3 b =>
      show Banks.EndsWith (b.observe address).banks 1 (-1) 0
      rw [Mmc3.observe_banks]
      exact h
    | _ => exact h
  | clock =>
    cases b with
    | mmc3 b =>
      show Banks.EndsWith b.clock.banks 1 (-1) 0
      rw [Mmc3.clock_banks]
      exact h
    | _ => exact h
  | reset =>
    cases b with
    | empty => exact trivial
    | latch b => exact LatchBoard.reset_lastInLine (some _ rfl) h
    | mmc1 b => exact Mmc1.update_lastInLine (some _ rfl)
    | mmc3 b => exact Mmc3.update_lastInLine (some _ rfl)

/-! ## Boards of an image -/

/-- Whether the registers of the board fix what shows at the end of processor space. -/
def fixesLast : Board → Bool
  | empty => false
  | latch b => b.wiring == .uxrom
  | mmc1 b => b.control.toNat / 4 % 4 == 3
  | mmc3 _ => true

/-- The last eight kilobytes of processor space show a program from a place on. -/
def ShowsAtEnd (b : Board) (program : Array UInt8) (place : Nat) : Prop :=
  ∀ i < prgWindow, b.readPrg (.ofNat (0xE000 + i)) = program[place + i]?

end Board

/-- The place in the program that the boards of an image fix at the end of processor space. -/
def Header.endPlace (h : Header) : Nat :=
  if h.mapper = 1 then 0x4000 * (15 % h.prgUnits) + 0x2000 else 0x4000 * h.prgUnits - 0x2000

/-- The sixteenth bank, counted around the end, is the last one of as many as divide sixteen. -/
theorem fifteenth_is_last_iff {banks : Nat} (some : 0 < banks) :
    15 % banks = banks - 1 ↔ banks ∣ 16 := by
  have below := Nat.mod_lt 15 some
  have next : 16 % banks = (15 % banks + 1) % banks := (Nat.mod_add_mod 15 banks 1).symm
  rw [Nat.dvd_iff_mod_eq_zero, next]
  constructor
  · intro last
    have full : 15 % banks + 1 = banks := by omega
    rw [full, Nat.mod_self]
  · intro full
    by_contra other
    rw [Nat.mod_eq_of_lt (by omega)] at full
    contradiction

namespace Board

theorem lastInLine_of_mapper {number : Nat} {wired : Mirroring} {banks : Banks} {b : Board}
    (known : ofMapper? number wired banks = some b) (some : banks.prg.size ≠ 0) :
    b.LastInLine := by
  unfold ofMapper? at known
  split at known <;> cases known
  case h_2 =>
    unfold Mmc1.mount
    exact Mmc1.update_lastInLine some
  case h_3 =>
    intro _
    exact Banks.setPrg16_endsWith (m := banks.setPrg16 0 0) some (-1)
  case h_5 =>
    unfold Mmc3.mount
    exact Mmc3.update_lastInLine some
  all_goals
    intro wiring
    contradiction

/-- Only three kinds of boards fix the last window. -/
theorem kinds_of_fixesLast {number : Nat} {wired : Mirroring} {banks : Banks} {fresh b : Board}
    (known : ofMapper? number wired banks = some fresh) (like : fresh.Like b)
    (fixes : b.fixesLast = true) :
    (number = 1 ∧ ∃ chip, b = mmc1 chip) ∨
      (number = 2 ∧ ∃ chip, b = latch chip ∧ chip.wiring = .uxrom) ∨
        (number = 4 ∧ ∃ chip, b = mmc3 chip) := by
  cases like with
  | @latch first chip h =>
    have wiring : first.wiring = .uxrom := h.wiring.symm.trans (beq_iff_eq.mp fixes)
    refine .inr (.inl ⟨?_, chip, rfl, h.wiring.trans wiring⟩)
    unfold ofMapper? at known
    split at known <;> cases known <;> first | rfl | contradiction
  | @mmc1 first chip h =>
    refine .inl ⟨?_, chip, rfl⟩
    unfold ofMapper? at known
    split at known <;> cases known
    rfl
  | @mmc3 first chip h =>
    refine .inr (.inr ⟨?_, chip, rfl⟩)
    unfold ofMapper? at known
    split at known <;> cases known
    rfl

theorem fixesLast_of_mapper {number : Nat} {wired : Mirroring} {banks : Banks} {fresh b : Board}
    (known : ofMapper? number wired banks = some fresh) (like : fresh.Like b)
    (kind : number = 2 ∨ number = 4) : b.fixesLast = true := by
  cases like with
  | latch h =>
    obtain rfl | rfl := kind
    · cases known
      exact beq_iff_eq.mpr h.wiring
    · cases known
  | mmc1 h => obtain rfl | rfl := kind <;> cases known
  | mmc3 h => rfl

/-- A reset of an MMC1 board, by the button or by an accepted write, fixes the second half. -/
theorem reset_fixesLast (chip : Mmc1) : (mmc1 chip.reset).fixesLast = true :=
  beq_iff_eq.mpr (Mmc1.fixed_mode chip.control)

theorem showsAtEnd_of_endsWith {b : Board} {m : Banks} {count piece : Nat} {bank : Int} {place : Nat}
    (found : b.banks? = some m) (ends : m.EndsWith count bank piece)
    (fixed : bankPlace prgWindow m.prg.size count bank piece = place)
    (inside : place + prgWindow ≤ m.prg.size) : b.ShowsAtEnd m.prg place := by
  intro i here
  have high : 0x8000 ≤ (UInt16.ofNat (0xE000 + i)).toNat := by
    have bound : i < 0x2000 := here
    rw [UInt16.toNat_ofNat_of_lt' (by show 0xE000 + i < 65536; omega)]
    omega
  rw [readPrg_of_high found high, ends.readPrg here, fixed,
    Array.getElem?_eq_getElem (show place + i < m.prg.size by omega)]
  exact congrArg some (dif_pos _)

section

variable {b : Board} {m : Banks} {banks : Nat}

/-- The last of the banks, of whatever size they are. -/
theorem showsAtEnd_of_last {piece : Nat} (found : b.banks? = some m) (some : 0 < banks)
    (size : m.prg.size = banks * (prgWindow * (piece + 1)))
    (ends : m.EndsWith (piece + 1) (-1) piece) : b.ShowsAtEnd m.prg (m.prg.size - prgWindow) := by
  have place := bankPlace_last (show 0 < prgWindow by decide) (Nat.lt_add_one piece) some
  have whole : m.prg.size =
      (banks - 1) * (prgWindow * (piece + 1)) + piece * prgWindow + prgWindow := by
    obtain ⟨before, rfl⟩ : ∃ before, banks = before + 1 := ⟨banks - 1, by omega⟩
    rw [size, Nat.add_sub_cancel]
    ring
  rw [← size] at place
  refine showsAtEnd_of_endsWith found ends ?_ ?_
  · rw [place]
    omega
  · omega

/-- The sixteenth bank of 16 KiB, counted around the end. -/
theorem showsAtEnd_of_fifteenth (found : b.banks? = some m) (some : 0 < banks)
    (size : m.prg.size = banks * (prgWindow * 2)) (ends : m.EndsWith 2 (15 : Nat) 1) :
    b.ShowsAtEnd m.prg (15 % banks * (prgWindow * 2) + 1 * prgWindow) := by
  have place := bankPlace_natCast 15 (show 0 < prgWindow by decide) (show 1 < 2 by decide) some
  have below := Nat.mod_lt 15 some
  rw [← size] at place
  refine showsAtEnd_of_endsWith found ends place ?_
  rw [size]
  unfold prgWindow
  omega

end

/-- An MMC1 board fixes the second half from the start and behind a reset, by the button or by a write
that the port accepts. -/
theorem fixesLast_of_resets {fresh b : Board} {wired : Mirroring} {banks : Banks}
    (known : ofMapper? 1 wired banks = some fresh) (like : fresh.Like b) :
    fresh.fixesLast ∧ b.reset.fixesLast ∧
      ∀ chip, b = mmc1 chip → chip.consecutive = false → ∀ (address : UInt16) (value : UInt8),
        0x8000 ≤ address → value &&& 0x80 ≠ 0 → (b.writePrg address value).fixesLast := by
  have mounted : mmc1 (.mount banks) = fresh := Option.some_inj.mp known
  refine ⟨?_, ?_, ?_⟩
  · rw [← mounted]
    exact beq_iff_eq.mpr (show (0x0C : UInt8).toNat / 4 % 4 = 3 by decide)
  · rw [← mounted] at like
    cases like with
    | mmc1 same => exact reset_fixesLast _
  · rintro chip rfl listens address value high resets
    show (mmc1 (chip.write address value)).fixesLast
    unfold Mmc1.write
    rw [if_pos high, if_neg (by rw [listens]; decide)]
    unfold Mmc1.accept
    rw [if_pos (by simpa using resets)]
    exact reset_fixesLast _

/-- That is the last bank on every board but the MMC1, and there if the number of banks divides
sixteen. -/
theorem endPlace_eq_iff {h : Header} (some : 0 < h.prgUnits) :
    h.endPlace = 0x4000 * h.prgUnits - 0x2000 ↔ (h.mapper = 1 → h.prgUnits ∣ 16) := by
  unfold Header.endPlace
  split
  · have below := Nat.mod_lt 15 some
    rw [forall_prop_of_true ‹_›, ← fifteenth_is_last_iff some]
    omega
  · exact iff_of_true rfl fun one => absurd one ‹_›

variable {image : Array UInt8} {cartridge : Cartridge} {b : Board}

theorem lastInLine_of_course (accepted : Cartridge.ofImage image = .ok cartridge)
    (course : cartridge.board.Course b) : b.LastInLine := by
  have known := Cartridge.ofImage_accepted accepted
  have some : (image.extract cartridge.header.prgStart cartridge.header.chrStart).size ≠ 0 := by
    have program := known.program
    rw [known.program_size]
    omega
  induction course with
  | refl => exact lastInLine_of_mapper known.board some
  | tail before last ih =>
    refine ih.change last ?_
    intro m found
    obtain ⟨chips, other, same⟩ := Cartridge.ofImage_chips accepted before
    rw [other, Option.some_inj] at found
    rw [← found, same.program]
    exact some

/-- Where the registers fix the end of processor space, the board shows the place that the header gives,
which is the last one of the program but on an MMC1 board whose number of banks does not divide sixteen.
UxROM and MMC3 boards always fix it, and an MMC1 board does from the start and behind a reset, by the
button or by the program. -/
theorem shows_last_bank_iff (accepted : Cartridge.ofImage image = .ok cartridge)
    (course : cartridge.board.Course b) :
    let header := cartridge.header
    let program := image.extract header.prgStart header.chrStart
    (b.fixesLast → (header.mapper = 1 → header.prgUnits ≤ 16) →
      b.ShowsAtEnd program header.endPlace ∧
        (header.endPlace = 0x4000 * header.prgUnits - 0x2000 ↔
          (header.mapper = 1 → header.prgUnits ∣ 16))) ∧
    (header.mapper = 2 ∨ header.mapper = 4 → b.fixesLast) ∧
    (header.mapper = 1 → cartridge.board.fixesLast ∧ b.reset.fixesLast ∧
      ∀ chip, b = .mmc1 chip → chip.consecutive = false → ∀ (address : UInt16) (value : UInt8),
        0x8000 ≤ address → value &&& 0x80 ≠ 0 → (b.writePrg address value).fixesLast) := by
  have known := Cartridge.ofImage_accepted accepted
  have like := (Cartridge.ofImage_mounted accepted).like.course course
  have inLine := lastInLine_of_course accepted course
  obtain ⟨m, found, chips⟩ := Cartridge.ofImage_chips accepted course
  have program : m.prg = image.extract cartridge.header.prgStart cartridge.header.chrStart :=
    chips.program
  have size : m.prg.size = cartridge.header.prgUnits * 0x4000 := by
    rw [program, known.program_size]
  have units : 0 < cartridge.header.prgUnits := Nat.pos_of_ne_zero known.program
  dsimp only
  rw [← program]
  refine ⟨fun fixes small => ⟨?_, endPlace_eq_iff units⟩, fixesLast_of_mapper known.board like, ?_⟩
  · unfold Header.endPlace
    obtain ⟨one, chip, rfl⟩ | ⟨two, chip, rfl, wiring⟩ | ⟨four, chip, rfl⟩ :=
      kinds_of_fixesLast known.board like fixes
    · cases found
      have few := small one
      have outer : chip.outerBank = 0 := by
        unfold Mmc1.outerBank Banks.prgBanks16
        rw [size, if_neg (by omega)]
      have ends := inLine (beq_iff_eq.mp fixes)
      rw [outer] at ends
      have shows : (mmc1 chip).ShowsAtEnd chip.banks.prg _ :=
        showsAtEnd_of_fifteenth rfl units size ends
      rwa [if_pos one, Nat.mul_comm]
    · cases found
      have whole : chip.banks.prg.size = cartridge.header.prgUnits * (prgWindow * (1 + 1)) := size
      have shows : (latch chip).ShowsAtEnd chip.banks.prg _ :=
        showsAtEnd_of_last rfl units whole (inLine wiring)
      rwa [if_neg (by omega), Nat.mul_comm, ← size]
    · cases found
      have halves : chip.banks.prg.size = 2 * cartridge.header.prgUnits * (prgWindow * (0 + 1)) := by
        rw [size]
        unfold prgWindow
        omega
      have shows : (mmc3 chip).ShowsAtEnd chip.banks.prg _ :=
        showsAtEnd_of_last rfl (Nat.mul_pos Nat.two_pos units) halves inLine
      rwa [if_neg (by omega), Nat.mul_comm, ← size]
  · intro one
    have board := known.board
    rw [one] at board
    exact fixesLast_of_resets board like

/-- The header of an MMC1 board with three banks of 16 KiB. -/
def threeBankHeader : Header := ⟨3, 1, 0x10, 0, 0, 0, 0, 0, 0⟩

def threeBankImage : Array UInt8 :=
  #[0x4E, 0x45, 0x53, 0x1A, 3, 1, 0x10, 0, 0, 0, 0, 0, 0, 0, 0, 0] ++
    (Array.replicate 0xA000 0 ++ Array.replicate 0x2000 1 ++ Array.replicate 0x2000 0)

theorem threeBankImage_size : threeBankImage.size = 16 + (0xA000 + 0x2000 + 0x2000) := by
  simp only [threeBankImage, Array.size_append, Array.size_replicate]
  rfl

theorem threeBankImage_program {place : Nat} (inside : place < 0xC000) :
    (threeBankImage.extract 16 (16 + 0xC000))[place]? = some (if place < 0xA000 then 0 else 1) := by
  have size : (Array.replicate 0xA000 (0 : UInt8) ++ Array.replicate 0x2000 1).size = 0xC000 := by
    rw [Array.size_append, Array.size_replicate, Array.size_replicate]
  rw [Array.getElem?_extract, if_pos (by rw [threeBankImage_size]; omega), threeBankImage,
    Array.getElem?_append_right (Nat.le_add_right 16 place)]
  change (_ : Array UInt8)[16 + place - 16]? = _
  rw [Nat.add_sub_cancel_left, Array.getElem?_append_left (by rw [size]; exact inside)]
  split
  · rw [Array.getElem?_append_left (by rwa [Array.size_replicate]), Array.getElem?_replicate,
      if_pos ‹_›]
  · rw [Array.getElem?_append_right (by rw [Array.size_replicate]; omega), Array.size_replicate,
      Array.getElem?_replicate, if_pos (by omega)]

/-- Three does not divide sixteen: the first bank shows where the last one should. -/
theorem first_bank_shows_of_three :
    ∃ cartridge, Cartridge.ofImage threeBankImage = .ok cartridge ∧ cartridge.board.fixesLast ∧
      cartridge.board.readPrg (.ofNat (0xE000 + 0)) = some 0 ∧
      (threeBankImage.extract cartridge.header.prgStart cartridge.header.chrStart)[
        0x4000 * cartridge.header.prgUnits - 0x2000]? = some 1 := by
  have parsed : Header.parse threeBankImage = .ok threeBankHeader := Cartridge.parse_append rfl _
  obtain ⟨cartridge, accepted⟩ := Cartridge.ofImage_accepts parsed (by decide)
    (by rw [threeBankImage_size]; decide) fun _ => rfl
  have header : cartridge.header = threeBankHeader :=
    Except.ok.inj ((Cartridge.ofImage_accepted accepted).header.symm.trans parsed)
  obtain ⟨shows, -, resets⟩ := shows_last_bank_iff accepted .refl
  refine ⟨cartridge, accepted, ?_⟩
  rw [header] at shows resets ⊢
  have fixes := (resets (by decide)).1
  have first := (shows fixes fun _ => by decide).1 0 (by decide)
  have start : threeBankHeader.prgStart = 16 := by decide
  have finish : threeBankHeader.chrStart = 16 + 0xC000 := by decide
  have shown : threeBankHeader.endPlace + 0 = 0x2000 := by decide
  have last : 0x4000 * threeBankHeader.prgUnits - 0x2000 = 0xA000 := by decide
  rw [start, finish, shown] at first
  rw [start, finish, last]
  exact ⟨fixes, first.trans (threeBankImage_program (by decide)),
    threeBankImage_program (by decide)⟩

end Board

end Famiclone
