import Famiclone.Proofs.Board.Past
import Famiclone.Proofs.Board.PatternRam

/-!
# The memory map of a board

The chips keep the places that their windows show and work them out anew when a register changes. Which
places these are is told by the registers alone, whatever modes the board has been in: the map of an MMC3
board can be read off the last writes to its registers, and two MMC1 boards with the same registers have
the same map.
-/
namespace Famiclone

/-! ## The registers of the MMC3 -/

namespace Past

/-- The bank-select value in force. -/
def bankSelect : Past → UInt8
  | [] => 0
  | .reset :: _ => 0
  | e :: before => (e.written? 0x8000).getD (bankSelect before)

/-- The last value that has been written to one of the bank registers. -/
def bankRegister (i : Fin 8) : Past → UInt8
  | [] => [0, 2, 4, 5, 6, 7, 0, 1].getD i 0
  | e :: before =>
    if (bankSelect before).toNat % 8 = i then (e.written? 0x8001).getD (bankRegister i before)
    else bankRegister i before

/-- The banks of 8 KiB that the program windows show. -/
def prgBank (past : Past) (banks : Nat) : Fin 4 → Nat
  | 0 => if bit past.bankSelect 6 then banks - 2 else (past.bankRegister 6).toNat
  | 1 => (past.bankRegister 7).toNat
  | 2 => if bit past.bankSelect 6 then (past.bankRegister 6).toNat else banks - 2
  | 3 => banks - 1

/-- The banks of 1 KiB that the pattern windows show: two pairs and four singles, or the other way
round. -/
def chrBank (past : Past) (i : Fin 8) : Nat :=
  match if bit past.bankSelect 7 then i + 4 else i with
  | 0 => (past.bankRegister 0).toNat / 2 * 2
  | 1 => (past.bankRegister 0).toNat / 2 * 2 + 1
  | 2 => (past.bankRegister 1).toNat / 2 * 2
  | 3 => (past.bankRegister 1).toNat / 2 * 2 + 1
  | 4 => (past.bankRegister 2).toNat
  | 5 => (past.bankRegister 3).toNat
  | 6 => (past.bankRegister 4).toNat
  | 7 => (past.bankRegister 5).toNat

end Past

theorem Banks.writeChr_windows (m : Banks) (address : UInt16) (value : UInt8) :
    (m.writeChr address value).prgWindows = m.prgWindows ∧
      (m.writeChr address value).chrWindows = m.chrWindows := by
  unfold writeChr
  split <;> exact ⟨rfl, rfl⟩

namespace Mmc3

theorem observe_registers (b : Mmc3) (address : UInt16) :
    (b.observe address).bankSelect = b.bankSelect ∧ (b.observe address).registers = b.registers := by
  unfold observe countRise
  dsimp only
  split_ifs <;> exact ⟨rfl, rfl⟩

theorem clock_registers (b : Mmc3) :
    b.clock.bankSelect = b.bankSelect ∧ b.clock.registers = b.registers := by
  unfold clock
  split <;> exact ⟨rfl, rfl⟩

theorem happen_bankSelect (b : Mmc3) (e : BoardEvent) : (b.happen e).bankSelect =
    if e = .reset then 0 else (e.written? 0x8000).getD b.bankSelect := by
  cases e with
  | write address value =>
    obtain ⟨page, half, wrote, told⟩ := b.happen_write address value
    generalize b.happen (.write address value) = behind at wrote
    rw [told]
    cases wrote with
    | below low => simp [show page ≠ 4 by omega]
    | _ => simp [update]
  | observe address => exact (b.observe_registers address).1
  | clock => exact b.clock_registers.1
  | _ => rfl

theorem happen_register (b : Mmc3) (e : BoardEvent) (i : Fin 8) : (b.happen e).registers.get i =
    if b.bankSelect.toNat % 8 = i then (e.written? 0x8001).getD (b.registers.get i)
    else b.registers.get i := by
  cases e with
  | write address value =>
    obtain ⟨page, half, wrote, told⟩ := b.happen_write address value
    generalize b.happen (.write address value) = behind at wrote
    rw [told]
    cases wrote with
    | below low => simp [show page ≠ 4 by omega]
    | bank => simp [update, get_put, Fin.ext_iff]
    | _ => simp [update]
  | observe address => simp [happen, (b.observe_registers address).2, BoardEvent.written?]
  | clock => simp [happen, b.clock_registers.2, BoardEvent.written?]
  | _ => simp [happen, reset, update, BoardEvent.written?]

/-- The registers of a board are those that its past tells. -/
theorem aged_registers (banks : Banks) (wired : Mirroring) (past : Past) :
    ((mount banks wired).aged past).bankSelect = past.bankSelect ∧
      ∀ i, ((mount banks wired).aged past).registers.get i = past.bankRegister i := by
  induction past with
  | nil => exact ⟨rfl, fun i => by fin_cases i <;> rfl⟩
  | cons e before ih =>
    obtain ⟨select, registers⟩ := ih
    constructor
    · rw [aged_cons, happen_bankSelect, select]
      cases e <;> rfl
    · intro i
      rw [aged_cons, happen_register, select, registers, Past.bankRegister]

/-! ## The windows of the MMC3 -/

/-- The banks that the registers select for the program windows. -/
def prgChoice (b : Mmc3) : Fin 4 → Int
  | 0 => if bit b.bankSelect 6 then -2 else (b.registers.get 6).toNat
  | 1 => (b.registers.get 7).toNat
  | 2 => if bit b.bankSelect 6 then (b.registers.get 6).toNat else -2
  | 3 => -1

/-- The banks that the registers select for the pattern windows. -/
def chrChoice (b : Mmc3) (i : Fin 8) : Nat := b.chrBank (if bit b.bankSelect 7 then i + 4 else i)

/-- The windows show what the registers select. -/
structure InLine (b : Mmc3) : Prop where
  prg : ∀ i, b.banks.prgWindows.get i =
    bankPlace prgWindow b.banks.prg.size 1 (b.prgChoice i) 0
  chr : ∀ i, b.banks.chrWindows.get i =
    bankPlace chrWindow b.banks.chr.size 1 (b.chrChoice i) 0

theorem select_bits : ∀ select : UInt8, (select &&& 0x40 == 0) = !bit select 6 ∧
    (select &&& 0x80 == 0) = !bit select 7 := by
  decide +kernel

/-- Behind an update all windows are in line, wherever they have been. -/
theorem update_inLine (b : Mmc3) (program : b.banks.prg.size ≠ 0) (patterns : b.banks.chr.size ≠ 0) :
    b.update.InLine := by
  have chips := (Banks.SameChips.refl b.banks).course (update_course .refl)
  have prg (banks : Banks) (slot : Nat) (bank : Int) : (banks.setPrg8 slot bank).prg = banks.prg := rfl
  have chr (banks : Banks) (slot : Nat) (bank : Int) : (banks.setChr1 slot bank).chr = banks.chr := rfl
  obtain ⟨six, seven⟩ := select_bits b.bankSelect
  constructor
  · intro i
    rw [chips.program, update]
    dsimp only
    rw [selectChr_prgWindows, selectPrg, six]
    cases turned : bit b.bankSelect 6 with
    | true =>
      simp only [Bool.not_true, Bool.false_eq_true, if_false]
      iterate 4 rw [setPrg8_get (by simpa only [prg] using program)]
      simp only [prg]
      fin_cases i <;> simp [prgChoice, turned]
    | false =>
      simp only [Bool.not_false, if_true]
      iterate 4 rw [setPrg8_get (by simpa only [prg] using program)]
      simp only [prg]
      fin_cases i <;> simp [prgChoice, turned]
  · intro i
    rw [chips.patternSize, update]
    dsimp only
    rw [selectChr, seven]
    cases turned : bit b.bankSelect 7 with
    | true =>
      simp only [Bool.not_true, Bool.false_eq_true, if_false]
      iterate 8 rw [setChr1_get (by simpa only [chr, selectPrg_chr] using patterns)]
      simp only [chr, selectPrg_chr]
      fin_cases i <;> simp [chrChoice, chrBank, turned]
    | false =>
      simp only [Bool.not_false, if_true]
      iterate 8 rw [setChr1_get (by simpa only [chr, selectPrg_chr] using patterns)]
      simp only [chr, selectPrg_chr]
      fin_cases i <;> simp [chrChoice, chrBank, turned]

/-- Nothing but the registers, the windows and the sizes of the chips matters for that. -/
theorem InLine.congr {b c : Mmc3} (h : b.InLine) (select : c.bankSelect = b.bankSelect)
    (registers : c.registers = b.registers) (prg : c.banks.prg.size = b.banks.prg.size)
    (chr : c.banks.chr.size = b.banks.chr.size) (prgWindows : c.banks.prgWindows = b.banks.prgWindows)
    (chrWindows : c.banks.chrWindows = b.banks.chrWindows) : c.InLine := by
  constructor
  · intro i
    rw [prgWindows, h.prg, prg]
    simp only [prgChoice, select, registers]
  · intro i
    rw [chrWindows, h.chr, chr]
    simp only [chrChoice, chrBank, select, registers]

/-- No event leaves a window behind. -/
theorem InLine.happen {b : Mmc3} (h : b.InLine) (program : b.banks.prg.size ≠ 0)
    (patterns : b.banks.chr.size ≠ 0) (e : BoardEvent) : (b.happen e).InLine := by
  cases e with
  | write address value =>
    obtain ⟨page, half, wrote, -⟩ := b.happen_write address value
    generalize b.happen (.write address value) = behind at wrote
    cases wrote with
    | select => exact update_inLine _ program patterns
    | bank => exact update_inLine _ program patterns
    | _ => exact h.congr rfl rfl rfl rfl rfl rfl
  | writeChr address value =>
    have chips := (Banks.SameChips.refl b.banks).writeChr address value
    obtain ⟨prgWindows, chrWindows⟩ := b.banks.writeChr_windows address value
    exact h.congr rfl rfl (congrArg Array.size chips.program) chips.patternSize prgWindows chrWindows
  | observe address =>
    obtain ⟨select, registers⟩ := b.observe_registers address
    have banks : (b.happen (.observe address)).banks = b.banks := b.observe_banks address
    exact h.congr select registers (by rw [banks]) (by rw [banks]) (by rw [banks]) (by rw [banks])
  | clock =>
    obtain ⟨select, registers⟩ := b.clock_registers
    have banks : (b.happen .clock).banks = b.banks := b.clock_banks
    exact h.congr select registers (by rw [banks]) (by rw [banks]) (by rw [banks]) (by rw [banks])
  | reset => exact update_inLine _ program patterns
  | read => exact h
  | writeWork cell value => exact h.congr rfl rfl rfl rfl rfl rfl

theorem aged_chips (banks : Banks) (wired : Mirroring) (past : Past) :
    banks.SameChips ((mount banks wired).aged past).banks := by
  obtain ⟨n, found, course⟩ := (Board.aged_course (.mmc3 (mount banks wired)) past).banks rfl
  rw [Board.aged_mmc3] at found
  cases found
  exact (mount_chips banks wired).course course

theorem aged_inLine {banks : Banks} (program : banks.prg.size ≠ 0) (patterns : banks.chr.size ≠ 0)
    (wired : Mirroring) (past : Past) : ((mount banks wired).aged past).InLine := by
  induction past with
  | nil => exact update_inLine _ program patterns
  | cons e before ih =>
    have chips := aged_chips banks wired before
    exact ih.happen (by rwa [chips.program]) (by rwa [chips.patternSize]) e

/-- Bank switches leave the chips themselves. -/
def Switched (m n : Banks) : Prop := ∃ prgWindows chrWindows, n = { m with prgWindows, chrWindows }

theorem update_switched (b : Mmc3) : Switched b.banks b.update.banks := by
  have prg {m n : Banks} (h : Switched m n) (slot : Nat) (bank : Int) :
      Switched m (n.setPrg8 slot bank) := by
    obtain ⟨_, _, rfl⟩ := h
    exact ⟨_, _, rfl⟩
  have chr {m n : Banks} (h : Switched m n) (slot : Nat) (bank : Int) :
      Switched m (n.setChr1 slot bank) := by
    obtain ⟨_, _, rfl⟩ := h
    exact ⟨_, _, rfl⟩
  unfold update selectChr selectPrg
  dsimp only
  iterate 8 refine chr ?_ _ _
  iterate 2 refine prg ?_ _ _
  split
  · exact prg (prg ⟨_, _, rfl⟩ _ _) _ _
  · exact prg (prg ⟨_, _, rfl⟩ _ _) _ _

/-- A write to a bank register changes the chosen one, and on the chips the windows alone. -/
theorem happen_of_bank {b : Mmc3} {e : BoardEvent} {value : UInt8}
    (writes : e.written? 0x8001 = some value) : ∃ prgWindows chrWindows, b.happen e =
      { b with
        registers := put b.registers (.ofNat 8 b.bankSelect.toNat) value
        banks := { b.banks with prgWindows, chrWindows } } := by
  cases e with
  | write address written =>
    obtain ⟨page, half, wrote, told⟩ := b.happen_write address written
    generalize b.happen (.write address written) = behind at wrote
    rw [told] at writes
    cases wrote with
    | bank =>
      obtain rfl : written = value := by simpa using writes
      obtain ⟨prgWindows, chrWindows, same⟩ := update_switched
        { b with registers := put b.registers (.ofNat 8 b.bankSelect.toNat) written }
      refine ⟨prgWindows, chrWindows, ?_⟩
      rw [← same]
      rfl
    | below low => simp [show page ≠ 4 by omega] at writes
    | _ => simp at writes
  | _ => simp [BoardEvent.written?] at writes

end Mmc3

/-! ## Places of single banks -/

/-- A bank of one piece, counted around the end of the memory. -/
theorem bankPlace_single {size total : Nat} (bank : Int) (hs : 0 < size) :
    bankPlace size total 1 bank 0 =
      (bank % (bankCount size total 1 : Int)).toNat * size := by
  by_cases large : size * 1 ≤ total
  · rw [bankPlace_of_le bank hs Nat.one_pos large, Nat.zero_mul, Nat.add_zero, Nat.mul_one]
  · have one := bankCount_of_lt (Nat.lt_of_not_le large)
    simp [bankPlace, one]

/-- Counted from the end, a bank has the number that is left. -/
theorem neg_emod_toNat (back : Nat) {banks : Nat} (few : back ≤ banks) :
    ((-back : Int) % (banks : Int)).toNat = (banks - back) % banks := by
  rw [← Int.add_emod_right, show (-(back : Int) + banks) = ((banks - back : Nat) : Int) by omega,
    ← Int.natCast_mod, Int.toNat_natCast]

/-- What shows at an address, given the place that its window shows. -/
theorem Banks.readPrg_of_place {m : Banks} {address : UInt16} {place : Nat}
    (window : m.prgWindows.get (.ofNat 4 (address.toNat / 0x2000)) = place)
    (inside : place + address.toNat % 0x2000 < m.prg.size) :
    some (m.readPrg address) = m.prg[place + address.toNat % 0x2000]? := by
  have offset : m.prgOffset address = place + address.toNat % 0x2000 :=
    congrArg (· + address.toNat % 0x2000) window
  rw [readPrg, offset, Array.getElem?_eq_getElem inside]
  exact congrArg some (dif_pos inside)

namespace Mmc3

variable {banks : Banks}

/-- The program windows behind a past. -/
theorem aged_prgWindows {count : Nat} (size : banks.prg.size = count * prgWindow) (two : 2 ≤ count)
    (patterns : banks.chr.size ≠ 0) (wired : Mirroring) (past : Past) (i : Fin 4) :
    ((mount banks wired).aged past).banks.prgWindows.get i =
      past.prgBank count i % count * prgWindow := by
  have large : prgWindow * 1 ≤ count * prgWindow := by
    rw [Nat.mul_one]
    exact Nat.le_mul_of_pos_left _ (by omega)
  have counted : bankCount prgWindow (count * prgWindow) 1 = count := by
    rw [bankCount_of_le (by decide) large, Nat.mul_one, Nat.mul_div_cancel _ (by decide)]
  have program : banks.prg.size ≠ 0 := by
    rw [size]
    exact (Nat.mul_pos (by omega) (by decide)).ne'
  obtain ⟨select, registers⟩ := aged_registers banks wired past
  have chips := aged_chips banks wired past
  have natural (bank : Nat) : ((bank : Int) % (count : Int)).toNat = bank % count := by
    rw [← Int.natCast_mod, Int.toNat_natCast]
  have last : ((-1 : Int) % (count : Int)).toNat = (count - 1) % count :=
    neg_emod_toNat 1 (by omega)
  have before : ((-2 : Int) % (count : Int)).toNat = (count - 2) % count :=
    neg_emod_toNat 2 (by omega)
  rw [(aged_inLine program patterns wired past).prg, chips.program, size, bankPlace_single _ (by decide),
    counted]
  congr 1
  fin_cases i
  · cases turned : bit past.bankSelect 6 <;>
      simp [prgChoice, Past.prgBank, select, registers, turned, natural, before]
  · simp [prgChoice, Past.prgBank, registers, natural]
  · cases turned : bit past.bankSelect 6 <;>
      simp [prgChoice, Past.prgBank, select, registers, turned, natural, before]
  · simp [prgChoice, Past.prgBank, last]

/-- The pattern windows behind a past. -/
theorem aged_chrWindows (program : banks.prg.size ≠ 0) (patterns : banks.chr.size ≠ 0)
    (wired : Mirroring) (past : Past) (i : Fin 8) :
    ((mount banks wired).aged past).banks.chrWindows.get i =
      past.chrBank i % max (banks.chr.size / chrWindow) 1 * chrWindow := by
  obtain ⟨select, registers⟩ := aged_registers banks wired past
  have chips := aged_chips banks wired past
  have chosen : ((mount banks wired).aged past).chrChoice i = past.chrBank i := by
    unfold chrChoice Past.chrBank
    rw [select]
    generalize (if bit past.bankSelect 7 then i + 4 else i) = shown
    fin_cases shown <;> simp [chrBank, registers]
  rw [(aged_inLine program patterns wired past).chr, chips.patternSize, bankPlace_single _ (by decide),
    chosen, ← Int.natCast_mod, Int.toNat_natCast]
  rfl

/-- What the program space shows behind a past. -/
theorem aged_read {count : Nat} (size : banks.prg.size = count * prgWindow) (two : 2 ≤ count)
    (patterns : banks.chr.size ≠ 0) (wired : Mirroring) (past : Past) {address : UInt16}
    (high : 0x8000 ≤ address) : ((mount banks wired).aged past).read address =
      banks.prg[past.prgBank count (.ofNat 4 (address.toNat / 0x2000)) % count * prgWindow +
        address.toNat % 0x2000]? := by
  have chips := aged_chips banks wired past
  have window := aged_prgWindows size two patterns wired past (.ofNat 4 (address.toNat / 0x2000))
  generalize past.prgBank count (.ofNat 4 (address.toNat / 0x2000)) = bank at window
  have below := Nat.mod_lt bank (show 0 < count by omega)
  have rest := Nat.mod_lt address.toNat (show 0 < 0x2000 by decide)
  rw [read, if_pos high, ← chips.program]
  refine Banks.readPrg_of_place window ?_
  rw [chips.program, size]
  unfold prgWindow
  omega

end Mmc3

/-! ## The map of the MMC1 -/

/-- Two switches that move all windows between them do not depend on where they were. -/
theorem selectWindows_halves {n : Nat} (v w : Vector Nat n) {size total count : Nat} (a b : Int)
    (some : total ≠ 0) (all : n ≤ count + count) :
    selectWindows (selectWindows v size total 0 count a) size total count count b =
      selectWindows (selectWindows w size total 0 count a) size total count count b := by
  rw [windows_eq_iff]
  intro i
  simp only [selectWindows_get _ _ some]
  have := i.isLt
  split_ifs <;> first | rfl | omega

namespace Mmc1

/-- Two boards whose registers hold the same. -/
structure SameRegisters (b c : Mmc1) : Prop where
  control : c.control = b.control
  chrBank0 : c.chrBank0 = b.chrBank0
  chrBank1 : c.chrBank1 = b.chrBank1
  prgBank : c.prgBank = b.prgBank

variable {b c : Mmc1} {m n : Banks}

theorem SameRegisters.selectPrg (same : b.SameRegisters c) (program : n.prg = m.prg)
    (some : m.prg.size ≠ 0) : (c.selectPrg n).prgWindows = (b.selectPrg m).prgWindows := by
  have halves (a b : Int) : ((n.setPrg16 0 a).setPrg16 1 b).prgWindows =
      ((m.setPrg16 0 a).setPrg16 1 b).prgWindows := by
    simp only [Banks.setPrg16, program]
    exact selectWindows_halves _ _ a b some (by decide)
  unfold Mmc1.selectPrg Banks.prgBanks16
  rw [same.control, same.chrBank0, same.prgBank, program]
  dsimp only
  split <;> exact halves _ _

theorem SameRegisters.selectChr (same : b.SameRegisters c) (size : n.chr.size = m.chr.size)
    (some : m.chr.size ≠ 0) : (c.selectChr n).chrWindows = (b.selectChr m).chrWindows := by
  unfold Mmc1.selectChr
  rw [same.control, same.chrBank0, same.chrBank1]
  split
  · simp only [Banks.setChr4, size]
    exact selectWindows_halves _ _ _ _ some (by decide)
  · simp only [Banks.setChr8, size]
    exact selectWindows_all _ _ _ some (by decide)

/-- Behind an update the windows depend on the registers and the chips alone. -/
theorem SameRegisters.update (same : b.SameRegisters c) (chips : b.banks.SameChips c.banks)
    (program : b.banks.prg.size ≠ 0) (patterns : b.banks.chr.size ≠ 0) :
    c.update.banks.prgWindows = b.update.banks.prgWindows ∧
      c.update.banks.chrWindows = b.update.banks.chrWindows := by
  constructor
  · simp only [Mmc1.update, selectChr_prgWindows]
    exact same.selectPrg chips.program program
  · refine same.selectChr ?_ (by rwa [selectPrg_chr])
    rw [selectPrg_chr, selectPrg_chr, chips.patternSize]

/-- The windows are where an update would put them. -/
structure InLine (b : Mmc1) : Prop where
  prg : b.update.banks.prgWindows = b.banks.prgWindows
  chr : b.update.banks.chrWindows = b.banks.chrWindows

theorem update_inLine (b : Mmc1) (program : b.banks.prg.size ≠ 0) (patterns : b.banks.chr.size ≠ 0) :
    b.update.InLine := by
  have chips := (Banks.SameChips.refl b.banks).course (update_course .refl)
  have same : b.SameRegisters b.update := ⟨rfl, rfl, rfl, rfl⟩
  obtain ⟨prg, chr⟩ := same.update chips program patterns
  exact ⟨prg, chr⟩

/-- Nothing but the registers, the windows and the chips matters for that. -/
theorem InLine.congr (h : b.InLine) (same : b.SameRegisters c) (chips : b.banks.SameChips c.banks)
    (program : b.banks.prg.size ≠ 0) (patterns : b.banks.chr.size ≠ 0)
    (prgWindows : c.banks.prgWindows = b.banks.prgWindows)
    (chrWindows : c.banks.chrWindows = b.banks.chrWindows) : c.InLine := by
  obtain ⟨prg, chr⟩ := same.update chips program patterns
  exact ⟨by rw [prg, h.prg, prgWindows], by rw [chr, h.chr, chrWindows]⟩

/-- Boards with the same registers and chips show the same. -/
theorem InLine.windows_eq (h : b.InLine) (other : c.InLine) (same : b.SameRegisters c)
    (chips : b.banks.SameChips c.banks) (program : b.banks.prg.size ≠ 0)
    (patterns : b.banks.chr.size ≠ 0) : c.banks.prgWindows = b.banks.prgWindows ∧
      c.banks.chrWindows = b.banks.chrWindows := by
  obtain ⟨prg, chr⟩ := same.update chips program patterns
  exact ⟨by rw [← h.prg, ← other.prg, prg], by rw [← h.chr, ← other.chr, chr]⟩

theorem InLine.accept (h : b.InLine) (program : b.banks.prg.size ≠ 0)
    (patterns : b.banks.chr.size ≠ 0) (address : UInt16) (value : UInt8) :
    (b.accept address value).InLine := by
  unfold Mmc1.accept
  dsimp only
  split_ifs
  · exact update_inLine _ program patterns
  · exact ⟨h.prg, h.chr⟩
  · refine update_inLine _ ?_ ?_
    · rwa [load_banks]
    · rwa [load_banks]

/-- No event leaves a window behind. -/
theorem InLine.happen (h : b.InLine) (program : b.banks.prg.size ≠ 0)
    (patterns : b.banks.chr.size ≠ 0) (e : BoardEvent) : (b.happen e).InLine := by
  cases e with
  | write address value =>
    rw [Mmc1.happen]
    by_cases high : 0x8000 ≤ address
    · have noted : InLine { b with idle := 0 } := ⟨h.prg, h.chr⟩
      rw [write_of_high high]
      split
      · exact noted
      · exact noted.accept program patterns address value
    · obtain ⟨cell, kept⟩ := write_of_low high b value
      rw [kept]
      exact h.congr ⟨rfl, rfl, rfl, rfl⟩ ((Banks.SameChips.refl _).setWork cell value) program patterns
        rfl rfl
  | writeChr address value =>
    obtain ⟨prgWindows, chrWindows⟩ := b.banks.writeChr_windows address value
    exact h.congr ⟨rfl, rfl, rfl, rfl⟩ ((Banks.SameChips.refl _).writeChr address value) program
      patterns prgWindows chrWindows
  | writeWork cell value =>
    exact h.congr ⟨rfl, rfl, rfl, rfl⟩ ((Banks.SameChips.refl _).setWork _ value) program patterns
      rfl rfl
  | reset => exact update_inLine _ program patterns
  | _ => exact ⟨h.prg, h.chr⟩

theorem aged_chips (banks : Banks) (past : Past) :
    banks.SameChips ((mount banks).aged past).banks := by
  obtain ⟨n, found, course⟩ := (Board.aged_course (.mmc1 (mount banks)) past).banks rfl
  rw [Board.aged_mmc1] at found
  cases found
  exact (mount_chips banks).course course

theorem aged_inLine {banks : Banks} (program : banks.prg.size ≠ 0) (patterns : banks.chr.size ≠ 0)
    (past : Past) : ((mount banks).aged past).InLine := by
  induction past with
  | nil => exact update_inLine _ program patterns
  | cons e before ih =>
    have chips := aged_chips banks before
    exact ih.happen (by rwa [chips.program]) (by rwa [chips.patternSize]) e

/-- Behind two pasts that leave the same in the registers a board shows the same. -/
theorem aged_shows {banks : Banks} (program : banks.prg.size ≠ 0) (patterns : banks.chr.size ≠ 0)
    {first second : Past}
    (same : ((mount banks).aged first).SameRegisters ((mount banks).aged second)) :
    (∀ address : UInt16, 0x8000 ≤ address →
      ((mount banks).aged second).read address = ((mount banks).aged first).read address) ∧
      ((mount banks).aged second).banks.chrWindows = ((mount banks).aged first).banks.chrWindows ∧
      ((mount banks).aged second).mirroring = ((mount banks).aged first).mirroring := by
  have before := aged_chips banks first
  have chips := before.symm.trans (aged_chips banks second)
  obtain ⟨prgWindows, chrWindows⟩ := (aged_inLine program patterns first).windows_eq
    (aged_inLine program patterns second) same chips (by rwa [before.program])
    (by rwa [before.patternSize])
  refine ⟨fun address high => ?_, chrWindows, ?_⟩
  · simp only [read, if_pos high, Banks.readPrg, Banks.prgOffset, prgWindows, chips.program]
  · simp only [mirroring, same.control]

end Mmc1

/-! ## Boards of an image -/

/-- The size of the pattern memory that a header asks for. -/
def Header.patternBytes (h : Header) : Nat := if h.chrUnits = 0 then h.chrRamSize else h.chrSize

namespace Cartridge

variable {image : Array UInt8} {cartridge : Cartridge}

theorem Accepted.mount_chr_size (known : Accepted image cartridge) :
    (Banks.mount cartridge.header (image.extract cartridge.header.prgStart cartridge.header.chrStart)
      (image.extract cartridge.header.chrStart cartridge.header.romEnd)).chr.size =
      cartridge.header.patternBytes := by
  have size := known.patterns_size
  have ram : (image.extract cartridge.header.chrStart cartridge.header.romEnd).isEmpty = true ↔
      cartridge.header.chrUnits = 0 := by
    rw [Array.isEmpty_iff_size_eq_zero, size]
    omega
  show Array.size (if _ then _ else _) = _
  unfold Header.patternBytes
  by_cases none : cartridge.header.chrUnits = 0
  · rw [if_pos (ram.mpr none), if_pos none, Array.size_replicate]
  · rw [if_neg (ram.not.mpr none), if_neg none, size, Header.chrSize]

/-- The map of a board follows its registers. Behind any past an MMC3 board shows the banks that the last
writes to its registers select, as the select value in force says, and a write to a bank register reaches
the one that this value chooses. Two MMC1 boards of one image with the same registers show the same. -/
theorem map_follows_registers (accepted : ofImage image = .ok cartridge) :
    let header := cartridge.header
    let program := image.extract header.prgStart header.chrStart
    (header.mapper = 4 → ∀ past : Past, ∃ chip, cartridge.board.aged past = .mmc3 chip ∧
      let prgBanks := 2 * header.prgUnits
      let chrBanks := max (header.patternBytes / 0x400) 1
      chip.bankSelect = past.bankSelect ∧ (∀ i, chip.registers.get i = past.bankRegister i) ∧
      (∀ i, chip.banks.prgWindows.get i = past.prgBank prgBanks i % prgBanks * 0x2000) ∧
      (∀ i, chip.banks.chrWindows.get i = past.chrBank i % chrBanks * 0x400) ∧
      (∀ address : UInt16, 0x8000 ≤ address → chip.read address =
        program[past.prgBank prgBanks (.ofNat 4 (address.toNat / 0x2000)) % prgBanks * 0x2000 +
          address.toNat % 0x2000]?) ∧
      (∀ address : UInt16, chip.banks.readChr address = chip.banks.chr.getD
        (past.chrBank (.ofNat 8 (address.toNat / 0x400)) % chrBanks * 0x400 + address.toNat % 0x400) 0) ∧
      ∀ (e : BoardEvent) (value : UInt8), e.written? 0x8001 = some value →
        ∃ prgWindows chrWindows, chip.happen e =
          { chip with
            registers := put chip.registers (.ofNat 8 past.bankSelect.toNat) value
            banks := { chip.banks with prgWindows, chrWindows } }) ∧
    (header.mapper = 1 → ∀ first second : Past, ∃ b c, cartridge.board.aged first = .mmc1 b ∧
      cartridge.board.aged second = .mmc1 c ∧ (b.SameRegisters c →
        (∀ address : UInt16, 0x8000 ≤ address → c.read address = b.read address) ∧
          c.banks.chrWindows = b.banks.chrWindows ∧ c.mirroring = b.mirroring)) := by
  intro header program
  have known := ofImage_accepted accepted
  have board := known.board
  have units : 0 < header.prgUnits := Nat.pos_of_ne_zero known.program
  have program_size : program.size = header.prgUnits * 0x4000 := known.program_size
  have chr_size := known.mount_chr_size
  have patterns := (Banks.mount_showsPatterns header program
    (image.extract header.chrStart header.romEnd)).some.ne'
  generalize mounted : Banks.mount cartridge.header _ _ = banks at board chr_size patterns
  have prg : banks.prg = program := by
    rw [← mounted]
    rfl
  refine ⟨fun four past => ?_, fun one first second => ?_⟩
  · have here : Board.mmc3 (.mount banks header.mirroring) = cartridge.board := by
      rw [show cartridge.header.mapper = 4 from four] at board
      exact Option.some_inj.mp board
    have size : banks.prg.size = 2 * header.prgUnits * prgWindow := by
      rw [prg, program_size, prgWindow]
      omega
    obtain ⟨select, registers⟩ := Mmc3.aged_registers banks header.mirroring past
    have chrWindows := Mmc3.aged_chrWindows (by rw [prg]; omega) patterns header.mirroring past
    rw [chr_size] at chrWindows
    rw [← here, Board.aged_mmc3]
    refine ⟨_, rfl, select, registers, Mmc3.aged_prgWindows size (by omega) patterns _ past, chrWindows,
      fun address high => ?_, fun address => ?_, fun e value writes => ?_⟩
    · rw [Mmc3.aged_read size (by omega) patterns _ past high, prg]
      rfl
    · exact congrArg (fun window => Array.getD _ (window + address.toNat % 0x400) 0)
        (chrWindows (.ofNat 8 (address.toNat / 0x400)))
    · rw [← select]
      exact Mmc3.happen_of_bank writes
  · have here : Board.mmc1 (.mount banks) = cartridge.board := by
      rw [show cartridge.header.mapper = 1 from one] at board
      exact Option.some_inj.mp board
    rw [← here, Board.aged_mmc1, Board.aged_mmc1]
    exact ⟨_, _, rfl, rfl, Mmc1.aged_shows (by rw [prg]; omega) patterns⟩

/-- The header of an MMC3 board with four banks of 8 KiB and pattern RAM. -/
def fourBankHeader : Header := ⟨2, 0, 0x40, 0, 0, 0, 0, 0, 0⟩

def fourBankImage : Array UInt8 :=
  #[0x4E, 0x45, 0x53, 0x1A, 2, 0, 0x40, 0, 0, 0, 0, 0, 0, 0, 0, 0] ++ Array.replicate 0x8000 0

/-- The program windows of a board whose first window is fixed and whose third one is switched to the last
bank. -/
theorem four_banks_show_last_twice : ∃ cartridge, ofImage fourBankImage = .ok cartridge ∧
    ∃ chip, cartridge.board.aged [.write 0x8001 3, .write 0x8000 0x46] = .mmc3 chip ∧
      ∀ i, chip.banks.prgWindows.get i = #v[0x4000, 0x2000, 0x6000, 0x6000].get i := by
  have parsed : Header.parse fourBankImage = .ok fourBankHeader := parse_append rfl _
  have size : fourBankImage.size = 16 + 0x8000 := by
    simp only [fourBankImage, Array.size_append, Array.size_replicate]
    rfl
  obtain ⟨cartridge, accepted⟩ := ofImage_accepts parsed (by decide) (by rw [size]; decide) fun _ => rfl
  have header : cartridge.header = fourBankHeader :=
    Except.ok.inj ((ofImage_accepted accepted).header.symm.trans parsed)
  obtain ⟨chip, here, -, -, windows, -⟩ := (map_follows_registers accepted).1
    (by rw [header]; rfl) [.write 0x8001 3, .write 0x8000 0x46]
  refine ⟨cartridge, accepted, chip, here, fun i => ?_⟩
  rw [windows, header]
  fin_cases i <;> rfl

end Cartridge

end Famiclone
