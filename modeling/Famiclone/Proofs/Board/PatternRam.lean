import Famiclone.Proofs.Board.Bounds

/-!
# Pattern RAM as a memory

A board without pattern ROM carries pattern RAM, which the picture unit sees through eight windows of
1 KiB. A write there is a write to a memory if the RAM fills a window. A smaller one does not repeat within
its window as a small work RAM does: where it ends, zeros are read and writes are lost.
-/
namespace Famiclone

namespace Banks

variable {m n : Banks} {address read : UInt16} {value : UInt8}

/-- Every pattern window shows a whole piece of the memory; a memory smaller than a window is one piece. -/
structure ShowsPatterns (m : Banks) : Prop where
  some : 0 < m.chr.size
  windows : WithinMemory m.chrWindows (chrWindow.gcd m.chr.size) m.chr.size

namespace ShowsPatterns

theorem congr (h : m.ShowsPatterns) (size : n.chr.size = m.chr.size)
    (windows : n.chrWindows = m.chrWindows) : n.ShowsPatterns := by
  obtain ⟨some, inside⟩ := h
  refine ⟨?_, ?_⟩
  · rwa [size]
  · rwa [size, windows]

theorem change (h : m.ShowsPatterns) (change : Change m n) : n.ShowsPatterns := by
  cases change with
  | switchPrg first count bank => exact h.congr rfl rfl
  | switchChr first count bank =>
    exact ⟨h.some, h.windows.selectWindows h.some (Nat.gcd_dvd_left _ _) (Nat.gcd_dvd_right _ _)
      first count bank⟩
  | writeChr address value =>
    unfold writeChr
    split
    · exact h.congr (Array.size_setIfInBounds ..) rfl
    · exact h
  | writeWork cell value => exact h.congr rfl rfl

theorem course (h : m.ShowsPatterns) (course : m.Course n) : n.ShowsPatterns :=
  course.keeps (fun _ _ step shown => shown.change step) h

/-- What shows at an address is within the memory if and only if the memory reaches so far into a
window. -/
theorem chrOffset_lt_iff (h : m.ShowsPatterns)
    (pieces : chrWindow ∣ m.chr.size ∨ m.chr.size ∣ chrWindow) :
    m.chrOffset address < m.chr.size ↔ address.toNat % chrWindow < m.chr.size := by
  have window := h.windows ⟨address.toNat / chrWindow % 8, Nat.mod_lt _ (by decide)⟩
  have rest : address.toNat % chrWindow < chrWindow := Nat.mod_lt _ (by decide)
  have offset : m.chrOffset address =
      m.chrWindows.get ⟨address.toNat / chrWindow % 8, Nat.mod_lt _ (by decide)⟩ +
        address.toNat % chrWindow := rfl
  rw [offset]
  rcases pieces with large | small
  · rw [Nat.gcd_eq_left large] at window
    have := Nat.le_of_dvd h.some large
    omega
  · rw [Nat.gcd_eq_right small] at window
    have start : m.chrWindows.get ⟨address.toNat / chrWindow % 8, Nat.mod_lt _ (by decide)⟩ = 0 := by
      omega
    rw [start, Nat.zero_add]

end ShowsPatterns

theorem mount_showsPatterns (h : Header) (prg chr : Array UInt8) : (mount h prg chr).ShowsPatterns := by
  have some : 0 < (unswitched h prg chr).chr.size := by
    unfold unswitched
    split
    · simpa using h.chrRamSize_pos
    next full => simpa [Array.isEmpty_iff, Array.size_pos_iff] using full
  have start : (unswitched h prg chr).ShowsPatterns :=
    ⟨some, withinMemory_start (Nat.le_of_dvd some (Nat.gcd_dvd_right _ _))⟩
  exact start.course (mount_course h prg chr)

/-- Pattern RAM fills whole windows, or it divides one. -/
theorem chrRamSize_pieces (h : Header) :
    chrWindow ∣ h.chrRamSize ∨ h.chrRamSize ∣ chrWindow := by
  have pieces : ∀ shift : Fin 16, shift ≠ 0 →
      chrWindow ∣ Header.shiftSize shift.val ∨ Header.shiftSize shift.val ∣ chrWindow := by decide
  obtain ⟨shift, some, size⟩ := chrRamSize_eq_shiftSize h
  rw [size]
  exact pieces shift some

/-- Pattern RAM is smaller than a window for three of the sizes that an extended header can declare. -/
theorem chrRamSize_lt_iff (h : Header) :
    h.chrRamSize < chrWindow ↔ h.extended = true ∧ h.byte11.toNat % 16 ∈ [1, 2, 3] := by
  have small : ∀ shift : Fin 16,
      (if Header.shiftSize shift.val = 0 then 0x2000 else Header.shiftSize shift.val) < chrWindow ↔
        shift.val ∈ [1, 2, 3] := by
    decide
  have shift : h.byte11.toNat % 16 < 16 := Nat.mod_lt _ (by decide)
  unfold Header.chrRamSize Header.declaredChrRam
  by_cases long : h.extended = true
  · simpa [long] using small ⟨_, shift⟩
  · simp [long, chrWindow]

/-! ## Reading behind a write -/

theorem writeChr_chrOffset (m : Banks) (address read : UInt16) (value : UInt8) :
    (m.writeChr address value).chrOffset read = m.chrOffset read := by
  unfold writeChr
  split <;> rfl

theorem writeChr_of_rom (rom : m.chrWritable = false) : m.writeChr address value = m := by
  simp [writeChr, rom]

/-- A write behind the end of the memory is lost. -/
theorem writeChr_of_le (outside : m.chr.size ≤ m.chrOffset address) : m.writeChr address value = m := by
  unfold writeChr
  rw [Array.setIfInBounds_eq_of_size_le outside]
  exact ite_self m

/-- What shows in pattern RAM behind a write. -/
theorem readChr_writeChr (ram : m.chrWritable = true) (inside : m.chrOffset address < m.chr.size)
    (read : UInt16) (value : UInt8) :
    (m.writeChr address value).readChr read =
      if m.chrOffset address = m.chrOffset read then value else m.readChr read := by
  unfold readChr
  rw [writeChr_chrOffset, writeChr, if_pos ram, Array.getD_eq_getD_getElem?,
    Array.getD_eq_getD_getElem?, Array.getElem?_setIfInBounds]
  by_cases same : m.chrOffset address = m.chrOffset read
  · simp [same ▸ inside, same]
  · simp [same]

end Banks

namespace Board

variable {b : Board} {m : Banks} {address : UInt16} {value : UInt8}

theorem readChr_of_banks (found : b.banks? = some m) (address : UInt16) :
    b.readChr address = m.readChr address := by
  cases b <;> cases found <;> rfl

/-- The place in pattern memory that shows at an address. -/
def patternCell? (b : Board) (address : UInt16) : Option Nat :=
  b.banks?.map fun m => m.chrOffset address

/-- A write on the picture bus, as a write to a memory: every address of the same cell shows the value,
and nothing else changes. -/
structure StoresPattern (b : Board) (address : UInt16) (value : UInt8) : Prop where
  shows : ∀ read, (b.writeChr address value).readChr read =
    if b.patternCell? address = b.patternCell? read then value else b.readChr read
  program : ∀ read, (b.writeChr address value).readPrg read = b.readPrg read
  view : (b.writeChr address value).view = b.view
  irq : (b.writeChr address value).irq = b.irq

theorem readPrg_writeChr (b : Board) (address read : UInt16) (value : UInt8) :
    (b.writeChr address value).readPrg read = b.readPrg read := by
  have program (m : Banks) : (m.writeChr address value).readPrg read = m.readPrg read := by
    unfold Banks.writeChr
    split <;> rfl
  have work (m : Banks) : (m.writeChr address value).readWork read = m.readWork read := by
    unfold Banks.writeChr
    split <;> rfl
  cases b with
  | empty => rfl
  | latch b => simp [writeChr, mapBanks, readPrg, LatchBoard.read, program, work]
  | mmc1 b => simp [writeChr, mapBanks, readPrg, Mmc1.read, Mmc1.workEnabled, program, work]
  | mmc3 b => simp [writeChr, mapBanks, readPrg, Mmc3.read, program, work]

theorem writeChr_self (found : b.banks? = some m) (lost : m.writeChr address value = m) :
    b.writeChr address value = b := by
  cases b <;> cases found <;> simp [writeChr, mapBanks, lost]

/-- Within the RAM a write is a write to a memory. -/
theorem storesPattern_of_inside (found : b.banks? = some m) (ram : m.chrWritable = true)
    (inside : m.chrOffset address < m.chr.size) (value : UInt8) : b.StoresPattern address value where
  shows read := by
    have written : (b.writeChr address value).banks? = some (m.writeChr address value) := by
      rw [writeChr, banks?_mapBanks, found, Option.map_some]
    rw [readChr_of_banks written, readChr_of_banks found, Banks.readChr_writeChr ram inside,
      patternCell?, patternCell?, found]
    simp
  program read := b.readPrg_writeChr address read value
  view := by
    refine view_mapBanks (fun m => ?_) (fun m => ?_) b
    · unfold Banks.writeChr
      split <;> rfl
    · unfold Banks.writeChr
      split <;> rfl
  irq := b.irq_mapBanks _

/-- Outside of it one of two values is not what shows already. -/
theorem not_storesPattern_of_lost (lost : ∀ value, b.writeChr address value = b) :
    ¬ ∀ value, b.StoresPattern address value := by
  intro stores
  have shown (value : UInt8) : b.readChr address = value := by
    have now := (stores value).shows address
    rwa [lost, if_pos rfl] at now
  have same := (shown 0).symm.trans (shown 1)
  contradiction

variable {image : Array UInt8} {cartridge : Cartridge}

/-- The pattern memory of a board of an image, wherever it has gone. -/
theorem patterns_of_course (accepted : Cartridge.ofImage image = .ok cartridge)
    (course : cartridge.board.Course b) :
    ∃ m, b.banks? = some m ∧ m.ShowsPatterns ∧
      (m.chrWritable = true ↔ cartridge.header.chrUnits = 0) ∧
      (cartridge.header.chrUnits = 0 → m.chr.size = cartridge.header.chrRamSize) := by
  obtain ⟨m, found, changed⟩ := Cartridge.banks_course accepted course
  have chips := (Banks.SameChips.refl _).course changed
  have empty : (image.extract cartridge.header.chrStart cartridge.header.romEnd).isEmpty = true ↔
      cartridge.header.chrUnits = 0 := by
    rw [Array.isEmpty_iff_size_eq_zero, (Cartridge.ofImage_accepted accepted).patterns_size]
    omega
  refine ⟨m, found, (Banks.mount_showsPatterns _ _ _).course changed, ?_, ?_⟩
  · rw [chips.writable]
    exact empty
  · intro none
    have mounted : (Banks.mount cartridge.header
        (image.extract cartridge.header.prgStart cartridge.header.chrStart)
        (image.extract cartridge.header.chrStart cartridge.header.romEnd)).chr =
          .replicate cartridge.header.chrRamSize 0 := if_pos (empty.mpr none)
    rw [chips.patternSize, mounted, Array.size_replicate]

/-- Pattern ROM takes no writes. Pattern RAM is a memory at every address if it fills a window; of the
three smaller sizes only the first part of each window is, and the rest shows zeros and takes no
writes. -/
theorem patterns_are_memory_iff (accepted : Cartridge.ofImage image = .ok cartridge)
    (course : cartridge.board.Course b) :
    let header := cartridge.header
    (header.chrUnits ≠ 0 → ∀ address value, b.writeChr address value = b) ∧
    (header.chrUnits = 0 →
      ((∀ address value, b.StoresPattern address value) ↔
        ¬ (header.extended = true ∧ header.byte11.toNat % 16 ∈ [1, 2, 3])) ∧
      (∀ address, (∀ value, b.StoresPattern address value) ↔
        address.toNat % chrWindow < header.chrRamSize) ∧
      ∀ address, header.chrRamSize ≤ address.toNat % chrWindow →
        b.readChr address = 0 ∧ ∀ value, b.writeChr address value = b) := by
  intro header
  obtain ⟨m, found, shown, writable, size⟩ := patterns_of_course accepted course
  constructor
  · intro some address value
    refine writeChr_self found (Banks.writeChr_of_rom ?_)
    rw [← Bool.not_eq_true, writable]
    exact some
  · intro none
    have ram := writable.mpr none
    have inside (address : UInt16) :
        m.chrOffset address < m.chr.size ↔ address.toNat % chrWindow < header.chrRamSize := by
      rw [shown.chrOffset_lt_iff (size none ▸ Banks.chrRamSize_pieces header), size none]
    have lost (address : UInt16) (outside : header.chrRamSize ≤ address.toNat % chrWindow) :
        b.readChr address = 0 ∧ ∀ value, b.writeChr address value = b := by
      have beyond : m.chr.size ≤ m.chrOffset address := by
        rw [← Nat.not_lt, inside, Nat.not_lt]
        exact outside
      refine ⟨?_, fun value => writeChr_self found (Banks.writeChr_of_le beyond)⟩
      rw [readChr_of_banks found, Banks.readChr, Array.getD_eq_getD_getElem?,
        Array.getElem?_eq_none beyond, Option.getD_none]
    have stores (address : UInt16) : (∀ value, b.StoresPattern address value) ↔
        address.toNat % chrWindow < header.chrRamSize := by
      constructor
      · intro all
        by_contra outside
        exact not_storesPattern_of_lost (lost address (Nat.not_lt.mp outside)).2 all
      · intro within
        exact storesPattern_of_inside found ram ((inside address).mpr within)
    refine ⟨?_, stores, lost⟩
    rw [← Banks.chrRamSize_lt_iff, Nat.not_lt]
    constructor
    · intro all
      -- The last address of a window is behind the end of every smaller memory.
      have last := (stores 0x3FF).mp (all 0x3FF)
      have place : (0x3FF : UInt16).toNat % chrWindow = 0x3FF := rfl
      rw [place] at last
      exact last
    · intro large address
      exact (stores address).mpr (Nat.lt_of_lt_of_le (Nat.mod_lt _ (by decide)) large)

/-- The header of a board with 16 KiB of program and 512 bytes of pattern RAM. -/
def halfWindowHeader : Header := ⟨1, 0, 0, 0x08, 0, 0, 0, 3, 0⟩

def halfWindowImage : Array UInt8 :=
  #[0x4E, 0x45, 0x53, 0x1A, 1, 0, 0, 0x08, 0, 0, 0, 3, 0, 0, 0, 0] ++ Array.replicate 0x4000 0

/-- A value is kept in the first half of a window and lost in the second. -/
theorem half_window_forgets :
    ∃ cartridge, Cartridge.ofImage halfWindowImage = .ok cartridge ∧
      (∀ value, cartridge.board.StoresPattern 0x100 value) ∧
      (¬ ∀ value, cartridge.board.StoresPattern 0x200 value) ∧
      cartridge.board.writeChr 0x200 90 = cartridge.board := by
  have parsed : Header.parse halfWindowImage = .ok halfWindowHeader := Cartridge.parse_append rfl _
  obtain ⟨cartridge, accepted⟩ := Cartridge.ofImage_accepts parsed (by decide)
    (by rw [halfWindowImage, Array.size_append, Array.size_replicate]; decide) fun _ => rfl
  have header : cartridge.header = halfWindowHeader :=
    Except.ok.inj ((Cartridge.ofImage_accepted accepted).header.symm.trans parsed)
  obtain ⟨-, ram⟩ := patterns_are_memory_iff accepted .refl
  rw [header] at ram
  obtain ⟨-, stores, lost⟩ := ram rfl
  refine ⟨cartridge, accepted, (stores 0x100).mpr (by decide), ?_, (lost 0x200 (by decide)).2 90⟩
  rw [stores]
  decide

end Board

end Famiclone
