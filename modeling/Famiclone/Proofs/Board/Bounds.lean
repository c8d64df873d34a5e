import Famiclone.Proofs.Board.LastBank

/-!
# Windows stay inside the memories

The registers of a board hold whatever a program writes, and the number of banks in a memory is whatever
the header declares. Still every window of the program shows a whole piece of it, on every board and
behind every course of changes, and so does every window of the patterns if these fill a window at all.
Each bank switch keeps that, so no board has to be looked at for its registers.
-/
namespace Famiclone

namespace Banks

/-- Every window shows a whole piece of its memory. Pattern RAM that is smaller than a window repeats
within it instead. -/
structure StaysInside (m : Banks) : Prop where
  program : m.ShowsWhole
  patterns : chrWindow ≤ m.chr.size →
    chrWindow ∣ m.chr.size ∧ WithinMemory m.chrWindows chrWindow m.chr.size

namespace StaysInside

variable {m other : Banks}

theorem congr (h : m.StaysInside) (prg : other.prg = m.prg) (size : other.chr.size = m.chr.size)
    (prgWindows : other.prgWindows = m.prgWindows) (chrWindows : other.chrWindows = m.chrWindows) :
    other.StaysInside := by
  refine ⟨h.program.congr prg prgWindows, ?_⟩
  rw [size, chrWindows]
  exact h.patterns

/-- A switch of program banks, whatever its size. -/
theorem switchPrg (h : m.StaysInside) (first count : Nat) (bank : Int) :
    { m with
      prgWindows := selectWindows m.prgWindows prgWindow m.prg.size first count bank }.StaysInside where
  program := ⟨h.program.some, h.program.whole,
    h.program.windows.selectWindows h.program.some (dvd_refl _) h.program.whole first count bank⟩
  patterns := h.patterns

/-- A switch of pattern banks, whatever its size. -/
theorem switchChr (h : m.StaysInside) (first count : Nat) (bank : Int) :
    { m with
      chrWindows := selectWindows m.chrWindows chrWindow m.chr.size first count bank }.StaysInside where
  program := h.program.congr rfl rfl
  patterns large := by
    obtain ⟨whole, windows⟩ := h.patterns large
    have some : 0 < m.chr.size := Nat.lt_of_lt_of_le (by decide) large
    exact ⟨whole, windows.selectWindows some (dvd_refl _) whole first count bank⟩

theorem change (h : m.StaysInside) (change : Change m other) : other.StaysInside := by
  cases change with
  | switchPrg first count bank => exact h.switchPrg first count bank
  | switchChr first count bank => exact h.switchChr first count bank
  | writeChr address value =>
    unfold Banks.writeChr
    split
    · exact h.congr rfl (Array.size_setIfInBounds ..) rfl rfl
    · exact h
  | writeWork cell value => exact h.congr rfl rfl rfl rfl

theorem course (h : m.StaysInside) (course : m.Course other) : other.StaysInside :=
  course.keeps (fun _ _ step inside => inside.change step) h

end StaysInside

theorem shiftSize_pieces : ∀ shift : Fin 16, chrWindow ≤ Header.shiftSize shift.val →
    chrWindow ∣ Header.shiftSize shift.val := by
  decide

theorem mount_staysInside (h : Header) {prg chr : Array UInt8} (some : 0 < prg.size)
    (whole : prgWindow ∣ prg.size) (patterns : chrWindow ∣ chr.size) :
    (mount h prg chr).StaysInside := by
  have pieces : chrWindow ≤ (unswitched h prg chr).chr.size →
      chrWindow ∣ (unswitched h prg chr).chr.size := by
    unfold unswitched
    split
    · obtain ⟨shift, -, size⟩ := chrRamSize_eq_shiftSize h
      rw [Array.size_replicate, size]
      exact shiftSize_pieces shift
    · exact fun _ => patterns
  have start : (unswitched h prg chr).StaysInside :=
    ⟨⟨some, whole, withinMemory_start (Nat.le_of_dvd some whole)⟩,
      fun large => ⟨pieces large, withinMemory_start large⟩⟩
  exact start.course (mount_course h prg chr)

end Banks

/-! ## The boards -/

/-- The windows of the board in the slot stay inside its memories. -/
def Board.StaysInside (b : Board) : Prop := ∀ m, b.banks? = some m → m.StaysInside

namespace Board

/-- Each change of a board keeps its windows inside. -/
theorem StaysInside.change {b c : Board} (change : Change b c) (h : b.StaysInside) :
    c.StaysInside := by
  intro m found
  cases held : b.banks? with
  | none =>
    rw [change.empty held] at found
    contradiction
  | some before =>
    obtain ⟨n, there, course⟩ := change.banks held
    obtain rfl : n = m := Option.some_inj.mp (there.symm.trans found)
    exact (h before held).course course

theorem staysInside_of_mapper {number : Nat} {wired : Mirroring} {banks : Banks} {board : Board}
    (h : banks.StaysInside) (known : ofMapper? number wired banks = some board) :
    board.StaysInside := by
  intro m found
  obtain ⟨n, there, course⟩ := ofMapper?_course known
  obtain rfl : n = m := Option.some_inj.mp (there.symm.trans found)
  exact h.course course

end Board

/-! ## Boards of an image -/

namespace Cartridge

variable {image : Array UInt8} {cartridge : Cartridge} {b : Board}

/-- The patterns that a header declares. -/
theorem Accepted.patterns_size (h : Accepted image cartridge) :
    (image.extract cartridge.header.chrStart cartridge.header.romEnd).size =
      cartridge.header.chrUnits * 0x2000 := by
  have whole := h.whole
  have end_eq : cartridge.header.romEnd =
    cartridge.header.chrStart + cartridge.header.chrUnits * 0x2000 := rfl
  rw [Array.size_extract]
  omega

theorem ofImage_staysInside (accepted : ofImage image = .ok cartridge) :
    cartridge.board.StaysInside := by
  have known := ofImage_accepted accepted
  refine Board.staysInside_of_mapper (Banks.mount_staysInside _ ?_ ?_ ?_) known.board
  · rw [known.program_size]
    exact Nat.mul_pos (Nat.pos_of_ne_zero known.program) (by decide)
  · rw [known.program_size]
    exact Nat.dvd_mul_left_of_dvd (by decide) _
  · rw [known.patterns_size]
    exact Nat.dvd_mul_left_of_dvd (by decide) _

end Cartridge

namespace Board

/-- Behind every course of changes the windows of an accepted cartridge show whole pieces of its
memories, so at every address from `$8000` on a byte of its program is read, from a place that agrees
with the address within a window. Of the chips themselves only the contents of the RAM have changed. -/
theorem windows_stay_inside (accepted : Cartridge.ofImage image = .ok cartridge)
    (course : cartridge.board.Course b) :
    let header := cartridge.header
    let program := image.extract header.prgStart header.chrStart
    ∃ m, b.banks? = some m ∧
      WithinMemory m.prgWindows prgWindow program.size ∧
      (chrWindow ≤ m.chr.size → WithinMemory m.chrWindows chrWindow m.chr.size) ∧
      (∀ address : UInt16, 0x8000 ≤ address.toNat →
        ∃ place, ∃ inside : place < program.size,
          place % prgWindow = address.toNat % prgWindow ∧
            b.readPrg address = some program[place]) ∧
      m.prg = program ∧
      (0 < header.chrUnits → m.chr = image.extract header.chrStart header.romEnd) ∧
      (header.chrUnits = 0 → m.chr.size = header.chrRamSize) ∧
      m.workRam.size = header.workRamSize ∧
      m.battery = header.hasBattery := by
  intro header program
  have known := Cartridge.ofImage_accepted accepted
  have patterns : (image.extract header.chrStart header.romEnd).size = header.chrUnits * 0x2000 :=
    known.patterns_size
  obtain ⟨m, found, chips⟩ := Cartridge.ofImage_chips accepted course
  have inside : m.StaysInside :=
    course.keeps (fun _ _ => StaysInside.change) (Cartridge.ofImage_staysInside accepted) m found
  have same : m.prg = program := chips.program
  have ram : (image.extract header.chrStart header.romEnd).isEmpty = true ↔ header.chrUnits = 0 := by
    rw [Array.isEmpty_iff_size_eq_zero, patterns]
    omega
  have mounted : (Banks.mount header program (image.extract header.chrStart header.romEnd)).chr =
      if header.chrUnits = 0 then .replicate header.chrRamSize 0
      else image.extract header.chrStart header.romEnd := if_congr ram rfl rfl
  refine ⟨m, found, ?_, fun large => (inside.patterns large).2, fun address high => ?_, same,
    fun some => ?_, fun none => ?_, ?_, chips.battery⟩
  · rw [← same]
    exact inside.program.windows
  · obtain ⟨place, bound, agrees, shown⟩ := inside.program.readPrg address
    simp only [← same]
    refine ⟨place, bound, agrees, ?_⟩
    rw [readPrg_of_high found high, shown]
  · have rom : (image.extract header.chrStart header.romEnd).isEmpty = false := by
      rw [Bool.eq_false_iff, Ne, ram]
      omega
    rw [chips.patterns rom, mounted, if_neg (by omega)]
  · rw [chips.patternSize, mounted, if_pos none, Array.size_replicate]
  · rw [chips.workSize]
    exact Array.size_replicate

/-- The same windows behind a change of mode on a board whose number of banks is no power of two. -/
theorem three_banks_stay_inside :
    ∃ cartridge, Cartridge.ofImage threeBankImage = .ok cartridge ∧
      ∃ m, (cartridge.board.writePrg 0xE000 1).clock.banks? = some m ∧
        WithinMemory m.prgWindows prgWindow 0xC000 := by
  have parsed : Header.parse threeBankImage = .ok threeBankHeader := Cartridge.parse_append rfl _
  obtain ⟨cartridge, accepted⟩ := Cartridge.ofImage_accepts parsed (by decide)
    (by rw [threeBankImage_size]; decide) fun _ => rfl
  have header : cartridge.header = threeBankHeader :=
    Except.ok.inj ((Cartridge.ofImage_accepted accepted).header.symm.trans parsed)
  have course : cartridge.board.Course (cartridge.board.writePrg 0xE000 1).clock :=
    .tail (.single (.write _ 0xE000 1)) (.clock _)
  obtain ⟨m, found, windows, -⟩ := windows_stay_inside accepted course
  have size := (Cartridge.ofImage_accepted accepted).program_size
  rw [size, header] at windows
  exact ⟨cartridge, accepted, m, found, windows⟩

end Board

end Famiclone
