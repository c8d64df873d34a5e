import Famiclone.Picture.Registers
import Famiclone.Proofs.Board.PatternRam

/-!
# The cells behind the picture bus

An address of the picture bus leads to a cell of pattern memory, of the nametables or of the palette. The
windows and the arrangement of the nametables decide which addresses share a cell. On a board with enough
pattern RAM the two lower ranges are a memory: a byte is read where it has been written, at every address
of its cell, and nowhere else; and whatever an address tells the board, it moves no cell.
-/
namespace Famiclone

/-- A cell behind the picture bus. -/
inductive VideoCell where
  /-- By its place in the pattern memory, of which only a part may show. -/
  | pattern (place : Nat)
  | nametable (place : Fin 4096)
  | palette (place : Fin 32)
  deriving DecidableEq

namespace Board

/-- The byte at a place in pattern memory; outside of it there is zero. -/
def patternAt (b : Board) (place : Nat) : UInt8 := (b.banks?.map fun m => m.chr.getD place 0).getD 0

def videoCell (b : Board) (address : Nat) : VideoCell :=
  if address < 0x2000 then .pattern ((b.patternCell? (UInt16.ofNat address)).getD 0)
  else if address < 0x3F00 then .nametable (b.mirroring.cell address)
  else .palette (VideoMemory.paletteCell address)

/-- All that shows of the pattern memory is RAM. -/
def ShowsRam (b : Board) : Prop :=
  ∃ m, b.banks? = some m ∧ m.chrWritable = true ∧ ∀ address, m.chrOffset address < m.chr.size

/-- Eight kilobytes of pattern RAM fill the windows, wherever these have gone. -/
theorem showsRam_of_course {image : Array UInt8} {cartridge : Cartridge} {b : Board}
    (accepted : Cartridge.ofImage image = .ok cartridge) (course : cartridge.board.Course b)
    (ram : cartridge.header.chrUnits = 0) (size : 0x2000 ≤ cartridge.header.chrRamSize) :
    b.ShowsRam := by
  obtain ⟨m, found, shown, writable, filled⟩ := patterns_of_course accepted course
  refine ⟨m, found, writable.mpr ram, fun address => ?_⟩
  have pieces := Banks.chrRamSize_pieces cartridge.header
  rw [← filled ram] at pieces size
  have rest : address.toNat % chrWindow < chrWindow := Nat.mod_lt _ (by decide)
  have window : chrWindow = 0x400 := rfl
  exact (shown.chrOffset_lt_iff pieces).mpr (by omega)

/-! ## Addresses that the board sees -/

theorem observe_banks? (b : Board) (address : UInt16) : (b.observe address).banks? = b.banks? := by
  cases b with
  | mmc3 b => exact congrArg some (b.observe_banks address)
  | _ => rfl

theorem observe_mirroring (b : Board) (address : UInt16) :
    (b.observe address).mirroring = b.mirroring := by
  cases b with
  | mmc3 b =>
    show (b.observe address).mirroring = b.mirroring
    unfold Mmc3.observe Mmc3.countRise
    dsimp only
    split
    · split <;> rfl
    · split <;> rfl
  | _ => rfl

theorem observe_videoCell (b : Board) (seen : UInt16) (address : Nat) :
    (b.observe seen).videoCell address = b.videoCell address := by
  simp only [videoCell, patternCell?, observe_banks?, observe_mirroring]

theorem observe_patternAt (b : Board) (seen : UInt16) (place : Nat) :
    (b.observe seen).patternAt place = b.patternAt place := by
  simp only [patternAt, observe_banks?]

theorem ShowsRam.observe {b : Board} (ram : b.ShowsRam) (seen : UInt16) :
    (b.observe seen).ShowsRam := by
  unfold ShowsRam
  rw [observe_banks?]
  exact ram

/-! ## Writes to pattern RAM -/

theorem writeChr_banks? (b : Board) (address : UInt16) (value : UInt8) :
    (b.writeChr address value).banks? = b.banks?.map fun m => m.writeChr address value :=
  banks?_mapBanks _ b

theorem writeChr_videoCell (b : Board) (written : UInt16) (value : UInt8) (address : Nat) :
    (b.writeChr written value).videoCell address = b.videoCell address := by
  have mirroring : (b.writeChr written value).mirroring = b.mirroring := by cases b <;> rfl
  have offset : (fun m : Banks => (m.writeChr written value).chrOffset (UInt16.ofNat address)) =
      fun m => m.chrOffset (UInt16.ofNat address) :=
    funext fun m => m.writeChr_chrOffset written _ value
  simp only [videoCell, patternCell?, writeChr_banks?, Option.map_map, Function.comp_def, mirroring,
    offset]

/-- A write changes one place of the memory. -/
theorem writeChr_patternAt {b : Board} (ram : b.ShowsRam) (written : UInt16) (value : UInt8)
    (place : Nat) : (b.writeChr written value).patternAt place =
      if (b.patternCell? written).getD 0 = place then value else b.patternAt place := by
  obtain ⟨m, found, writable, inside⟩ := ram
  have inside := inside written
  simp only [patternAt, patternCell?, writeChr_banks?, found, Option.map_some, Option.getD_some,
    Banks.writeChr, if_pos writable, Array.getD_eq_getD_getElem?, Array.getElem?_setIfInBounds]
  by_cases same : m.chrOffset written = place
  · simp [same ▸ inside, same]
  · simp [same]

theorem ShowsRam.writeChr {b : Board} (ram : b.ShowsRam) (written : UInt16) (value : UInt8) :
    (b.writeChr written value).ShowsRam := by
  obtain ⟨m, found, writable, inside⟩ := ram
  refine ⟨m.writeChr written value, ?_, ?_, fun address => ?_⟩
  · rw [writeChr_banks?, found, Option.map_some]
  · rw [Banks.writeChr, if_pos writable]
    exact writable
  · rw [Banks.writeChr_chrOffset, Banks.writeChr, if_pos writable]
    simpa using inside address

end Board

/-! ## The two memories together -/

namespace VideoMemory

/-- What a cell holds. -/
def contents (m : VideoMemory) (board : Board) : VideoCell → UInt8
  | .pattern place => board.patternAt place
  | .nametable place => m.nametables.get place
  | .palette place => m.palette.get place

theorem contents_observe (m : VideoMemory) (board : Board) (seen : UInt16) :
    m.contents (board.observe seen) = m.contents board := by
  funext cell
  cases cell with
  | pattern place => exact board.observe_patternAt seen place
  | nametable place => rfl
  | palette place => rfl

variable {m : VideoMemory} {board : Board} {address : UInt16}

/-- Below the palette a byte is read from its cell. -/
theorem peek_eq_contents (bus : address.toNat < 0x3F00) :
    m.peek board address = m.contents board (board.videoCell address.toNat) := by
  have small : address.toNat % 0x4000 = address.toNat := Nat.mod_eq_of_lt (by omega)
  simp only [peek, small, Board.videoCell, if_pos bus]
  split
  next pattern =>
    have shown : board.readChr (UInt16.ofNat address.toNat) =
        board.patternAt ((board.patternCell? (UInt16.ofNat address.toNat)).getD 0) := by
      cases board <;> rfl
    exact shown
  next upper =>
    rfl

/-- Below the palette a byte is written to its cell. -/
theorem contents_store (ram : board.ShowsRam) (bus : address.toNat < 0x3F00) (value : UInt8)
    (cell : VideoCell) :
    (m.store board address value).1.contents (m.store board address value).2 cell =
      if board.videoCell address.toNat = cell then value else m.contents board cell := by
  have small : address.toNat % 0x4000 = address.toNat := Nat.mod_eq_of_lt (by omega)
  simp only [store, small, Board.videoCell, if_pos bus]
  split
  next pattern =>
    cases cell with
    | pattern place =>
      simp only [VideoCell.pattern.injEq]
      exact Board.writeChr_patternAt ram _ value place
    | nametable place => rfl
    | palette place => rfl
  next upper =>
    cases cell with
    | pattern place => rfl
    | nametable place =>
      simp only [VideoCell.nametable.injEq]
      exact get_put m.nametables _ place value
    | palette place => rfl

theorem store_videoCell (m : VideoMemory) (board : Board) (written : UInt16) (value : UInt8)
    (address : Nat) : (m.store board written value).2.videoCell address = board.videoCell address := by
  unfold store
  dsimp only
  split
  · exact board.writeChr_videoCell _ value address
  · split <;> rfl

theorem store_showsRam (m : VideoMemory) (ram : board.ShowsRam) (written : UInt16) (value : UInt8) :
    (m.store board written value).2.ShowsRam := by
  unfold store
  dsimp only
  split
  · exact ram.writeChr _ value
  · split <;> exact ram

end VideoMemory

end Famiclone
