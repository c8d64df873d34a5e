import Famiclone.Proofs.Board.Course
import Famiclone.Proofs.Cartridge.Image

/-!
# What boards do to their chips

The registers of the boards differ, but all that a board does with its chips is to switch banks and to
store into its RAM. So its chips run along a course of such changes wherever the board goes, and what
bank switches and stores keep needs no look at the registers.
-/
namespace Famiclone

namespace Banks

/-- One change of the chips: a bank switch, whatever its size, or a store. -/
inductive Change : Banks → Banks → Prop
  | switchPrg (m : Banks) (first count : Nat) (bank : Int) :
      Change m { m with prgWindows := selectWindows m.prgWindows prgWindow m.prg.size first count bank }
  | switchChr (m : Banks) (first count : Nat) (bank : Int) :
      Change m { m with chrWindows := selectWindows m.chrWindows chrWindow m.chr.size first count bank }
  | writeChr (m : Banks) (address : UInt16) (value : UInt8) : Change m (m.writeChr address value)
  | writeWork (m : Banks) (cell : Nat) (value : UInt8) :
      Change m { m with workRam := m.workRam.setIfInBounds cell value }

abbrev Course : Banks → Banks → Prop := Relation.ReflTransGen Change

/-- What each change keeps, a course keeps. -/
theorem Course.keeps {P : Banks → Prop} (step : ∀ m n, Change m n → P m → P n) {m n : Banks}
    (course : m.Course n) (h : P m) : P n := keeps_of_steps step course h

/-- The chips of an image before any bank has been selected: all windows stand at the start. -/
def unswitched (h : Header) (prg chr : Array UInt8) : Banks where
  prg
  chr := if chr.isEmpty then Array.replicate h.chrRamSize 0 else chr
  chrWritable := chr.isEmpty
  workRam := Array.replicate h.workRamSize 0
  battery := h.hasBattery
  prgWindows := Vector.replicate 4 0
  chrWindows := Vector.replicate 8 0

theorem mount_course (h : Header) (prg chr : Array UInt8) :
    (unswitched h prg chr).Course (mount h prg chr) :=
  .tail (.single (.switchPrg _ 0 4 0)) (.switchChr _ 0 8 0)

end Banks

/-! ## Latch boards -/

namespace LatchBoard

variable (b : LatchBoard)

theorem latch_course (value : UInt8) : b.banks.Course (b.latch value).banks := by
  unfold latch
  dsimp only
  split
  · exact .refl
  · exact .single (.switchPrg _ 0 2 _)
  · exact .single (.switchChr _ 0 8 _)
  · exact .single (.switchPrg _ 0 4 _)
  · exact .tail (.single (.switchPrg _ 0 4 _)) (.switchChr _ 0 8 _)
  · exact .single (.switchPrg _ 0 4 _)
  · exact .tail (.single (.switchPrg _ 0 4 _)) (.switchChr _ 0 8 _)

theorem mount_course (wiring : Wiring) (banks : Banks) (wired : Mirroring) :
    banks.Course (mount wiring banks wired).banks := by
  unfold mount
  dsimp only
  split
  · exact .tail (.single (.switchPrg _ 0 2 0)) (.switchPrg _ 2 2 (-1))
  · exact .refl

theorem write_course (address : UInt16) (value : UInt8) :
    b.banks.Course (b.write address value).banks := by
  unfold write
  split
  · exact b.latch_course value
  · split
    · exact .single (.writeWork _ _ value)
    · exact .refl

theorem reset_course : b.banks.Course b.reset.banks := by
  unfold reset
  split
  · exact b.latch_course 0
  · exact b.latch_course 0
  · exact .refl

end LatchBoard

/-! ## The MMC1 -/

namespace Mmc1

variable {m n : Banks} {b : Mmc1}

theorem selectPrg_course (h : m.Course n) : m.Course (b.selectPrg n) := by
  unfold selectPrg
  dsimp only
  split <;> exact (h.tail (.switchPrg _ 0 2 _)).tail (.switchPrg _ 2 2 _)

theorem selectChr_course (h : m.Course n) : m.Course (b.selectChr n) := by
  unfold selectChr
  split
  · exact (h.tail (.switchChr _ 0 4 _)).tail (.switchChr _ 4 4 _)
  · exact h.tail (.switchChr _ 0 8 _)

theorem update_course (h : m.Course b.banks) : m.Course b.update.banks :=
  selectChr_course (selectPrg_course h)

theorem load_banks (b : Mmc1) (address : UInt16) (data : UInt8) :
    (b.load address data).banks = b.banks := by
  unfold load
  split <;> rfl

theorem accept_course (h : m.Course b.banks) (address : UInt16) (value : UInt8) :
    m.Course (b.accept address value).banks := by
  unfold accept
  dsimp only
  split
  · exact update_course h
  · split
    · exact h
    · refine update_course ?_
      rw [load_banks]
      exact h

theorem write_course (h : m.Course b.banks) (address : UInt16) (value : UInt8) :
    m.Course (b.write address value).banks := by
  unfold write
  dsimp only
  split
  · split
    · exact h
    · exact accept_course (b := { b with idle := 0 }) h address value
  · split
    · exact h.tail (.writeWork _ _ value)
    · exact h

end Mmc1

/-! ## The MMC3 -/

namespace Mmc3

variable {m n : Banks} {b : Mmc3}

theorem selectPrg_course (h : m.Course n) : m.Course (b.selectPrg n) := by
  unfold selectPrg
  dsimp only
  split <;> exact (((h.tail (.switchPrg _ 0 1 _)).tail (.switchPrg _ 2 1 _)).tail
    (.switchPrg _ 1 1 _)).tail (.switchPrg _ 3 1 _)

theorem selectChr_course (h : m.Course n) : m.Course (b.selectChr n) := by
  have step {n : Banks} (h : m.Course n) (slot : Nat) (bank : Int) :
      m.Course (n.setChr1 slot bank) := h.tail (.switchChr n slot 1 bank)
  unfold selectChr
  dsimp only
  iterate 8 refine step ?_ _ _
  exact h

theorem update_course (h : m.Course b.banks) : m.Course b.update.banks :=
  selectChr_course (selectPrg_course h)

theorem writeRegister_course (h : m.Course b.banks) (address : UInt16) (value : UInt8) :
    m.Course (b.writeRegister address value).banks := by
  unfold writeRegister
  dsimp only
  split
  · exact update_course h
  · exact update_course h
  · split
    · exact h
    · exact h
  · exact h
  · exact h
  · exact h
  · exact h
  · exact h

theorem write_course (h : m.Course b.banks) (address : UInt16) (value : UInt8) :
    m.Course (b.write address value).banks := by
  unfold write
  split
  · exact writeRegister_course h address value
  · split
    · exact h.tail (.writeWork _ _ value)
    · exact h

theorem observe_banks (b : Mmc3) (address : UInt16) : (b.observe address).banks = b.banks := by
  unfold observe countRise
  dsimp only
  split
  · split <;> rfl
  · split <;> rfl

theorem clock_banks (b : Mmc3) : b.clock.banks = b.banks := by
  unfold clock
  split <;> rfl

end Mmc3

/-! ## Any board -/

namespace Board

theorem banks?_mapBanks (f : Banks → Banks) (b : Board) :
    (b.mapBanks f).banks? = b.banks?.map f := by
  cases b <;> rfl

variable {b c : Board} {m : Banks}

/-- A board keeps its chips, and each change of the board runs them along a course. -/
theorem Change.banks (change : Change b c) (found : b.banks? = some m) :
    ∃ n, c.banks? = some n ∧ m.Course n := by
  cases change with
  | writeChr address value =>
    refine ⟨m.writeChr address value, ?_, .single (.writeChr m address value)⟩
    rw [Board.writeChr, banks?_mapBanks, found, Option.map_some]
  | writeWork cell value =>
    refine ⟨_, ?_, .single (.writeWork m (cell % m.workRam.size) value)⟩
    rw [mapWorkRam, banks?_mapBanks, found, Option.map_some]
  | write address value =>
    cases b with
    | empty => contradiction
    | latch b =>
      cases found
      exact ⟨_, rfl, b.write_course address value⟩
    | mmc1 b =>
      cases found
      exact ⟨_, rfl, Mmc1.write_course .refl address value⟩
    | mmc3 b =>
      cases found
      exact ⟨_, rfl, Mmc3.write_course .refl address value⟩
  | observe address =>
    cases b with
    | mmc3 b => exact ⟨m, (congrArg some (b.observe_banks address)).trans found, .refl⟩
    | _ => exact ⟨m, found, .refl⟩
  | clock =>
    cases b with
    | mmc3 b => exact ⟨m, (congrArg some b.clock_banks).trans found, .refl⟩
    | _ => exact ⟨m, found, .refl⟩
  | reset =>
    cases b with
    | empty => contradiction
    | latch b =>
      cases found
      exact ⟨_, rfl, b.reset_course⟩
    | mmc1 b =>
      cases found
      exact ⟨_, rfl, Mmc1.update_course .refl⟩
    | mmc3 b =>
      cases found
      exact ⟨_, rfl, Mmc3.update_course .refl⟩

theorem Change.empty (change : Change b c) (bare : b.banks? = none) : c.banks? = none := by
  cases b with
  | empty => cases change <;> rfl
  | _ => contradiction

/-- The chips run along a course wherever their board goes. -/
theorem Course.banks (course : b.Course c) (found : b.banks? = some m) :
    ∃ n, c.banks? = some n ∧ m.Course n := by
  induction course with
  | refl => exact ⟨m, found, .refl⟩
  | tail _ last ih =>
    obtain ⟨n, there, before⟩ := ih
    obtain ⟨k, here, after⟩ := Change.banks last there
    exact ⟨k, here, before.trans after⟩

/-- A fresh board has switched the banks of the chips that it is mounted on. -/
theorem ofMapper?_course {number : Nat} {wired : Mirroring}
    (known : ofMapper? number wired m = some b) : ∃ n, b.banks? = some n ∧ m.Course n := by
  unfold ofMapper? at known
  split at known <;> cases known
  · exact ⟨_, rfl, LatchBoard.mount_course .fixed m wired⟩
  · exact ⟨_, rfl, Mmc1.update_course .refl⟩
  · exact ⟨_, rfl, LatchBoard.mount_course .uxrom m wired⟩
  · exact ⟨_, rfl, LatchBoard.mount_course .cnrom m wired⟩
  · exact ⟨_, rfl, Mmc3.update_course .refl⟩
  · exact ⟨_, rfl, LatchBoard.mount_course .axrom m wired⟩
  · exact ⟨_, rfl, LatchBoard.mount_course .colorDreams m wired⟩
  · exact ⟨_, rfl, LatchBoard.mount_course .bnrom m wired⟩
  · exact ⟨_, rfl, LatchBoard.mount_course .gxrom m wired⟩

end Board

/-- Whatever has been done to the board of an image, its chips have come from those that are mounted. -/
theorem Cartridge.banks_course {image : Array UInt8} {cartridge : Cartridge} {b : Board}
    (accepted : ofImage image = .ok cartridge) (course : cartridge.board.Course b) :
    ∃ m, b.banks? = some m ∧ (Banks.mount cartridge.header
      (image.extract cartridge.header.prgStart cartridge.header.chrStart)
      (image.extract cartridge.header.chrStart cartridge.header.romEnd)).Course m := by
  obtain ⟨fresh, found, mounted⟩ := Board.ofMapper?_course (ofImage_accepted accepted).board
  obtain ⟨m, there, changed⟩ := course.banks found
  exact ⟨m, there, mounted.trans changed⟩

end Famiclone
