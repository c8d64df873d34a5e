import Famiclone.Mainboard
import Famiclone.Proofs.Picture.Dot
import Famiclone.Proofs.Processor.Course

/-!
# The course of a board

Everything that is done to a board is made of six kinds of changes, whether the processor, the picture
unit or the reset button does it. As long as the cartridge stays in the slot, its board runs along a
course of such changes, so a fact that each of them keeps holds whatever the program does.
-/
namespace Famiclone

/-- One change of a board. -/
inductive Board.Change : Board → Board → Prop
  | write (b : Board) (address : UInt16) (value : UInt8) : Change b (b.writePrg address value)
  | writeChr (b : Board) (address : UInt16) (value : UInt8) : Change b (b.writeChr address value)
  | writeWork (b : Board) (cell : Nat) (value : UInt8) :
      Change b (b.mapWorkRam fun ram => ram.setIfInBounds (cell % ram.size) value)
  | observe (b : Board) (address : UInt16) : Change b (b.observe address)
  | clock (b : Board) : Change b b.clock
  | reset (b : Board) : Change b b.reset

abbrev Board.Course : Board → Board → Prop := Relation.ReflTransGen Board.Change

/-- What each change keeps, a course keeps. -/
theorem Board.Course.keeps {P : Board → Prop} (step : ∀ b c, Board.Change b c → P b → P c)
    {b c : Board} (h : b.Course c) (hb : P b) : P c := keeps_of_steps step h hb

theorem Board.observe_course (b : Board) (heard : List UInt16) :
    b.Course (heard.foldl PictureBus.observe b) := by
  induction heard generalizing b with
  | nil => exact .refl
  | cons address rest ih => exact .head (.observe b address) (ih _)

/-! ## What the picture unit does -/

namespace Picture

theorem fetch_course (m : VideoMemory) (board : Board) (address : UInt16) :
    board.Course (m.fetch board address).2 := .single (.observe board address)

theorem store_course (m : VideoMemory) (board : Board) (address : UInt16) (value : UInt8) :
    board.Course (m.store board address value).2 := by
  unfold VideoMemory.store
  dsimp only
  split
  · exact .single (.writeChr board _ value)
  · split
    · exact .refl
    · exact .refl

theorem moveOn_course (p : Picture) (board : Board) : board.Course (p.moveOn board).2 := by
  unfold moveOn
  split
  · exact .refl
  · exact .single (.observe board _)

theorem readData_course (p : Picture) (board : Board) : board.Course (p.readData board).2.2 := by
  unfold readData
  dsimp only
  split
  · exact moveOn_course _ board
  · exact (fetch_course p.memory board _).trans (moveOn_course _ _)

theorem read_course (p : Picture) (board : Board) (register : Fin 8) :
    board.Course (p.read board register).2.2 := by
  unfold read
  dsimp only
  split
  · exact .refl
  · exact .refl
  · exact readData_course p board
  · exact .refl

theorem writeAddress_course (p : Picture) (board : Board) (value : UInt8) :
    board.Course (p.writeAddress board value).2 := by
  unfold writeAddress
  split
  · exact .single (.observe board _)
  · exact .refl

theorem writeData_course (p : Picture) (board : Board) (value : UInt8) :
    board.Course (p.writeData board value).2 := by
  unfold writeData
  dsimp only
  have heard : board.Course (if p.cursor.address < 0x2000 then
      PictureBus.observe board p.cursor.address else board) := by
    split
    · exact .single (.observe board _)
    · exact .refl
  exact (heard.trans (store_course p.memory _ _ value)).trans (moveOn_course _ _)

theorem write_course (p : Picture) (board : Board) (register : Fin 8) (value : UInt8) :
    board.Course (p.write board register value).2 := by
  unfold write
  split
  · exact .refl
  · exact .refl
  · exact .refl
  · exact .refl
  · exact .refl
  · exact writeAddress_course _ board value
  · exact writeData_course _ board value
  · exact .refl

end Picture

namespace PictureUnit

theorem tick_course (u : PictureUnit) (board : Board) : board.Course (u.tick board).2 := by
  cases u with
  | full p =>
    show board.Course (p.tick board).2
    rw [Picture.tick_snd]
    exact board.observe_course _
  | blank p => exact .refl

theorem ticks_course (n : Nat) (u : PictureUnit) (board : Board) :
    board.Course (ticks n u board).2 := by
  induction n generalizing u board with
  | zero => exact .refl
  | succ n ih => exact (tick_course u board).trans (ih _ _)

theorem read_course (u : PictureUnit) (board : Board) (register : Fin 8) :
    board.Course (u.read board register).2.2 := by
  cases u with
  | full p => exact Picture.read_course p board register
  | blank p => exact .refl

theorem write_course (u : PictureUnit) (board : Board) (register : Fin 8) (value : UInt8) :
    board.Course (u.write board register value).2 := by
  cases u with
  | full p => exact Picture.write_course p board register value
  | blank p => exact .refl

end PictureUnit

/-! ## What the mainboard does -/

namespace Mainboard

theorem clock_course (m : Mainboard) : m.board.Course m.clock.board := by
  have dots := PictureUnit.ticks_course
    ((m.remainder + m.ratio.dots) / m.ratio.cycles) m.picture m.board
  exact dots.tail (.clock _)

theorem access_course (m : Mainboard) (address : UInt16) :
    m.board.Course (m.access address).2.board := by
  unfold access
  cases Place.of m.profile address with
  | picture register => exact PictureUnit.read_course m.picture m.board register
  | ram cell => exact .refl
  | soundStatus => exact .refl
  | port port => exact .refl
  | register => exact .refl
  | nothing => exact .refl
  | workRam cell => exact .refl
  | cartridge => exact .refl

theorem read_course (m : Mainboard) (address : UInt16) :
    m.board.Course (m.read address).2.board := by
  unfold read
  dsimp only
  split
  · exact (access_course m address).trans (clock_course _)
  · exact (access_course m address).trans (clock_course _)

theorem store_course (m : Mainboard) (address : UInt16) (value : UInt8) :
    m.board.Course (m.store address value).board := by
  unfold store
  cases Place.of m.profile address with
  | picture register => exact PictureUnit.write_course m.picture m.board register value
  | workRam cell =>
    dsimp only [writeWork]
    split
    · exact .single (.writeWork m.board cell.val value)
    · exact .refl
  | register =>
    dsimp only
    split
    · exact .refl
    · exact .refl
  | port port =>
    cases port with
    | one => exact .refl
    | two => exact .refl
  | cartridge => exact .single (.write m.board address value)
  | soundStatus => exact .refl
  | ram cell => exact .refl
  | nothing => exact .refl

theorem write_course (m : Mainboard) (address : UInt16) (value : UInt8) :
    m.board.Course (m.write address value).board :=
  (store_course m address value).trans (clock_course _)

theorem takeTransfer_board (m : Mainboard) : m.takeTransfer.2.board = m.board := by
  unfold takeTransfer
  split <;> rfl

end Mainboard

/-- Each change of a machine takes its board along a course. -/
theorem Machine.Change.board {m n : Machine Mainboard} (change : Change m n) :
    m.bus.board.Course n.bus.board := by
  cases change with
  | inner cpu cycles => exact .refl
  | read address => exact Mainboard.read_course m.bus address
  | write address value => exact Mainboard.write_course m.bus address value
  | take =>
    show m.bus.board.Course m.bus.takeTransfer.2.board
    rw [Mainboard.takeTransfer_board]
  | deliver value => exact .refl

theorem Machine.Course.board {m n : Machine Mainboard} (course : m.Course n) :
    m.bus.board.Course n.bus.board := by
  induction course with
  | refl => exact .refl
  | tail _ last ih => exact ih.trans last.board

end Famiclone
