import Famiclone.Proofs.Picture.Events
import Famiclone.Proofs.Picture.VideoCells

/-!
# The data port

A program reaches the cells behind the picture bus through four registers: one read forgets a half-written
address, two writes set one, and every access of the data moves it on by a stride. Reads come one access
late. While the unit does not render, dots that pass in between change none of this, so the port can be
described by itself, and every row of accesses follows that description. A block that is written is read
back from it.
-/
namespace Famiclone

/-- The data port as a program finds it. -/
structure DataPort where
  /-- The address of the next access, of fourteen bits. -/
  address : Nat
  /-- The high byte of an address that is half written. -/
  high : Option UInt8
  /-- The byte with which the next read answers. -/
  buffer : UInt8
  cells : VideoCell → UInt8

namespace DataPort

/-- What a program does to the port. -/
inductive Action where
  /-- Forget a half-written address. -/
  | release
  | address (byte : UInt8)
  | write (byte : UInt8)
  | read

def Action.isData : Action → Bool
  | write _ | read => true
  | release | address _ => false

/-- The address after a number of accesses. -/
def reach (stride address k : Nat) : Nat := (address + k * stride) % 0x4000

theorem reach_zero {stride address : Nat} (small : address < 0x4000) :
    reach stride address 0 = address := by
  rw [reach, Nat.zero_mul, Nat.add_zero, Nat.mod_eq_of_lt small]

/-- Of the first address fourteen bits count. -/
theorem reach_mod (stride address k : Nat) :
    reach stride (address % 0x4000) k = reach stride address k := by
  rw [reach, reach, Nat.mod_add_mod]

theorem reach_succ (stride address k : Nat) :
    reach stride ((address + stride) % 0x4000) k = reach stride address (k + 1) := by
  rw [reach, reach, Nat.mod_add_mod, Nat.add_assoc, Nat.add_comm stride, ← Nat.succ_mul]

section

variable (map : Nat → VideoCell) (stride : Nat)

def act (d : DataPort) : Action → DataPort
  | .release => { d with high := none }
  | .address byte =>
    match d.high with
    | none => { d with high := some (byte &&& 0x3F) }
    | some high => { d with high := none, address := (word high byte).toNat % 0x4000 }
  | .write byte =>
    { d with
      cells := Function.update d.cells (map d.address) byte
      address := (d.address + stride) % 0x4000 }
  | .read => { d with buffer := d.cells (map d.address), address := (d.address + stride) % 0x4000 }

def run (d : DataPort) (actions : List Action) : DataPort := actions.foldl (act map stride) d

def answer (d : DataPort) : Action → List UInt8
  | .read => [d.buffer]
  | _ => []

def answers (d : DataPort) : List Action → List UInt8
  | [] => []
  | action :: rest => d.answer action ++ answers (d.act map stride action) rest

/-- No access of a row meets the palette. -/
def Below (d : DataPort) : List Action → Prop
  | [] => True
  | action :: rest => (action.isData = true → d.address < 0x3F00) ∧ Below (d.act map stride action) rest

variable {map stride}

theorem run_append (d : DataPort) (first second : List Action) :
    d.run map stride (first ++ second) = (d.run map stride first).run map stride second :=
  List.foldl_append

theorem answers_append (d : DataPort) (first second : List Action) :
    d.answers map stride (first ++ second) =
      d.answers map stride first ++ (d.run map stride first).answers map stride second := by
  induction first generalizing d with
  | nil => rfl
  | cons action rest ih =>
    simp only [List.cons_append, answers, ih, List.append_assoc]
    rfl

theorem below_append (d : DataPort) (first second : List Action) :
    d.Below map stride (first ++ second) ↔
      d.Below map stride first ∧ (d.run map stride first).Below map stride second := by
  induction first generalizing d with
  | nil => simp [Below, run]
  | cons action rest ih =>
    simp only [List.cons_append, Below, ih, and_assoc]
    rfl

/-! ## Rows of accesses -/

/-- An access moves the address on. -/
theorem act_address {action : Action} (data : action.isData = true) (d : DataPort) :
    (d.act map stride action).address = (d.address + stride) % 0x4000 := by
  cases action with
  | write byte => rfl
  | read => rfl
  | _ => contradiction

theorem below_of_reach {actions : List Action} (data : ∀ action ∈ actions, action.isData = true)
    {d : DataPort} (small : d.address < 0x4000)
    (below : ∀ k < actions.length, reach stride d.address k < 0x3F00) :
    d.Below map stride actions := by
  induction actions generalizing d with
  | nil => trivial
  | cons action rest ih =>
    rw [List.forall_mem_cons] at data
    have first := below 0 (Nat.succ_pos _)
    rw [reach_zero small] at first
    have moved : (d.act map stride action).address = (d.address + stride) % 0x4000 :=
      act_address data.1 d
    refine ⟨fun _ => first, ih data.2 ?_ fun k inside => ?_⟩
    · rw [moved]
      exact Nat.mod_lt _ (by decide)
    · rw [moved, reach_succ]
      exact below (k + 1) (Nat.succ_lt_succ inside)

/-- Writes leave the cells alone that they do not reach. -/
theorem run_writes_of_apart {block : List UInt8} {d : DataPort} (small : d.address < 0x4000)
    {cell : VideoCell} (apart : ∀ k < block.length, map (reach stride d.address k) ≠ cell) :
    (d.run map stride (block.map .write)).cells cell = d.cells cell := by
  induction block generalizing d with
  | nil => rfl
  | cons byte rest ih =>
    have first := apart 0 (Nat.succ_pos _)
    rw [reach_zero small] at first
    have later : ∀ k < rest.length,
        map (reach stride (d.act map stride (.write byte)).address k) ≠ cell := by
      intro k inside
      rw [act_address rfl, reach_succ]
      exact apart (k + 1) (Nat.succ_lt_succ inside)
    have kept := ih (Nat.mod_lt _ (by decide)) later
    exact kept.trans (Function.update_of_ne (Ne.symm first) _ _)

/-- Where the cells are different, each of them ends with its byte. -/
theorem run_writes {block : List UInt8} {d : DataPort} (small : d.address < 0x4000)
    (apart : ((List.range block.length).map fun k => map (reach stride d.address k)).Nodup) :
    ((List.range block.length).map fun k =>
      (d.run map stride (block.map .write)).cells (map (reach stride d.address k))) = block := by
  induction block generalizing d with
  | nil => rfl
  | cons byte rest ih =>
    let next := d.act map stride (.write byte)
    have moved : ∀ k, reach stride next.address k = reach stride d.address (k + 1) := by
      intro k
      rw [act_address rfl, reach_succ]
    have less : next.address < 0x4000 := Nat.mod_lt _ (by decide)
    simp only [List.length_cons, List.range_succ_eq_map, List.map_cons, List.map_map,
      Function.comp_def, List.nodup_cons, reach_zero small, Nat.succ_eq_add_one] at apart ⊢
    simp only [← moved] at apart ⊢
    obtain ⟨first, later⟩ := apart
    -- The cell of the first byte is not written again.
    have kept : (next.run map stride (rest.map .write)).cells (map d.address) =
        next.cells (map d.address) := by
      refine run_writes_of_apart less fun k inside same => first ?_
      exact List.mem_map.mpr ⟨k, List.mem_range.mpr inside, same⟩
    have stored : next.cells (map d.address) = byte := Function.update_self _ _ _
    exact congrArg₂ List.cons (kept.trans stored) (ih less later)

/-- Reads answer with the byte that waits and then with the cells. -/
theorem answers_reads (n : Nat) {d : DataPort} (small : d.address < 0x4000) :
    d.answers map stride (List.replicate (n + 1) .read) =
      d.buffer :: (List.range n).map fun k => d.cells (map (reach stride d.address k)) := by
  induction n generalizing d with
  | zero => rfl
  | succ n ih =>
    have next := ih (d := d.act map stride .read) (Nat.mod_lt _ (by decide))
    rw [List.replicate_succ, answers, next, List.range_succ_eq_map, List.map_cons, List.map_map,
      act_address rfl, reach_zero small]
    simp only [reach_succ]
    rfl

theorem run_reads_cells (n : Nat) (d : DataPort) :
    (d.run map stride (List.replicate n .read)).cells = d.cells := by
  induction n generalizing d with
  | zero => rfl
  | succ n ih => exact ih (d.act map stride .read)

/-! ## A block and back -/

def readdress (start : UInt16) : List Action :=
  [.release, .address (highByte start), .address (lowByte start)]

/-- Write a block and read it back. -/
def transfer (start : UInt16) (block : List UInt8) : List Action :=
  (readdress start ++ block.map .write) ++ (readdress start ++ List.replicate (block.length + 1) .read)

theorem masked_toNat (byte : UInt8) : (byte &&& 0x3F).toNat = byte.toNat % 64 := by
  rw [UInt8.toNat_and]
  exact Nat.and_two_pow_sub_one_eq_mod _ 6

/-- Of an address fourteen bits count. -/
theorem run_readdress (d : DataPort) (start : UInt16) : d.run map stride (readdress start) =
    { d with high := none, address := start.toNat % 0x4000 } := by
  have bits : (word (highByte start &&& 0x3F) (lowByte start)).toNat % 0x4000 =
      start.toNat % 0x4000 := by
    simp only [word, masked_toNat, highByte, lowByte, UInt16.toNat_ofNat', UInt8.toNat_ofNat']
    omega
  have whole : d.run map stride (readdress start) = { d with
    high := none
    address := (word (highByte start &&& 0x3F) (lowByte start)).toNat % 0x4000 } := rfl
  rw [whole, bits]

theorem below_readdress (d : DataPort) (start : UInt16) : d.Below map stride (readdress start) := by
  simp [readdress, Below, Action.isData]

theorem answers_readdress (d : DataPort) (start : UInt16) :
    d.answers map stride (readdress start) = [] := rfl

theorem answers_writes (block : List UInt8) (d : DataPort) :
    d.answers map stride (block.map .write) = [] := by
  induction block generalizing d with
  | nil => rfl
  | cons byte rest ih => exact ih _

variable {start : UInt16} {block : List UInt8}

/-- Where the accesses of a transfer lead. -/
theorem below_transfer (d : DataPort)
    (below : ∀ k ≤ block.length, reach stride (start.toNat % 0x4000) k < 0x3F00) :
    d.Below map stride (transfer start block) := by
  have small : start.toNat % 0x4000 < 0x4000 := Nat.mod_lt _ (by decide)
  have writes : ∀ action ∈ block.map Action.write, action.isData = true := by simp [Action.isData]
  have reads : ∀ action ∈ List.replicate (block.length + 1) Action.read, action.isData = true := by
    simp [Action.isData]
  simp only [transfer, below_append, below_readdress, run_append, run_readdress, true_and]
  refine ⟨below_of_reach writes small fun k inside => ?_, below_of_reach reads small fun k inside => ?_⟩
  · rw [List.length_map] at inside
    exact below k (Nat.le_of_lt inside)
  · rw [List.length_replicate] at inside
    exact below k (Nat.le_of_lt_succ inside)

/-- A block that has been written to different cells is read back behind the byte that waited. -/
theorem answers_transfer (d : DataPort)
    (apart : ((List.range block.length).map fun k =>
      map (reach stride (start.toNat % 0x4000) k)).Nodup) :
    d.answers map stride (transfer start block) =
      ((d.run map stride (readdress start ++ block.map .write)).buffer) :: block := by
  have small : start.toNat % 0x4000 < 0x4000 := Nat.mod_lt _ (by decide)
  simp only [transfer, answers_append, answers_readdress, answers_writes, run_append, run_readdress,
    List.nil_append]
  rw [answers_reads _ small]
  exact congrArg (List.cons _) (run_writes (d := { d with
    high := none, address := start.toNat % 0x4000 }) small apart)

/-- Cells that are not addressed keep what they hold. -/
theorem run_transfer_of_apart (d : DataPort) {cell : VideoCell}
    (apart : ∀ k < block.length, map (reach stride (start.toNat % 0x4000) k) ≠ cell) :
    (d.run map stride (transfer start block)).cells cell = d.cells cell := by
  have small : start.toNat % 0x4000 < 0x4000 := Nat.mod_lt _ (by decide)
  simp only [transfer, run_append, run_readdress, run_reads_cells]
  exact run_writes_of_apart (d := { d with high := none, address := start.toNat % 0x4000 }) small apart

end

end DataPort

/-! ## The port of the unit -/

namespace Scroll

theorem address_toNat (s : Scroll) : s.address.toNat = s.toNat % 0x4000 := by
  simp only [address, UInt16.toNat_ofNat']
  omega

/-- Of a position that moves on as an address fourteen bits count. -/
theorem add_toNat_mod (s : Scroll) (n : Nat) :
    (s.add n).toNat % 0x4000 = (s.toNat % 0x4000 + n) % 0x4000 := by
  rw [add, toNat_ofNat]
  omega

end Scroll

namespace DataPort.Action

def event : Action → Picture.Event Board
  | release => .read 2
  | address byte => .write 6 byte
  | write byte => .write 7 byte
  | read => .read 7

end DataPort.Action

namespace Picture

open DataPort

/-- What a picture unit and its board are to a program that uses the data port. -/
def dataPort (s : Picture × Board) : DataPort where
  address := s.1.cursor.toNat % 0x4000
  high := if s.1.secondWrite then some (highByte s.1.origin.toWord) else none
  buffer := s.1.readBuffer
  cells := s.1.memory.contents s.2

/-- What an event answers through the data register. -/
def Event.dataAnswer (s : Picture × Board) : Event Board → List UInt8
  | .read register => if register = 7 then [(s.1.read s.2 register).1] else []
  | _ => []

/-- What the reads of the data register answer along a row of events. -/
def dataAnswers (s : Picture × Board) : List (Event Board) → List UInt8
  | [] => []
  | event :: rest => event.dataAnswer s ++ dataAnswers (happen s event) rest

/-- A unit that does not render, on a board that shows pattern RAM. -/
structure DarkPort (map : Nat → VideoCell) (stride : Nat) (s : Picture × Board) : Prop where
  dark : s.1.mask.renders = false
  stride : s.1.control.stride = stride
  map : ∀ address, s.2.videoCell address = map address
  ram : s.2.ShowsRam

variable {map : Nat → VideoCell} {stride : Nat} {s : Picture × Board}

theorem updateStatus_eq (p : Picture) : p.updateStatus = { p with
    status := p.updateStatus.status, suppressVblank := p.updateStatus.suppressVblank } := by
  unfold updateStatus
  split_ifs <;> rfl

/-- A dot that passes does not show at the port. -/
theorem DarkPort.tick (port : DarkPort map stride s) :
    DarkPort map stride (happen s .tick) ∧ dataPort (happen s .tick) = dataPort s := by
  have ticked : happen s .tick = s.1.tick s.2 := rfl
  rw [ticked, tick_of_dark port.dark, updateStatus_eq]
  exact ⟨⟨port.dark, port.stride, port.map, port.ram⟩, rfl⟩

/-- The cursor of a unit that does not render moves on by its stride. -/
theorem moveOn_of_dark {p : Picture} (dark : p.mask.renders = false) (board : Board) :
    p.moveOn board = ({ p with cursor := p.cursor.add p.control.stride },
      board.observe (p.cursor.add p.control.stride).address) := by
  have still : p.rendering = false := by
    unfold rendering
    rw [dark, Bool.false_and]
  unfold moveOn
  rw [still]
  rfl

/-- What is done to the memories shows at the port, and then the address moves on. -/
theorem DarkPort.moveOn {p : Picture} {board : Board} (port : DarkPort map stride (p, board)) :
    DarkPort map stride (p.moveOn board) ∧ dataPort (p.moveOn board) =
      { dataPort (p, board) with address := ((dataPort (p, board)).address + stride) % 0x4000 } := by
  rw [moveOn_of_dark port.dark]
  refine ⟨⟨port.dark, port.stride, fun address => ?_, port.ram.observe _⟩, ?_⟩
  · rw [Board.observe_videoCell]
    exact port.map address
  · have moved : (p.cursor.add p.control.stride).toNat % 0x4000 =
        (p.cursor.toNat % 0x4000 + stride) % 0x4000 := by
      rw [Scroll.add_toNat_mod]
      exact congrArg (fun n => (p.cursor.toNat % 0x4000 + n) % 0x4000) port.stride
    simp only [dataPort, moved, VideoMemory.contents_observe]

/-- The second byte of an address. -/
theorem DarkPort.secondByte {p : Picture} {board : Board} (port : DarkPort map stride (p, board))
    (second : p.secondWrite = true) (byte : UInt8) :
    DarkPort map stride (p.writeAddress board byte) ∧ dataPort (p.writeAddress board byte) =
      { dataPort (p, board) with
        high := none
        address := (word (highByte p.origin.toWord) byte).toNat % 0x4000 } := by
  unfold writeAddress
  rw [if_pos second]
  refine ⟨⟨port.dark, port.stride, fun address => ?_, port.ram.observe _⟩, ?_⟩
  · exact (Board.observe_videoCell board _ address).trans (port.map address)
  · have place : (Scroll.ofWord (word (highByte p.origin.toWord) byte)).toNat % 0x4000 =
        (word (highByte p.origin.toWord) byte).toNat % 0x4000 := by
      rw [Scroll.ofWord, Scroll.toNat_ofNat]
      omega
    have cells := p.memory.contents_observe board
      (Scroll.ofWord (word (highByte p.origin.toWord) byte)).address
    exact congrArg₂ (fun address cells => DataPort.mk address none p.readBuffer cells) place cells

/-- The first byte of an address. -/
theorem DarkPort.firstByte {p : Picture} {board : Board} (port : DarkPort map stride (p, board))
    (first : p.secondWrite = false) (byte : UInt8) :
    DarkPort map stride (p.writeAddress board byte) ∧ dataPort (p.writeAddress board byte) =
      { dataPort (p, board) with high := some (byte &&& 0x3F) } := by
  unfold writeAddress
  rw [if_neg (by simp [first])]
  refine ⟨⟨port.dark, port.stride, port.map, port.ram⟩, ?_⟩
  have masked := masked_toNat byte
  have kept : highByte (Scroll.ofWord (word (byte &&& 0x3F) (lowByte p.origin.toWord))).toWord =
      byte &&& 0x3F := by
    rw [← UInt8.toNat_inj]
    simp only [Scroll.ofWord, Scroll.toWord, Scroll.toNat_ofNat, word, highByte, lowByte,
      UInt16.toNat_ofNat', UInt8.toNat_ofNat', masked]
    omega
  exact congrArg (fun high => DataPort.mk (p.cursor.toNat % 0x4000) (some high) p.readBuffer
    (p.memory.contents board)) kept

/-- A write below the palette. -/
theorem DarkPort.write {p : Picture} {board : Board} (port : DarkPort map stride (p, board))
    (below : (dataPort (p, board)).address < 0x3F00) (byte : UInt8) :
    DarkPort map stride (p.writeData board byte) ∧
      dataPort (p.writeData board byte) = (dataPort (p, board)).act map stride (.write byte) := by
  have place : p.cursor.address.toNat = (dataPort (p, board)).address := p.cursor.address_toNat
  -- The board sees the address of a write to its own memory.
  let seen := if p.cursor.address < 0x2000 then board.observe p.cursor.address else board
  have same : (∀ address, seen.videoCell address = map address) ∧ seen.ShowsRam ∧
      p.memory.contents seen = p.memory.contents board := by
    dsimp only [seen]
    split
    · refine ⟨fun address => ?_, port.ram.observe _, p.memory.contents_observe board _⟩
      rw [Board.observe_videoCell]
      exact port.map address
    · exact ⟨port.map, port.ram, rfl⟩
  obtain ⟨cells, ram, contents⟩ := same
  let stored := p.memory.store seen p.cursor.address byte
  have whole : p.writeData board byte = { p with memory := stored.1 }.moveOn stored.2 := rfl
  have written : stored.1.contents stored.2 = Function.update (dataPort (p, board)).cells
      (map (dataPort (p, board)).address) byte := by
    funext cell
    have stores := VideoMemory.contents_store (m := p.memory) ram (place ▸ below) byte cell
    rw [cells, place, contents] at stores
    rw [Function.update_apply]
    exact stores.trans (if_congr eq_comm rfl rfl)
  have next : DarkPort map stride ({ p with memory := stored.1 }, stored.2) :=
    ⟨port.dark, port.stride,
      fun address => (p.memory.store_videoCell seen _ byte address).trans (cells address),
      p.memory.store_showsRam ram _ byte⟩
  obtain ⟨kept, moved⟩ := next.moveOn
  rw [whole]
  refine ⟨kept, moved.trans ?_⟩
  exact congrArg (fun cells => DataPort.mk ((p.cursor.toNat % 0x4000 + stride) % 0x4000)
    (dataPort (p, board)).high p.readBuffer cells) written

/-- A read below the palette. -/
theorem DarkPort.read {p : Picture} {board : Board} (port : DarkPort map stride (p, board))
    (below : (dataPort (p, board)).address < 0x3F00) :
    DarkPort map stride (p.readData board).2 ∧
      dataPort (p.readData board).2 = (dataPort (p, board)).act map stride .read ∧
      (p.readData board).1 = (dataPort (p, board)).buffer := by
  have place : p.cursor.address.toNat = (dataPort (p, board)).address := p.cursor.address_toNat
  have under : ¬ 0x3F00 ≤ p.cursor.address := by
    rw [UInt16.le_iff_toNat_le, place]
    exact Nat.not_le.mpr below
  let seen := board.observe p.cursor.address
  let byte := p.memory.peek seen p.cursor.address
  have whole : p.readData board = (p.readBuffer, { p with readBuffer := byte }.moveOn seen) := by
    unfold readData
    rw [if_neg under]
    rfl
  have found : byte = (dataPort (p, board)).cells (map (dataPort (p, board)).address) := by
    have bus : p.cursor.address.toNat < 0x3F00 := place ▸ below
    have read : byte = p.memory.contents seen (seen.videoCell p.cursor.address.toNat) :=
      VideoMemory.peek_eq_contents bus
    rw [Board.observe_videoCell, port.map, place, VideoMemory.contents_observe] at read
    exact read
  have next : DarkPort map stride ({ p with readBuffer := byte }, seen) :=
    ⟨port.dark, port.stride,
      fun address => (board.observe_videoCell _ address).trans (port.map address),
      port.ram.observe _⟩
  obtain ⟨kept, moved⟩ := next.moveOn
  rw [whole]
  refine ⟨kept, moved.trans ?_, rfl⟩
  have cells := p.memory.contents_observe board p.cursor.address
  exact congrArg₂ (fun byte cells => DataPort.mk ((p.cursor.toNat % 0x4000 + stride) % 0x4000)
    (dataPort (p, board)).high byte cells) found cells

/-! ## Rows of accesses to the unit -/

/-- An access does at the unit what it does at the port. -/
theorem DarkPort.act (port : DarkPort map stride s) {action : Action}
    (below : action.isData = true → (dataPort s).address < 0x3F00) :
    DarkPort map stride (happen s action.event) ∧
      dataPort (happen s action.event) = (dataPort s).act map stride action ∧
      action.event.dataAnswer s = (dataPort s).answer action := by
  obtain ⟨p, board⟩ := s
  cases action with
  | release => exact ⟨⟨port.dark, port.stride, port.map, port.ram⟩, rfl, rfl⟩
  | address byte =>
    have latched : DarkPort map stride ({ p with latch := byte }, board) :=
      ⟨port.dark, port.stride, port.map, port.ram⟩
    cases half : p.secondWrite with
    | true =>
      obtain ⟨kept, moved⟩ := latched.secondByte half byte
      refine ⟨kept, moved.trans ?_, rfl⟩
      simp only [DataPort.act, dataPort, half, if_true]
    | false =>
      obtain ⟨kept, moved⟩ := latched.firstByte half byte
      refine ⟨kept, moved.trans ?_, rfl⟩
      simp [DataPort.act, dataPort, half]
  | write byte =>
    have latched : DarkPort map stride ({ p with latch := byte }, board) :=
      ⟨port.dark, port.stride, port.map, port.ram⟩
    obtain ⟨kept, moved⟩ := latched.write (below rfl) byte
    exact ⟨kept, moved, rfl⟩
  | read =>
    obtain ⟨kept, moved, value⟩ := port.read (below rfl)
    have latched : happen (p, board) (.read 7) =
      ({ (p.readData board).2.1 with latch := (p.readData board).1 }, (p.readData board).2.2) := rfl
    refine ⟨⟨kept.dark, kept.stride, kept.map, kept.ram⟩, moved, ?_⟩
    exact congrArg (fun byte => [byte]) value

/-- A row of accesses, whatever dots pass in between, follows the port. -/
theorem DarkPort.row {row : List (Event Board)} {script : List Action}
    (silent : row.filter (fun event => !event.isTick) = script.map Action.event)
    (port : DarkPort map stride s) (below : (dataPort s).Below map stride script) :
    dataAnswers s row = (dataPort s).answers map stride script ∧
      dataPort (behind s row) = (dataPort s).run map stride script := by
  induction row generalizing s script with
  | nil =>
    have none : script = [] := by simpa using silent.symm
    subst none
    exact ⟨rfl, rfl⟩
  | cons event rest ih =>
    cases ticks : event.isTick with
    | true =>
      have tick : event = .tick := by
        cases event <;> simp_all [Event.isTick]
      subst tick
      obtain ⟨kept, same⟩ := port.tick
      rw [← same] at below ⊢
      exact ih (by simpa [ticks] using silent) kept below
    | false =>
      rw [List.filter_cons_of_pos (by simp [ticks])] at silent
      cases script with
      | nil => exact absurd silent (List.cons_ne_nil _ _)
      | cons action script =>
        obtain ⟨first, later⟩ := List.cons.inj silent
        subst first
        obtain ⟨kept, moved, answered⟩ := port.act below.1
        obtain ⟨answers, ends⟩ := ih later kept (moved ▸ below.2)
        rw [moved] at answers ends
        refine ⟨?_, ends⟩
        rw [dataAnswers, answered, answers]
        rfl

/-- On every board with eight kilobytes of pattern RAM, a unit that does not render gives back through its
data port the block that has been written through it, behind one byte that has waited. The addresses may
run over the end of the bus, as long as none meets the palette and no two bytes share a cell. All other
cells keep what they hold. -/
theorem block_reads_back {image : Array UInt8} {cartridge : Cartridge} {board : Board}
    (accepted : Cartridge.ofImage image = .ok cartridge) (course : cartridge.board.Course board)
    (ram : cartridge.header.chrUnits = 0) (size : 0x2000 ≤ cartridge.header.chrRamSize)
    {p : Picture} (dark : p.mask.renders = false) (start : UInt16) (block : List UInt8)
    (below : ∀ k ≤ block.length, reach p.control.stride start.toNat k < 0x3F00)
    (apart : ((List.range block.length).map fun k =>
      board.videoCell (reach p.control.stride start.toNat k)).Nodup)
    {row : List (Event Board)}
    (between : row.filter (fun event => !event.isTick) = (transfer start block).map Action.event) :
    (∃ first, dataAnswers (p, board) row = first :: block) ∧
      ∀ cell, (∀ k < block.length, board.videoCell (reach p.control.stride start.toNat k) ≠ cell) →
        (behind (p, board) row).1.memory.contents (behind (p, board) row).2 cell =
          p.memory.contents board cell := by
  have port : DarkPort board.videoCell p.control.stride (p, board) :=
    ⟨dark, rfl, fun _ => rfl, Board.showsRam_of_course accepted course ram size⟩
  simp only [← reach_mod p.control.stride start.toNat] at below apart ⊢
  obtain ⟨answers, ends⟩ := port.row between (below_transfer _ below)
  refine ⟨⟨_, answers.trans (answers_transfer _ apart)⟩, fun cell other => ?_⟩
  have kept := run_transfer_of_apart (dataPort (p, board)) other
  rw [← ends] at kept
  exact kept

def patternRamImage : Array UInt8 :=
  #[0x4E, 0x45, 0x53, 0x1A, 1, 0, 0, 0, 0, 0, 0, 0, 0, 0, 0, 0] ++ Array.replicate 0x4000 0

/-- Three bytes that run from the pattern memory into the nametables; a dot passes before each access. -/
theorem block_over_the_tables_reads_back :
    ∃ cartridge first, Cartridge.ofImage patternRamImage = .ok cartridge ∧
      dataAnswers (.initial .ntsc, cartridge.board)
        (((transfer 0x1FFF [1, 2, 3]).map Action.event).flatMap fun event => [.tick, event]) =
        [first, 1, 2, 3] := by
  have parsed : Header.parse patternRamImage = .ok ⟨1, 0, 0, 0, 0, 0, 0, 0, 0⟩ :=
    Cartridge.parse_append rfl _
  obtain ⟨cartridge, accepted⟩ := Cartridge.ofImage_accepts parsed (by decide)
    (by rw [patternRamImage, Array.size_append, Array.size_replicate]; decide) fun _ => rfl
  have header : cartridge.header = ⟨1, 0, 0, 0, 0, 0, 0, 0, 0⟩ :=
    Except.ok.inj ((Cartridge.ofImage_accepted accepted).header.symm.trans parsed)
  have apart : ((List.range 3).map fun k =>
      cartridge.board.videoCell (reach 1 (0x1FFF : UInt16).toNat k)).Nodup := by
    have addresses : ((List.range 3).map fun k => reach 1 (0x1FFF : UInt16).toNat k) =
      [0x1FFF, 0x2000, 0x2001] := by decide
    have cells := congrArg (List.map cartridge.board.videoCell) addresses
    rw [List.map_map, Function.comp_def] at cells
    have columns : cartridge.board.mirroring.cell 0x2000 ≠ cartridge.board.mirroring.cell 0x2001 := by
      intro same
      have column := cartridge.board.mirroring.cell_mod 0x2001
      rw [← same, cartridge.board.mirroring.cell_mod] at column
      exact absurd column (by decide)
    rw [cells]
    simp [Board.videoCell, columns]
  have between : (((transfer 0x1FFF [1, 2, 3]).map Action.event).flatMap fun event =>
      [Event.tick, event]).filter (fun event => !event.isTick) =
      (transfer 0x1FFF [1, 2, 3]).map Action.event := rfl
  obtain ⟨⟨first, answers⟩, -⟩ := block_reads_back accepted .refl (by rw [header])
    (by rw [header]; decide) (p := .initial .ntsc) rfl 0x1FFF [1, 2, 3] (by decide) apart between
  exact ⟨cartridge, first, accepted, answers⟩

end Picture

end Famiclone
