import Famiclone.Proofs.Console.StartUp
import Famiclone.Proofs.Console.Transfers
import Famiclone.Proofs.Processor.Record

/-!
# The transfer of sprites

A transfer of sprites reads a page byte by byte and writes each byte where the picture unit takes sprites.
All parts go on meanwhile: the page may lie in registers whose reads have effects, the halted processor
reads the same address again, and a byte of a sample may become wanted. A record of the accesses tells what
was read. As long as nothing is rendered, none of this moves the place of the next sprite byte but the
writes, which fill the sprites from their place on, all around.
-/
namespace Famiclone

variable {β : Type} [ProcessorBus β]

/-! ## The sprites of a unit that does not render -/

/-- A full unit that does not render, with the sprites that it holds and the place of the next byte. -/
structure Picture.Holds (p : Picture) (sprites : SpriteMemory) (place : UInt8) : Prop where
  dark : p.mask.renders = false
  sprites : p.sprites = sprites
  place : p.spriteAddress = place

namespace Picture.Holds

variable {γ : Type} [PictureBus γ] {p : Picture} {sprites : SpriteMemory} {place : UInt8}

theorem tick (h : p.Holds sprites place) (board : γ) : (p.tick board).1.Holds sprites place := by
  have kept : p.updateStatus.Holds sprites place := by
    unfold updateStatus
    split_ifs <;> exact ⟨h.dark, h.sprites, h.place⟩
  rw [tick_of_dark h.dark]
  exact ⟨kept.dark, kept.sprites, kept.place⟩

theorem moveOn (h : p.Holds sprites place) (board : γ) : (p.moveOn board).1.Holds sprites place := by
  unfold Picture.moveOn
  split <;> exact ⟨h.dark, h.sprites, h.place⟩

theorem read (h : p.Holds sprites place) (board : γ) (register : Fin 8) :
    (p.read board register).2.1.Holds sprites place := by
  have latched (r : UInt8 × Picture × γ) (h : r.2.1.Holds sprites place) :
      { r.2.1 with latch := r.1 }.Holds sprites place := ⟨h.dark, h.sprites, h.place⟩
  unfold Picture.read
  refine latched _ ?_
  split
  · exact ⟨h.dark, h.sprites, h.place⟩
  · exact h
  · have moved (next : UInt8) (board : γ) :
        ({ p with readBuffer := next }.moveOn board).1.Holds sprites place := by
      have kept : Holds { p with readBuffer := next } sprites place := ⟨h.dark, h.sprites, h.place⟩
      exact kept.moveOn board
    unfold readData
    dsimp only
    split <;> exact moved _ _
  · exact h

/-- A byte goes to its place, and the next one to the next place. -/
theorem write (h : p.Holds sprites place) (board : γ) (value : UInt8) :
    (p.write board 4 value).1.Holds (put sprites ⟨place.toNat, place.toNat_lt⟩ value) (place + 1) := by
  have rendering : { p with latch := value }.rendering = false := by
    show (p.mask.renders && _) = false
    rw [h.dark, Bool.false_and]
  obtain ⟨dark, rfl, rfl⟩ := h
  show ({ p with latch := value }.writeSprites value).Holds _ _
  unfold writeSprites
  rw [rendering]
  exact ⟨dark, rfl, rfl⟩

end Picture.Holds

/-- The same of the picture unit of a mainboard, on which no transfer of sprites waits. -/
structure Mainboard.Holds (m : Mainboard) (sprites : SpriteMemory) (place : UInt8) : Prop where
  picture : ∃ p, m.picture = .full p ∧ p.Holds sprites place
  page : m.spritePage = none

namespace Mainboard

variable {m : Mainboard} {sprites : SpriteMemory} {place : UInt8}

theorem Holds.clock (h : m.Holds sprites place) : m.clock.Holds sprites place := by
  have ticks (n : Nat) (p : Picture) (held : p.Holds sprites place) (board : Board) :
      ∃ q, (PictureUnit.ticks n (.full p) board).1 = .full q ∧ q.Holds sprites place := by
    induction n generalizing p board with
    | zero => exact ⟨p, rfl, held⟩
    | succ n ih => exact ih (p.tick board).1 (held.tick board) (p.tick board).2
  obtain ⟨p, full, held⟩ := h.picture
  refine ⟨?_, h.page⟩
  obtain ⟨q, behind, held⟩ :=
    ticks ((m.remainder + m.ratio.dots) / m.ratio.cycles) p held m.board
  exact ⟨q, by rw [← behind, ← full]; rfl, held⟩

theorem Holds.access (h : m.Holds sprites place) (address : UInt16) :
    (m.access address).2.Holds sprites place := by
  refine ⟨?_, (m.access_spritePage address).trans h.page⟩
  obtain ⟨p, full, held⟩ := h.picture
  unfold Mainboard.access
  cases Place.of m.profile address with
  | picture register =>
    refine ⟨(p.read m.board register).2.1, ?_, held.read m.board register⟩
    show (m.picture.read m.board register).2.1 = _
    rw [full]
    rfl
  | _ => exact ⟨p, full, held⟩

/-- No read moves the sprites. -/
theorem Holds.read (h : m.Holds sprites place) (address : UInt16) :
    (m.read address).2.Holds sprites place := by
  have found := h.access address
  unfold Mainboard.read
  dsimp only
  split
  · exact found.clock
  · exact Holds.clock ⟨found.picture, found.page⟩

/-- A byte of a transfer fills one place. -/
theorem Holds.write (h : m.Holds sprites place) (value : UInt8) :
    (m.write Exec.spriteData value).Holds (put sprites ⟨place.toNat, place.toNat_lt⟩ value)
      (place + 1) := by
  obtain ⟨p, full, held⟩ := h.picture
  have reaches : Place.of m.profile Exec.spriteData = .picture 4 := rfl
  have stored : m.store Exec.spriteData value = m.writePicture 4 value := by
    unfold store
    rw [reaches]
  unfold Mainboard.write
  rw [stored]
  refine Holds.clock ⟨⟨(p.write m.board 4 value).1, ?_, held.write m.board value⟩, h.page⟩
  show (m.picture.write m.board 4 value).1 = _
  rw [full]
  rfl

/-! ## Bytes of a sample -/

/-- The byte that the sample channel wants. -/
def wanted (m : Mainboard) : Option UInt16 := m.sound.chip.delta.request

/-- What is wanted stays so, whatever the channel plays meanwhile. -/
theorem wanted_clock {address : UInt16} (wants : m.wanted = some address) :
    m.clock.wanted = some address := by
  have kept {c : Delta} (wants : c.request = some address) : c.clockTimer.request = some address := by
    have empty : c.buffer = none := Delta.buffer_of_request (by rw [wants]; rfl)
    by_cases due : c.timer = 0
    · by_cases last : c.bits ≤ 1
      · obtain ⟨_, _, _, looks⟩ := Delta.clockTimer_looks due last
        rw [looks, ← empty]
        exact wants
      · obtain ⟨_, _, shifts⟩ := Delta.clockTimer_shifts due (Nat.lt_of_not_le last)
        rw [shifts]
        exact wants
    · rw [Delta.clockTimer_waits due]
      exact wants
  show m.sound.tick.chip.delta.request = some address
  rw [m.sound.tick_delta]
  exact kept wants

theorem access_delta (m : Mainboard) (address : UInt16) :
    (m.access address).2.sound.chip.delta = m.sound.chip.delta := by
  unfold access
  split <;> rfl

theorem wanted_read {wants : UInt16} (h : m.wanted = some wants) (address : UInt16) :
    (m.read address).2.wanted = some wants := by
  have found : (m.access address).2.wanted = some wants :=
    (congrArg Delta.request (m.access_delta address)).trans h
  unfold read
  dsimp only
  split <;> exact wanted_clock found

theorem wanted_write {wants : UInt16} (h : m.wanted = some wants) (value : UInt8) :
    (m.write Exec.spriteData value).wanted = some wants := by
  refine wanted_clock ?_
  exact h

end Mainboard

namespace Exec

/-! ## The halted processor -/

/-- A number of reads at the address where the processor is halted. -/
structure HaltedReads (halted : UInt16) (k : Nat) (m n : Machine (Recorded Mainboard)) : Prop where
  cycles : n.cpu.cycles = m.cpu.cycles + k
  record : ∃ values : List UInt8, values.length = k ∧
    n.bus.record = m.bus.record ++ values.map fun value => ⟨false, halted, value⟩
  holds : ∀ {sprites place}, m.bus.bus.Holds sprites place → n.bus.bus.Holds sprites place
  wanted : ∀ {address}, m.bus.bus.wanted = some address → n.bus.bus.wanted = some address

theorem cycleRead_halted (halted : UInt16) (m : Machine (Recorded Mainboard)) :
    HaltedReads halted 1 m (cycleRead halted m).2 where
  cycles := rfl
  record := ⟨[(cycleRead halted m).1], rfl, rfl⟩
  holds h := h.read halted
  wanted h := Mainboard.wanted_read h halted

theorem HaltedReads.trans {halted : UInt16} {j k : Nat} {l m n : Machine (Recorded Mainboard)}
    (first : HaltedReads halted j l m) (second : HaltedReads halted k m n) :
    HaltedReads halted (j + k) l n := by
  obtain ⟨before, count, noted⟩ := first.record
  obtain ⟨behind, count', noted'⟩ := second.record
  refine ⟨?_, ⟨before ++ behind, ?_, ?_⟩, fun h => second.holds (first.holds h),
    fun h => second.wanted (first.wanted h)⟩
  · rw [second.cycles, first.cycles, Nat.add_assoc]
  · rw [List.length_append, count, count']
  · rw [noted', noted, List.map_append, List.append_assoc]

/-! ## The bytes of a page -/

/-- The accesses of one byte of a transfer. -/
def copyAccesses (page : UInt8) (index : Nat) (value : UInt8) : List Access :=
  [⟨false, word page (UInt8.ofNat index), value⟩, ⟨true, spriteData, value⟩]

/-- The machine behind some bytes of a page. -/
def copied (page : UInt8) (m : Machine (Recorded Mainboard)) (k : Nat) :
    Machine (Recorded Mainboard) := ((List.range k).forM (copySprite page) m).2

/-- The byte that the machine reads from the page behind some other ones. -/
def pageByte (page : UInt8) (m : Machine (Recorded Mainboard)) (k : Nat) : UInt8 :=
  (cycleRead (word page (UInt8.ofNat k)) (copied page m k)).1

theorem copied_succ (page : UInt8) (m : Machine (Recorded Mainboard)) (k : Nat) :
    copied page m (k + 1) =
      (write spriteData (pageByte page m k)
        (cycleRead (word page (UInt8.ofNat k)) (copied page m k)).2).2 := by
  unfold copied
  rw [List.range_succ, List.forM_eq_forM, List.forM_append]
  rfl

/-- Some bytes of a page have gone to the sprites. -/
structure Copies (page place : UInt8) (k : Nat) (m : Machine (Recorded Mainboard)) : Prop where
  cycles : (copied page m k).cpu.cycles = m.cpu.cycles + 2 * k
  record : (copied page m k).bus.record = m.bus.record ++
    (List.range k).flatMap fun i => copyAccesses page i (pageByte page m i)
  sprites : ∃ sprites, (copied page m k).bus.bus.Holds sprites (place + UInt8.ofNat k) ∧
    ∀ i < k, sprites.get (.ofNat 256 (place.toNat + i)) = pageByte page m i
  wanted : ∀ {address}, m.bus.bus.wanted = some address →
    (copied page m k).bus.bus.wanted = some address

/-- What one byte preserves. The places of different bytes differ, since there are as many as bytes in a
page. -/
theorem Copies.next {page place : UInt8} {k : Nat} {m : Machine (Recorded Mainboard)}
    (h : Copies page place k m) (inside : k < 256) : Copies page place (k + 1) m := by
  obtain ⟨sprites, held, filled⟩ := h.sprites
  have index : (place + UInt8.ofNat k).toNat = (place.toNat + k) % 256 := by
    rw [UInt8.toNat_add, UInt8.toNat_ofNat', Nat.add_mod_mod]
  have behind : place + UInt8.ofNat (k + 1) = place + UInt8.ofNat k + 1 := by
    rw [UInt8.ofNat_add, ← UInt8.add_assoc]
    rfl
  have read := cycleRead_halted (word page (UInt8.ofNat k)) (copied page m k)
  refine ⟨?_, ?_, ⟨put sprites ⟨_, (place + UInt8.ofNat k).toNat_lt⟩ (pageByte page m k), ?_, ?_⟩,
    fun wants => ?_⟩
  · rw [copied_succ]
    show (cycleRead _ (copied page m k)).2.cpu.cycles + 1 = _
    rw [read.cycles, h.cycles]
    omega
  · rw [copied_succ, List.range_succ, List.flatMap_append, ← List.append_assoc, ← h.record]
    show ((copied page m k).bus.record ++ [_]) ++ [_] = _
    rw [List.append_assoc]
    rfl
  · rw [copied_succ, behind]
    exact (read.holds held).write (pageByte page m k)
  · intro i before
    rw [get_put]
    have places : (⟨_, (place + UInt8.ofNat k).toNat_lt⟩ : Fin 256) = .ofNat 256 (place.toNat + i) ↔
        (place.toNat + k) % 256 = (place.toNat + i) % 256 := by
      rw [Fin.ext_iff, ← index]
      rfl
    split_ifs with same <;> rw [places] at same
    · have last : i = k := by omega
      rw [last]
    · have inside : i ≠ k := by
        rintro rfl
        exact same rfl
      exact filled i (by omega)
  · rw [copied_succ]
    exact Mainboard.wanted_write (read.wanted (h.wanted wants)) _

/-- What the bytes of a page preserve. -/
theorem copies_of_holds (page : UInt8) {place : UInt8} {m : Machine (Recorded Mainboard)}
    {sprites : SpriteMemory} (held : m.bus.bus.Holds sprites place) {k : Nat} (inside : k ≤ 256) :
    Copies page place k m := by
  induction k with
  | zero =>
    refine ⟨rfl, (List.append_nil _).symm, ⟨sprites, ?_, nofun⟩, id⟩
    have start : place + UInt8.ofNat 0 = place := UInt8.add_zero place
    rw [start]
    exact held
  | succ k ih => exact (ih (Nat.le_of_succ_le inside)).next inside

/-! ## The whole transfer -/

/-- A transfer of a page to the sprites from a machine on, of which the next sprite byte has a place. -/
structure TransfersPage (page : UInt8) (halted : UInt16) (place : UInt8)
    (m n : Machine (Recorded Mainboard)) : Prop where
  /-- It begins on an even cycle, behind a cycle in which the processor is halted. -/
  cycles : n.cpu.cycles = m.cpu.cycles + if m.cpu.cycles % 2 = 1 then 513 else 514
  /-- Beside the reads of the halted processor each byte of the page is read and written to the sprites,
  the first one first. Behind the last one all have their places and the next place is the first again. -/
  copies : ∃ (halts : List UInt8) (bytes : Nat → UInt8) (sprites : SpriteMemory),
    halts.length = (if m.cpu.cycles % 2 = 1 then 1 else 2) ∧
    n.bus.record = m.bus.record ++ halts.map (⟨false, halted, ·⟩) ++
      (List.range 256).flatMap (fun i => copyAccesses page i (bytes i)) ∧
    n.bus.bus.Holds sprites place ∧
    ∀ i < 256, sprites.get (.ofNat 256 (place.toNat + i)) = bytes i
  /-- A byte of a sample that is wanted is still wanted. -/
  wanted : ∀ {address}, m.bus.bus.wanted = some address → n.bus.bus.wanted = some address

/-- A transfer of a number of bytes. Where the number is open, nothing steps through all of them. -/
def serveBytes (page : UInt8) (halted : UInt16) (count : Nat) : Exec (Recorded Mainboard) Unit := do
  let _ ← cycleRead halted
  if (← get).cpu.cycles % 2 = 1 then
    let _ ← cycleRead halted
  (List.range count).forM (copySprite page)

theorem serve_sprites_eq (page : UInt8) (halted : UInt16) :
    serve (β := Recorded Mainboard) halted (.sprites page) = serveBytes page halted 256 := rfl

/-- The bytes are copied behind one read of the halted processor, or behind two. -/
theorem serveBytes_eq (page : UInt8) (halted : UInt16) (count : Nat)
    (m : Machine (Recorded Mainboard)) :
    (serveBytes page halted count m).2 =
      if m.cpu.cycles % 2 = 1 then copied page (cycleRead halted m).2 count
      else copied page (cycleRead halted (cycleRead halted m).2).2 count := by
  have cycles : (cycleRead halted m).2.cpu.cycles = m.cpu.cycles + 1 := rfl
  show ((if (cycleRead halted m).2.cpu.cycles % 2 = 1 then (do
      let _ ← cycleRead halted
      (List.range count).forM (copySprite page))
    else (List.range count).forM (copySprite page)) (cycleRead halted m).2).2 = _
  rw [cycles]
  by_cases odd : m.cpu.cycles % 2 = 1
  · rw [if_neg (by omega), if_pos odd]
    rfl
  · rw [if_pos (by omega), if_neg odd]
    rfl

theorem serve_sprites (page : UInt8) (halted : UInt16) {place : UInt8}
    {m : Machine (Recorded Mainboard)} {sprites : SpriteMemory}
    (held : m.bus.bus.Holds sprites place) :
    TransfersPage page halted place m (serve halted (.sprites page) m).2 := by
  have copy {l : Machine (Recorded Mainboard)} {k : Nat} (halts : HaltedReads halted k m l)
      (enough : k = if m.cpu.cycles % 2 = 1 then 1 else 2) :
      TransfersPage page halted place m (copied page l 256) := by
    have copies := copies_of_holds page (halts.holds held) (Nat.le_refl 256)
    obtain ⟨values, count, noted⟩ := halts.record
    obtain ⟨filled, behind, bytes⟩ := copies.sprites
    have around : place + UInt8.ofNat 256 = place := UInt8.add_zero place
    refine ⟨?_, ⟨values, pageByte page l, filled, count.trans enough, ?_, around ▸ behind, bytes⟩,
      fun wants => copies.wanted (halts.wanted wants)⟩
    · rw [copies.cycles, halts.cycles, enough]
      split_ifs <;> rfl
    · rw [copies.record, noted]
  have first := cycleRead_halted halted m
  rw [serve_sprites_eq, serveBytes_eq]
  by_cases odd : m.cpu.cycles % 2 = 1
  · rw [if_pos odd]
    exact copy first (if_pos odd).symm
  · rw [if_neg odd]
    exact copy (first.trans (cycleRead_halted halted _)) (if_neg odd).symm

/-- A byte of a sample that is fetched. -/
structure FetchesSample (address halted : UInt16) (m n : Machine (Recorded Mainboard)) : Prop where
  cycles : n.cpu.cycles = m.cpu.cycles + 4
  fetch : ∃ (halts : List UInt8) (value : UInt8), halts.length = 3 ∧
    n.bus.record = m.bus.record ++ halts.map (⟨false, halted, ·⟩) ++ [⟨false, address, value⟩] ∧
    n.bus.bus.sound.chip.delta.buffer = some value
  /-- The sprites stay as they are. -/
  holds : ∀ {sprites place}, m.bus.bus.Holds sprites place → n.bus.bus.Holds sprites place
  content : n.bus.bus.wanted = none

theorem serve_sample (address halted : UInt16) (m : Machine (Recorded Mainboard)) :
    FetchesSample address halted m (serve halted (.sample address) m).2 := by
  have first := cycleRead_halted halted m
  have second := first.trans (cycleRead_halted halted _)
  have third := second.trans (cycleRead_halted halted _)
  obtain ⟨values, count, noted⟩ := third.record
  generalize behind : (cycleRead halted (cycleRead halted (cycleRead halted m).2).2).2 = l at *
  have fetch := cycleRead_halted address l
  have served : (serve halted (.sample address) m).2 =
      ⟨(cycleRead address l).2.cpu, { (cycleRead address l).2.bus with
        bus := (cycleRead address l).2.bus.bus.deliver (cycleRead address l).1 }⟩ := by
    rw [← behind]
    rfl
  rw [served]
  refine ⟨?_, ⟨values, (cycleRead address l).1, count, ?_, ?_⟩, fun h => ?_, ?_⟩
  · show (cycleRead address l).2.cpu.cycles = _
    rw [fetch.cycles, third.cycles]
  · show l.bus.record ++ [_] = _
    rw [noted]
    rfl
  · obtain ⟨_, _, _, filled⟩ := (cycleRead address l).2.bus.bus.sound.chip.delta.fill_eq
      (cycleRead address l).1
    show (Delta.fill _ _).buffer = _
    rw [filled]
  · have held := fetch.holds (third.holds h)
    exact ⟨held.picture, held.page⟩
  · exact Delta.fill_request _ _

/-! ## The read that finds a transfer -/

/-- A read that finds a transfer of a page waiting, of which the next sprite byte has a place. The processor
does the same without a record of its accesses. -/
structure ReadsBehindPage (page : UInt8) (halted : UInt16) (place : UInt8)
    (m : Machine Mainboard) (n : Machine (Recorded Mainboard)) : Prop where
  transfer : TransfersPage page halted place m.recorded n
  /-- The read takes place behind the transfer, if no byte of a sample is wanted then. -/
  directly : n.bus.bus.wanted = none → read halted m.recorded = cycleRead halted n
  /-- It takes place behind the byte that is wanted. -/
  afterSample : ∀ address, n.bus.bus.wanted = some address →
    ∃ l, FetchesSample address halted n l ∧ read halted m.recorded = cycleRead halted l
  unrecorded : read halted m =
    ((read halted m.recorded).1, (read halted m.recorded).2.onBus Recorded.bus)

/-- Where no transfer of sprites waits the bus stays as it is when a transfer is taken. -/
theorem takeTransfer_recorded {n : Machine (Recorded Mainboard)} (page : n.bus.bus.spritePage = none) :
    ProcessorBus.takeTransfer n.bus = (n.bus.bus.wanted.map Transfer.sample, n.bus) := by
  have taken : ProcessorBus.takeTransfer n.bus.bus =
      (n.bus.bus.wanted.map Transfer.sample, n.bus.bus) := Mainboard.takeTransfer_of_none page
  show ((ProcessorBus.takeTransfer n.bus.bus).1,
    (⟨(ProcessorBus.takeTransfer n.bus.bus).2, n.bus.record⟩ : Recorded Mainboard)) = _
  rw [taken]

/-- A transfer of sprites that waits is made before the next read, as long as nothing is rendered. -/
theorem read_transfers_page {m : Machine Mainboard} {p : Picture} {page : UInt8}
    (full : m.bus.picture = .full p) (dark : p.mask.renders = false)
    (waits : m.bus.spritePage = some page) (halted : UInt16) :
    ∃ n, ReadsBehindPage page halted p.spriteAddress m n := by
  obtain ⟨board, taking⟩ : ∃ board : Mainboard, board =
      { m.bus with spritePage := none, supply := m.bus.supply.transfer } := ⟨_, rfl⟩
  have held : board.Holds p.sprites p.spriteAddress := by
    rw [taking]
    exact ⟨⟨p, full, dark, rfl, rfl⟩, rfl⟩
  have same : board.wanted = m.bus.wanted := by
    rw [taking]
    rfl
  have taken : ProcessorBus.takeTransfer m.recorded.bus =
      (some (.sprites page), (⟨board, []⟩ : Recorded Mainboard)) := by
    have asked : ProcessorBus.takeTransfer m.bus = (some (.sprites page), board) := by
      rw [taking]
      exact Mainboard.takeTransfer_of_page waits
    show ((ProcessorBus.takeTransfer m.bus).1,
      (⟨(ProcessorBus.takeTransfer m.bus).2, []⟩ : Recorded Mainboard)) = _
    rw [asked]
  have served : (serveAll halted 2 m.recorded).2 = (serveAll halted 1
      (serve halted (.sprites page) ⟨m.cpu, ⟨board, []⟩⟩).2).2 := by
    rw [serveAll_next (congrArg Prod.fst taken), taken]
    rfl
  have transfer := serve_sprites page halted (m := ⟨m.cpu, ⟨board, []⟩⟩) held
  generalize (serve halted (.sprites page) (⟨m.cpu, ⟨board, []⟩⟩ : Machine (Recorded Mainboard))).2 = n
    at served transfer
  have whole : read halted m.recorded = cycleRead halted (serveAll halted 1 n).2 := by
    rw [← served]
    rfl
  obtain ⟨_, _, _, _, _, behind, _⟩ := transfer.copies
  have rest := takeTransfer_recorded behind.page
  refine ⟨n, ⟨transfer.cycles, transfer.copies, fun wants => transfer.wanted (same.trans wants)⟩,
    ?_, ?_, Recorded.unseen.read_blind halted m.recorded⟩
  · intro none
    rw [none] at rest
    rw [whole, serveAll_done (congrArg Prod.fst rest), rest]
  · intro address wants
    rw [wants] at rest
    refine ⟨_, serve_sample address halted n, ?_⟩
    rw [whole, serveAll_next (congrArg Prod.fst rest), rest]
    rfl

/-- A machine for which a page of the RAM waits to be transferred, and a byte of a sample as well. -/
def pageWaits : Machine Mainboard where
  cpu := .initial
  bus := { Mainboard.initial .ntsc .full {} .standard with
    sound := (Sound.initial .ntsc {}).write 0x4015 0x10
    spritePage := some 2 }

theorem read_transfers_page_of_ram :
    pageWaits.bus.wanted = some 0xC000 ∧ pageWaits.bus.picture = .full (.initial .ntsc) ∧
      (Picture.initial .ntsc).mask.renders = false ∧ pageWaits.bus.spritePage = some 2 ∧
      ∃ n, ReadsBehindPage 2 0xFFFC 0 pageWaits n :=
  ⟨rfl, rfl, rfl, rfl, read_transfers_page (p := .initial .ntsc) rfl rfl rfl 0xFFFC⟩

end Exec

end Famiclone
