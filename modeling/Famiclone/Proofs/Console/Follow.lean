import Famiclone.Proofs.Console.Feed
import Famiclone.Proofs.Console.StartUp

/-!
# Following a program

A console without a picture runs a program that nothing interrupts. What happens then depends on the
registers, on the transfers that wait, on the sample channel, and on whether the number of cycles is even.
These are followed by themselves, with a function for the bytes of the program in place of the memory. So
what a given program does can be computed, without the rest of the console.
-/
namespace Famiclone

/-- What is followed. -/
structure Tracked where
  registers : Registers
  cycles : Nat
  /-- The page of a sprite transfer that waits. -/
  page : Option UInt8
  feed : Feed

namespace Tracked

variable (p : UInt16 → UInt8)

def wait (n : Nat) (t : Tracked) : Tracked :=
  { t with cycles := t.cycles + n, feed := t.feed.elapse n n }

def write (address : UInt16) (value : UInt8) (t : Tracked) : Tracked :=
  { t with
    page := if address = Mainboard.spriteTransferAddress then some value else t.page
    feed := t.feed.write address value }.wait 1

/-- A transfer of sprites, which begins on an even cycle. -/
def copied (t : Tracked) : Tracked :=
  let t := t.wait 1
  (if t.cycles % 2 = 1 then t.wait 1 else t).wait 512

def filled (value : UInt8) (t : Tracked) : Tracked :=
  let t := t.wait 4
  { t with feed := t.feed.fill value }

def served (t : Tracked) : Tracked :=
  let t := if t.page.isSome then { t with page := none, feed := t.feed.transfer }.copied else t
  match t.feed.delta.request with
  | none => t
  | some address => t.filled (p address)

/-- A read with the transfers before it. -/
def read (t : Tracked) : Tracked := (t.served p).wait 1

def mapRegisters (f : Registers → Registers) (t : Tracked) : Tracked :=
  { t with registers := f t.registers }

/-- Read at the program counter and move it on. -/
def fetch (t : Tracked) : Tracked := (t.read p).mapRegisters fun r => { r with pc := r.pc + 1 }

/-- An instruction that reads its operand from the program. -/
def immediate (op : ReadOp) (t : Tracked) : Tracked :=
  let found := (t.fetch p).mapRegisters fun r => { r with pc := r.pc + 1 }
  (found.read p).mapRegisters fun r => op.apply (p (t.registers.pc + 1)) r

/-- The address behind an opcode. -/
def operand (t : Tracked) : UInt16 :=
  word (p (t.registers.pc + 1 + 1)) (p (t.registers.pc + 1))

/-- An instruction that stores a register at an address. -/
def store (op : StoreOp) (t : Tracked) : Tracked :=
  let found := ((t.fetch p).fetch p).fetch p
  found.write (t.operand p) (op.value found.registers)

def resetPush (t : Tracked) : Tracked :=
  (t.read p).mapRegisters fun r => { r with sp := r.sp - 1 }

def reset (t : Tracked) : Tracked :=
  let t := (((t.read p).read p).resetPush p).resetPush p
  let t := (t.resetPush p).mapRegisters Registers.disableInterrupts
  ((t.read p).read p).mapRegisters fun r =>
    { r with pc := word (p (resetVector + 1)) (p resetVector) }

/-- A console that has been powered on, before the reset sequence. -/
def start (region : Region) : Tracked where
  registers := { Registers.initial with sp := 0 }
  cycles := 0
  page := none
  feed := ⟨region, .initial region, .initial⟩

theorem wait_one (t : Tracked) :
    t.wait 1 = { t with cycles := t.cycles + 1, feed := t.feed.tick } := by
  unfold wait
  rw [Feed.elapse_eq]
  rfl

theorem wait_add (j k : Nat) (t : Tracked) : (t.wait j).wait k = t.wait (j + k) := by
  unfold wait
  simp only [Feed.elapse_eq]
  rw [← Function.iterate_add_apply, Nat.add_comm k j, Nat.add_assoc]

@[simp] theorem wait_registers (n : Nat) (t : Tracked) : (t.wait n).registers = t.registers := rfl

@[simp] theorem copied_registers (t : Tracked) : t.copied.registers = t.registers := by
  unfold copied
  dsimp only
  split <;> rfl

/-- Transfers leave the registers alone. -/
@[simp] theorem read_registers (t : Tracked) : (t.read p).registers = t.registers := by
  unfold read served filled
  dsimp only
  split <;> split <;> simp

@[simp] theorem fetch_registers (t : Tracked) :
    (t.fetch p).registers = { t.registers with pc := t.registers.pc + 1 } := by
  unfold fetch mapRegisters
  simp

@[simp] theorem copied_page (t : Tracked) : t.copied.page = t.page := by
  unfold copied
  dsimp only
  split <;> rfl

/-- Behind the transfer of sprites only that of a sample can wait. -/
theorem served_of_page {t : Tracked} {page : UInt8} (waits : t.page = some page) :
    t.served p = ({ t with page := none, feed := t.feed.transfer }.copied).served p := by
  simp [served, waits]

end Tracked

/-! ## The channel reads the program -/

/-- The channel takes its samples from the program. -/
structure Delta.InProgram (c : Delta) : Prop where
  address : 0x8000 ≤ c.address.toNat
  sampleAddress : 0x8000 ≤ c.sampleAddress.toNat

namespace Delta

variable {c : Delta}

theorem InProgram.clockTimer (h : c.InProgram) : c.clockTimer.InProgram := by
  obtain ⟨_, _, _, _, _, _, clocked⟩ := c.clockTimer_eq
  rw [clocked]
  exact ⟨h.address, h.sampleAddress⟩

theorem InProgram.write (h : c.InProgram) (register : Fin 4) (value : UInt8) :
    (c.write register value).InProgram := by
  have small := value.toNat_lt
  match register with
  | 0 => exact ⟨h.address, h.sampleAddress⟩
  | 1 => exact ⟨h.address, h.sampleAddress⟩
  | 2 =>
    refine ⟨h.address, ?_⟩
    simp only [Delta.write, UInt16.toNat_ofNat']
    omega
  | 3 => exact ⟨h.address, h.sampleAddress⟩

theorem InProgram.writeAt (h : c.InProgram) (address : UInt16) (value : UInt8) :
    (c.writeAt address value).InProgram := by
  unfold Delta.writeAt setEnabled
  split
  · exact h.write _ value
  · split_ifs
    · exact ⟨h.sampleAddress, h.sampleAddress⟩
    · exact ⟨h.address, h.sampleAddress⟩
    · exact ⟨h.address, h.sampleAddress⟩
    · exact h

theorem next_inProgram {address : UInt16} (high : 0x8000 ≤ address.toNat) :
    0x8000 ≤ (next address).toNat := by
  unfold next
  split
  next => decide
  next inside =>
    have below := address.toNat_lt
    have other : address.toNat ≠ 0xFFFF := fun same => inside (UInt16.toNat_inj.mp same)
    rw [UInt16.toNat_add]
    have one : (1 : UInt16).toNat = 1 := rfl
    omega

theorem InProgram.fill (h : c.InProgram) (value : UInt8) : (c.fill value).InProgram := by
  unfold Delta.fill
  dsimp only
  split_ifs
  · exact ⟨h.sampleAddress, h.sampleAddress⟩
  · exact ⟨next_inProgram h.address, h.sampleAddress⟩
  · exact ⟨next_inProgram h.address, h.sampleAddress⟩

theorem InProgram.request (h : c.InProgram) {address : UInt16} (asked : c.request = some address) :
    0x8000 ≤ address.toNat := by
  unfold Delta.request at asked
  split at asked
  · cases asked
    exact h.address
  · contradiction

end Delta

/-! ## The machine that is followed -/

/-- No instruction that reads an operand enables interrupts. -/
theorem ReadOp.apply_disabled (op : ReadOp) (value : UInt8) (r : Registers) :
    (op.apply value r).p.interruptDisable = r.p.interruptDisable := by
  cases op <;> rfl

/-- Nothing is about to interrupt the processor, and it accepts every opcode. -/
structure Processor.Calm (c : Processor) : Prop where
  running : c.jammed = false
  lenient : c.strict = false
  requested : c.requested = .none
  nmiLatched : c.nmiLatched = false
  nmiPolled : c.nmiPolled = false
  irqSampled : c.irqSampled = false
  irqPolled : c.irqPolled = false
  disabled : c.registers.p.interruptDisable = true

theorem Processor.Calm.endCycle {c : Processor} (h : c.Calm) {lines : Lines}
    (quiet : lines.nmi = false) : (c.endCycle lines).Calm := by
  have nmi : (lines.union c.requested).nmi = false := by
    rw [h.requested]
    simp [Lines.union, Lines.none, quiet]
  exact {
    running := h.running
    lenient := h.lenient
    requested := h.requested
    nmiLatched := by simp [Processor.endCycle, nmi, h.nmiLatched]
    nmiPolled := h.nmiLatched
    irqSampled := by simp [Processor.endCycle, h.disabled]
    irqPolled := h.irqSampled
    disabled := h.disabled }

/-- A mainboard without a picture, whose cartridge shows the bytes of a program. -/
structure Mainboard.Plain (p : UInt16 → UInt8) (m : Mainboard) : Prop where
  picture : m.picture.kind = .blank
  program : ∀ address : UInt16, 0x8000 ≤ address.toNat → m.board.readPrg address = some (p address)

namespace PictureUnit

variable {β : Type} [PictureBus β]

theorem eq_blank {u : PictureUnit} (h : u.kind = .blank) : ∃ p, u = blank p := by
  cases u with
  | full picture => contradiction
  | blank p => exact ⟨p, rfl⟩

/-- The dots of a unit without a picture do not reach the board. -/
theorem ticks_blank (n : Nat) (p : BlankPicture) (board : β) :
    ∃ later, ticks n (blank p) board = (blank later, board) := by
  induction n generalizing p with
  | zero => exact ⟨p, rfl⟩
  | succ n ih => exact ih p.tick

end PictureUnit

/-- Below the cartridge there is neither work RAM nor a cartridge. -/
theorem Place.of_low (profile : MemoryProfile) {address : UInt16} (low : address.toNat < 0x4020) :
    (∀ {cell}, Place.of profile address ≠ .workRam cell) ∧ Place.of profile address ≠ .cartridge := by
  unfold Place.of
  dsimp only
  constructor
  · intro cell
    split_ifs <;> first | omega | simp
  · split_ifs <;> first | omega | simp

namespace Mainboard.Plain

variable {p : UInt16 → UInt8} {m : Mainboard}

theorem clock (h : m.Plain p) : m.clock.Plain p := by
  obtain ⟨p, blank⟩ := PictureUnit.eq_blank h.picture
  obtain ⟨later, dots⟩ := PictureUnit.ticks_blank
    ((m.remainder + m.ratio.dots) / m.ratio.cycles) p m.board
  rw [← blank] at dots
  refine ⟨?_, fun address high => ?_⟩
  · show (PictureUnit.ticks _ m.picture m.board).1.kind = .blank
    rw [dots]
    rfl
  · show (PictureUnit.ticks _ m.picture m.board).2.clock.readPrg address = _
    rw [dots, Board.readPrg_clock]
    exact h.program address high

theorem access (h : m.Plain p) (address : UInt16) : (m.access address).2.Plain p := by
  obtain ⟨q, blank⟩ := PictureUnit.eq_blank h.picture
  unfold Mainboard.access
  cases Place.of m.profile address with
  | picture register =>
    dsimp only [readPicture]
    rw [blank]
    exact ⟨rfl, h.program⟩
  | ram cell => exact h
  | soundStatus => exact ⟨h.picture, h.program⟩
  | port port => exact ⟨h.picture, h.program⟩
  | register => exact h
  | nothing => exact h
  | workRam cell => exact h
  | cartridge => exact h

theorem read (h : m.Plain p) (address : UInt16) : (m.read address).2.Plain p := by
  have found := h.access address
  unfold Mainboard.read
  dsimp only
  split
  · exact found.clock
  · exact Plain.clock ⟨found.picture, found.program⟩

/-- A read at an address of the program finds its byte. -/
theorem read_fst (h : m.Plain p) {address : UInt16} (high : 0x8000 ≤ address.toNat) :
    (m.read address).1 = p address := by
  have low : ¬ address.toNat < 0x2000 := by omega
  rw [read_of_startPlace m (.inr high), startValue, if_neg low, h.program address high]
  rfl

/-- A write below the cartridge does not reach the board. -/
theorem write (h : m.Plain p) {address : UInt16} (low : address.toNat < 0x4020) (value : UInt8) :
    (m.write address value).Plain p := by
  obtain ⟨q, blank⟩ := PictureUnit.eq_blank h.picture
  have stored : (m.store address value).Plain p := by
    unfold store
    cases place : Place.of m.profile address with
    | picture register =>
      dsimp only [writePicture]
      rw [blank]
      exact ⟨rfl, h.program⟩
    | register =>
      dsimp only
      split <;> exact ⟨h.picture, h.program⟩
    | port port => cases port <;> exact ⟨h.picture, h.program⟩
    | workRam cell => exact absurd place (Place.of_low m.profile low).1
    | cartridge => exact absurd place (Place.of_low m.profile low).2
    | ram cell => exact ⟨h.picture, h.program⟩
    | soundStatus => exact ⟨h.picture, h.program⟩
    | nothing => exact h
  exact Plain.clock ⟨stored.picture, stored.program⟩

theorem lines_nmi (h : m.Plain p) : m.lines.nmi = false := by
  show m.picture.nmi = false
  obtain ⟨q, blank⟩ := PictureUnit.eq_blank h.picture
  rw [blank]
  rfl

end Mainboard.Plain

/-- A machine that runs a program, as it is followed. -/
structure Machine.Runs (p : UInt16 → UInt8) (t : Tracked) (m : Machine Mainboard) : Prop where
  plain : m.bus.Plain p
  calm : m.cpu.Calm
  inProgram : t.feed.delta.InProgram
  registers : m.cpu.registers = t.registers
  cycles : m.cpu.cycles = t.cycles
  page : m.bus.spritePage = t.page
  feed : m.bus.feed = t.feed

namespace Exec

variable {p : UInt16 → UInt8} {α γ : Type}

/-- An action that can be followed by a function. -/
def Tracks (p : UInt16 → UInt8) (f : Tracked → Tracked) (action : Exec Mainboard α) : Prop :=
  ∀ t m, Machine.Runs p t m → Machine.Runs p (f t) (action m).2

theorem Tracks.bind {f g : Tracked → Tracked} {action : Exec Mainboard α}
    {next : α → Exec Mainboard γ} (first : Tracks p f action) (rest : ∀ a, Tracks p g (next a)) :
    Tracks p (g ∘ f) (action >>= next) :=
  fun t m h => rest (action m).1 (f t) (action m).2 (first t m h)

theorem cycleRead_tracks (address : UInt16) : Tracks p (.wait 1) (cycleRead address) := by
  intro t m h
  have passed : (m.bus.read address).2.feed = t.feed.tick := by
    rw [Mainboard.read_feed, h.feed]
  have plain := h.plain.read address
  rw [Tracked.wait_one]
  exact {
    plain
    calm := h.calm.endCycle plain.lines_nmi
    inProgram := h.inProgram.clockTimer
    registers := h.registers
    cycles := congrArg (· + 1) h.cycles
    page := (m.bus.read_spritePage address).trans h.page
    feed := passed }

theorem cycleRead_fst {t : Tracked} {m : Machine Mainboard} (h : Machine.Runs p t m) {address : UInt16}
    (high : 0x8000 ≤ address.toNat) : (cycleRead address m).1 = p address :=
  h.plain.read_fst high

theorem write_tracks {address : UInt16} (low : address.toNat < 0x4020) (value : UInt8) :
    Tracks p (.write address value) (write address value) := by
  intro t m h
  have passed : (m.bus.write address value).feed = (t.feed.write address value).tick := by
    rw [Mainboard.write_feed, h.feed]
  have plain := h.plain.write low value
  have page : (m.bus.write address value).spritePage =
      if address = Mainboard.spriteTransferAddress then some value else t.page := by
    split
    next asks =>
      rw [asks]
      rfl
    next other => exact (m.bus.write_spritePage value other).trans h.page
  unfold Tracked.write
  rw [Tracked.wait_one]
  exact {
    plain
    calm := h.calm.endCycle plain.lines_nmi
    inProgram := (h.inProgram.writeAt address value).clockTimer
    registers := h.registers
    cycles := congrArg (· + 1) h.cycles
    page
    feed := passed }

/-! ### Transfers -/

theorem copySprite_tracks (page : UInt8) (index : Nat) :
    Tracks p (.wait 2) (copySprite page index) := by
  have stored (value : UInt8) : Tracks p (.wait 1) (write spriteData value) := by
    intro t m h
    have other : Tracked.write spriteData value t = t.wait 1 := by
      unfold Tracked.write
      rw [if_neg (by decide), Feed.write_other _ _ (by decide) (by decide)]
    rw [← other]
    exact write_tracks (by decide) value t m h
  intro t m h
  rw [← Tracked.wait_add 1 1]
  exact Tracks.bind (cycleRead_tracks _) stored t m h

theorem forM_tracks (k : Nat) (xs : List α) {action : α → Exec Mainboard PUnit}
    (each : ∀ x, Tracks p (.wait k) (action x)) : Tracks p (.wait (xs.length * k)) (xs.forM action) := by
  induction xs with
  | nil =>
    intro t m h
    rw [List.length_nil, Nat.zero_mul]
    exact h
  | cons x xs ih =>
    intro t m h
    rw [List.length_cons, Nat.succ_mul, Nat.add_comm, ← Tracked.wait_add]
    exact Tracks.bind (each x) (fun _ => ih) t m h

theorem serve_sprites_tracks (halted : UInt16) (page : UInt8) :
    Tracks p .copied (serve halted (.sprites page)) := by
  have copies : Tracks p (.wait 512) ((List.range 256).forM (copySprite page)) := by
    have each := forM_tracks 2 (List.range 256) (copySprite_tracks (p := p) page)
    rwa [List.length_range] at each
  intro t m h
  have idle := cycleRead_tracks halted t m h
  show Machine.Runs p _ ((if (cycleRead halted m).2.cpu.cycles % 2 = 1 then do
    let _ ← cycleRead halted
    (List.range 256).forM (copySprite page)
    else (List.range 256).forM (copySprite page) : Exec Mainboard PUnit) (cycleRead halted m).2).2
  unfold Tracked.copied
  dsimp only
  rw [idle.cycles]
  by_cases odd : (t.wait 1).cycles % 2 = 1
  · rw [if_pos odd, if_pos odd]
    exact Tracks.bind (cycleRead_tracks _) (fun _ => copies) _ _ idle
  · rw [if_neg odd, if_neg odd]
    exact copies _ _ idle

theorem serve_sample_tracks (halted : UInt16) {address : UInt16} (high : 0x8000 ≤ address.toNat) :
    Tracks p (.filled (p address)) (serve halted (.sample address)) := by
  intro t m h
  have first := cycleRead_tracks halted _ _ h
  have second := cycleRead_tracks halted _ _ first
  have third := cycleRead_tracks halted _ _ second
  have fourth := cycleRead_tracks address _ _ third
  have value := cycleRead_fst third high
  simp only [Tracked.wait_add] at fourth
  unfold Tracked.filled
  dsimp only
  rw [← value]
  exact {
    plain := ⟨fourth.plain.picture, fourth.plain.program⟩
    calm := fourth.calm
    inProgram := fourth.inProgram.fill _
    registers := fourth.registers
    cycles := fourth.cycles
    page := fourth.page
    feed := congrArg (Feed.fill · _) fourth.feed }

/-- Where no transfer of sprites waits, only that of a sample is served. -/
theorem serveAll_tracks_sample (halted : UInt16) (limit : Nat) {t : Tracked} {m : Machine Mainboard}
    (h : Machine.Runs p t m) (page : t.page = none) :
    Machine.Runs p (t.served p) (serveAll halted (limit + 1) m).2 := by
  have none : m.bus.spritePage = none := h.page.trans page
  have request : m.bus.sound.chip.delta.request = t.feed.delta.request :=
    congrArg (fun f : Feed => f.delta.request) h.feed
  have taken := Mainboard.takeTransfer_of_none none
  unfold Tracked.served
  rw [page, if_neg (by simp)]
  dsimp only
  cases wanted : t.feed.delta.request with
  | none =>
    rw [request, wanted] at taken
    rw [serveAll_of_none halted _ taken]
    exact h
  | some address =>
    rw [request, wanted] at taken
    have served := serve_sample_tracks halted (h.inProgram.request wanted) t m h
    have behind : (ProcessorBus.takeTransfer m.bus).2 = m.bus := congrArg Prod.snd taken
    rw [serveAll_next (congrArg Prod.fst taken), behind]
    have content := Mainboard.takeTransfer_of_none (served.page.trans page)
    rw [serve_sample_request] at content
    rw [serveAll_of_none halted _ content]
    exact served

/-- The transfers before a read. -/
theorem serveAll_tracks (halted : UInt16) : Tracks p (.served p) (serveAll halted 2) := by
  intro t m h
  cases page : t.page with
  | none => exact serveAll_tracks_sample halted 1 h page
  | some first =>
    have waits : m.bus.spritePage = some first := h.page.trans page
    have taken : Machine.Runs p { t with page := none, feed := t.feed.transfer } (Exec.taken m) := by
      have begun := Mainboard.takeTransfer_feed waits
      unfold Exec.taken
      rw [h.feed] at begun
      rw [Mainboard.takeTransfer_of_page waits] at begun ⊢
      exact {
        plain := ⟨h.plain.picture, h.plain.program⟩
        calm := h.calm
        inProgram := h.inProgram
        registers := h.registers
        cycles := h.cycles
        page := rfl
        feed := begun }
    have copied := serve_sprites_tracks halted first _ _ taken
    have rest := serveAll_tracks_sample halted 0 copied (Tracked.copied_page _)
    rw [Tracked.served_of_page p page]
    show Machine.Runs p _ (serveAll halted (1 + 1) m).2
    rw [serveAll_next (congrArg Prod.fst (Mainboard.takeTransfer_of_page waits))]
    exact rest

theorem read_tracks (address : UInt16) : Tracks p (.read p) (read address) := by
  intro t m h
  exact cycleRead_tracks address _ _ (serveAll_tracks address t m h)

/-- A read at an address of the program finds its byte, whatever has been served. -/
theorem read_fst {t : Tracked} {m : Machine Mainboard} (h : Machine.Runs p t m) {address : UInt16}
    (high : 0x8000 ≤ address.toNat) : (read address m).1 = p address :=
  cycleRead_fst (serveAll_tracks address t m h) high

/-! ### Instructions -/

theorem mapRegisters_tracks {f : Registers → Registers}
    (disabled : ∀ r : Registers, r.p.interruptDisable → (f r).p.interruptDisable) :
    Tracks p (.mapRegisters f) (mapRegisters f) := by
  intro t m h
  have calm := h.calm
  exact {
    plain := h.plain
    calm := { calm with disabled := disabled m.cpu.registers calm.disabled }
    inProgram := h.inProgram
    registers := congrArg f h.registers
    cycles := h.cycles
    page := h.page
    feed := h.feed }

theorem readAtPc_tracks : Tracks p (.read p) readAtPc :=
  fun t m h => read_tracks m.cpu.registers.pc t m h

theorem fetch_tracks : Tracks p (.fetch p) fetch :=
  Tracks.bind readAtPc_tracks fun _ => mapRegisters_tracks fun _ disabled => disabled

theorem fetch_fst {t : Tracked} {m : Machine Mainboard} (h : Machine.Runs p t m)
    (code : 0x8000 ≤ t.registers.pc.toNat) : (fetch m).1 = p t.registers.pc := by
  rw [← h.registers] at code ⊢
  exact read_fst h code

/-- An instruction of a machine that nothing interrupts. -/
theorem step_tracks {t behind : Tracked} {m : Machine Mainboard} (h : Machine.Runs p t m)
    (code : 0x8000 ≤ t.registers.pc.toNat)
    (executes : ∀ n, Machine.Runs p (t.fetch p) n →
      Machine.Runs p behind (execute (Instruction.decode (p t.registers.pc)) n).2) :
    Machine.Runs p behind (step m).2 := by
  have running : ¬ m.cpu.jammed := by simp [h.calm.running]
  have quiet : ¬ (m.cpu.nmiPolled || m.cpu.irqPolled) := by
    simp [h.calm.nmiPolled, h.calm.irqPolled]
  have fetched := fetch_tracks t m h
  have accepted : ¬ Refuses m := by
    rw [Refuses, fetched.calm.lenient]
    simp
  rw [step_of_ready running quiet, instruction_of_accepts accepted, fetch_fst h code]
  exact executes _ fetched

/-- An instruction with its operand behind it. -/
theorem step_immediate {t : Tracked} {m : Machine Mainboard} (h : Machine.Runs p t m) (op : ReadOp)
    (code : 0x8000 ≤ t.registers.pc.toNat) (next : 0x8000 ≤ (t.registers.pc + 1).toNat)
    (decoded : Instruction.decode (p t.registers.pc) = .read op .immediate) :
    Machine.Runs p (t.immediate p op) (step m).2 := by
  refine step_tracks h code fun n fetched => ?_
  have pc : n.cpu.registers.pc = t.registers.pc + 1 := by
    rw [fetched.registers, Tracked.fetch_registers]
  have moved := mapRegisters_tracks (f := fun r => { r with pc := r.pc + 1 })
    (fun _ disabled => disabled) _ _ fetched
  have value := read_fst moved next
  have got := mapRegisters_tracks (f := fun r => op.apply (p (t.registers.pc + 1)) r)
    (fun r disabled => (ReadOp.apply_disabled op _ r).trans disabled) _ _
    (read_tracks (t.registers.pc + 1) _ _ moved)
  have executed : (execute (.read op .immediate) n).2 =
      (mapRegisters (fun r => op.apply (p (t.registers.pc + 1)) r) (read (t.registers.pc + 1)
        (mapRegisters (fun r => { r with pc := r.pc + 1 }) n).2).2).2 := by
    rw [← value, ← pc]
    rfl
  rw [decoded, executed]
  exact got

/-- An instruction that stores a register below the cartridge. -/
theorem step_store {t : Tracked} {m : Machine Mainboard} (h : Machine.Runs p t m) (op : StoreOp)
    (code : 0x8000 ≤ t.registers.pc.toNat) (next : 0x8000 ≤ (t.registers.pc + 1).toNat)
    (last : 0x8000 ≤ (t.registers.pc + 1 + 1).toNat) (low : (t.operand p).toNat < 0x4020)
    (decoded : Instruction.decode (p t.registers.pc) = .store op .absolute) :
    Machine.Runs p (t.store p op) (step m).2 := by
  refine step_tracks h code fun n fetched => ?_
  have behind := fetch_tracks _ _ fetched
  have word := fetch_tracks _ _ behind
  have first : (fetch n).1 = p (t.registers.pc + 1) := by
    have found := fetch_fst fetched (by rwa [Tracked.fetch_registers])
    rwa [Tracked.fetch_registers] at found
  have second : (fetch (fetch n).2).1 = p (t.registers.pc + 1 + 1) := by
    have found := fetch_fst behind (by rwa [Tracked.fetch_registers, Tracked.fetch_registers])
    rwa [Tracked.fetch_registers, Tracked.fetch_registers] at found
  have stored := write_tracks low (op.value (fetch (fetch n).2).2.cpu.registers) _ _ word
  have executed : (execute (.store op .absolute) n).2 = (write (t.operand p)
      (op.value (fetch (fetch n).2).2.cpu.registers) (fetch (fetch n).2).2).2 := by
    unfold Tracked.operand
    rw [← first, ← second]
    rfl
  rw [word.registers] at stored executed
  rw [decoded, executed]
  exact stored

/-! ### The reset sequence -/

theorem resetPush_tracks : Tracks p (.resetPush p) resetPush := by
  have idle : Tracks p (.read p) readAtStack :=
    fun t m h => read_tracks (stackTop m.cpu.registers) t m h
  have moved : Tracks p (.mapRegisters fun r => { r with sp := r.sp - 1 })
      (mapRegisters fun r => { r with sp := r.sp - 1 }) :=
    mapRegisters_tracks fun _ disabled => disabled
  exact Tracks.bind idle fun _ => moved

theorem readWord_tracks (address : UInt16) : Tracks p (.read p ∘ .read p) (readWord address) :=
  Tracks.bind (read_tracks address) fun _ => read_tracks (address + 1)

/-- A word of the program. -/
theorem readWord_fst {t : Tracked} {m : Machine Mainboard} (h : Machine.Runs p t m) {address : UInt16}
    (low : 0x8000 ≤ address.toNat) (high : 0x8000 ≤ (address + 1).toNat) :
    (readWord address m).1 = word (p (address + 1)) (p address) := by
  have first := read_fst h low
  have second := read_fst (read_tracks address _ _ h) high
  rw [← first, ← second]
  rfl

/-- The reset sequence between what it forgets and what it reads. -/
def idleReset : Exec Mainboard Unit := do
  let _ ← readAtPc
  let _ ← readAtPc
  resetPush
  resetPush
  resetPush
  mapRegisters Registers.disableInterrupts

theorem untilVector_eq :
    untilVector = modify forgotten >>= fun _ => idleReset >>= fun _ => readWord resetVector := by
  unfold untilVector idleReset
  simp only [bind_assoc]

theorem idleReset_tracks : Tracks p
    (fun t => (((((t.read p).read p).resetPush p).resetPush p).resetPush p).mapRegisters
      Registers.disableInterrupts) idleReset := by
  have disabled : Tracks p (.mapRegisters Registers.disableInterrupts)
      (mapRegisters Registers.disableInterrupts) := mapRegisters_tracks fun _ _ => rfl
  exact Tracks.bind readAtPc_tracks fun _ => Tracks.bind readAtPc_tracks fun _ =>
    Tracks.bind resetPush_tracks fun _ => Tracks.bind resetPush_tracks fun _ =>
      Tracks.bind resetPush_tracks fun _ => disabled

/-- Behind the reset sequence the program runs from where its vector leads. -/
theorem reset_runs {t : Tracked} {m : Machine Mainboard} (h : Machine.Runs p t (forgotten m)) :
    Machine.Runs p (t.reset p) (reset m).2 := by
  have before := idleReset_tracks _ _ h
  have found := readWord_fst before (show 0x8000 ≤ resetVector.toNat by decide)
    (show 0x8000 ≤ (resetVector + 1).toNat by decide)
  have jumped := mapRegisters_tracks (p := p)
    (f := fun r => { r with pc := word (p (resetVector + 1)) (p resetVector) })
    (fun _ disabled => disabled) _ _ (readWord_tracks resetVector _ _ before)
  have moved : (reset m).2 = jump (readWord resetVector (idleReset (forgotten m)).2) := by
    rw [reset_eq, untilVector_eq, bind_jump, bind_apply, bind_apply]
    rfl
  rw [moved, jump, found]
  exact jumped

end Exec

end Famiclone
