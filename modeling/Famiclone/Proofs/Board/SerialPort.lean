import Famiclone.Proofs.Board.Past
import Mathlib.Data.FinEnum
import Mathlib.Data.Nat.Bitwise
import Mathlib.Data.Nat.Digits.Lemmas
import Mathlib.Tactic

/-!
# The serial port of the MMC1

A program sends five bits, the lowest one first, and the fifth one loads a register. What has been sent
is a list of bits, and the chip keeps it as a byte and a count. It also keeps how long ago the last write
was, whether it took that write or not, since a write too soon behind another one is not taken.
-/
namespace Famiclone

/-! ## Writes and cycles -/

namespace BoardEvent

/-- The serial port hears of the event: the processor writes above `$8000`. -/
def ToPort : BoardEvent → Prop
  | write address _ => 0x8000 ≤ address
  | _ => False

@[simp] theorem toPort_write (address : UInt16) (value : UInt8) :
    (write address value).ToPort ↔ 0x8000 ≤ address := Iff.rfl

@[simp] theorem not_toPort_clock : ¬ clock.ToPort := id

instance : DecidablePred ToPort := fun
  | write address _ => inferInstanceAs (Decidable (0x8000 ≤ address))
  | read | writeChr _ _ | writeWork _ _ | observe _ | clock | reset => .isFalse id

end BoardEvent

namespace Past

/-- Each write to the port is this many cycles back, or more. -/
def Spaced (cycles : Nat) (past : Past) : Prop :=
  ∀ later e earlier, past = later ++ e :: earlier → e.ToPort → cycles ≤ later.count .clock

theorem spaced_nil (cycles : Nat) : Spaced cycles [] := by
  intro later e earlier split
  simp at split

/-- Only a cycle takes the writes further back, and a write to the port is there at once. -/
theorem spaced_cons (cycles : Nat) (e : BoardEvent) (before : Past) : Spaced cycles (e :: before) ↔
    (e.ToPort → cycles = 0) ∧ Spaced (cycles - if e = .clock then 1 else 0) before := by
  constructor
  · intro spaced
    refine ⟨fun here => ?_, ?_⟩
    · simpa using spaced [] e before rfl here
    · rintro later other earlier rfl there
      have counted := spaced (e :: later) other earlier rfl there
      rw [List.count_cons] at counted
      simp only [beq_iff_eq] at counted
      omega
  · rintro ⟨here, there⟩ later other earlier split toPort
    cases later with
    | nil =>
      obtain ⟨rfl, rfl⟩ : e = other ∧ before = earlier := by simpa using split
      simp [here toPort]
    | cons first later =>
      obtain ⟨rfl, rfl⟩ : e = first ∧ before = later ++ other :: earlier := by simpa using split
      have counted := there later other earlier rfl toPort
      rw [List.count_cons]
      simp only [beq_iff_eq]
      omega

/-- Whether the writes are far enough back can be computed. -/
instance decidableSpaced : ∀ (cycles : Nat) (past : Past), Decidable (Spaced cycles past)
  | cycles, [] => .isTrue (spaced_nil cycles)
  | cycles, e :: before =>
    have := decidableSpaced (cycles - if e = .clock then 1 else 0) before
    decidable_of_iff _ (spaced_cons cycles e before).symm

end Past

/-! ## What is sent -/

/-- The byte whose bits are listed, the lowest one first. -/
def number (bits : List Bool) : UInt8 := UInt8.ofNat (Nat.ofDigits 2 (bits.map Bool.toNat))

/-- A serial port that lists the bits it has been sent, with the registers behind it. -/
structure SerialPort where
  bits : List Bool
  control : UInt8
  chrBank0 : UInt8
  chrBank1 : UInt8
  prgBank : UInt8
  deriving DecidableEq

namespace SerialPort

/-- A fresh port, which has the last program bank fixed at `$C000`. -/
def fresh : SerialPort := ⟨[], 0x0C, 0, 0, 0⟩

def discard (p : SerialPort) : SerialPort := { p with bits := [], control := p.control ||| 0x0C }

/-- Load the register that two bits of the address select. -/
def load (p : SerialPort) (address : UInt16) (value : UInt8) : SerialPort :=
  match address.toNat.testBit 14, address.toNat.testBit 13 with
  | false, false => { p with control := value }
  | false, true => { p with chrBank0 := value }
  | true, false => { p with chrBank1 := value }
  | true, true => { p with prgBank := value }

/-- Which register is loaded does not depend on the bits. -/
theorem load_emptied (p : SerialPort) (address : UInt16) (value : UInt8) :
    { p with bits := [] }.load address value = { p.load address value with bits := [] } := by
  unfold load
  split <;> rfl

/-- Take a write: the highest bit of the value discards, and otherwise the lowest one is sent. -/
def take (p : SerialPort) (address : UInt16) (value : UInt8) : SerialPort :=
  if bit value 7 then p.discard
  else
    let bits := p.bits ++ [bit value 0]
    if bits.length = 5 then { p.load address (number bits) with bits := [] } else { p with bits }

theorem take_of_full {p : SerialPort} (address : UInt16) {value : UInt8}
    (sends : bit value 7 = false) (full : (p.bits ++ [bit value 0]).length = 5) :
    p.take address value =
      { p.load address (number (p.bits ++ [bit value 0])) with bits := [] } := by
  simp only [take, sends, full, Bool.false_eq_true, if_true, if_false]

end SerialPort

/-- The port that a past leaves. It takes a write if each one before is at least two cycles back. -/
def Past.port : Past → SerialPort
  | [] => .fresh
  | .write address value :: before =>
    if 0x8000 ≤ address ∧ Spaced 2 before then (port before).take address value else port before
  | .reset :: before => (port before).discard
  | _ :: before => port before

namespace Past

theorem port_reset (before : Past) : port (.reset :: before) = (port before).discard := rfl

end Past

/-! ## Bits of a byte -/

theorem bit_of_lt {b : UInt8} {n i : Nat} (small : b.toNat < 2 ^ n) (h : n ≤ i) : bit b i = false :=
  Nat.testBit_lt_two_pow (Nat.lt_of_lt_of_le small (Nat.pow_le_pow_right (by decide) h))

theorem highest_bit : ∀ b : UInt8, (b &&& 0x80 != 0) = bit b 7 := by
  decide +kernel

theorem lowest_bit : ∀ b : UInt8, (b &&& 1).toNat = (bit b 0).toNat := by
  decide +kernel

/-- The lowest bit of a value in a place of its own. -/
theorem placed_lt (value : UInt8) (n : Nat) : (bit value 0).toNat <<< n < 2 ^ (n + 1) := by
  rw [Nat.add_comm n 1]
  exact Nat.shiftLeft_lt (Bool.toNat_lt _)

theorem collect_toNat (b value : UInt8) {n : Nat} (h : n < 8) :
    (b ||| ((value &&& 1) <<< UInt8.ofNat n)).toNat = b.toNat ||| (bit value 0).toNat <<< n := by
  have place : (UInt8.ofNat n).toNat % 8 = n := by
    rw [UInt8.toNat_ofNat']
    omega
  have small : (bit value 0).toNat <<< n < 2 ^ 8 :=
    Nat.lt_of_lt_of_le (placed_lt value n) (Nat.pow_le_pow_right (by decide) h)
  rw [UInt8.toNat_or, UInt8.toNat_shiftLeft, lowest_bit, place, Nat.mod_eq_of_lt small]

/-- A bit that is put right above the others is the next one. -/
theorem collect_bits {b : UInt8} (value : UInt8) {n : Nat} (h : n < 8) (small : b.toNat < 2 ^ n) :
    (List.range (n + 1)).map (bit (b ||| ((value &&& 1) <<< UInt8.ofNat n))) =
      (List.range n).map (bit b) ++ [bit value 0] := by
  have each (i : Nat) : bit (b ||| ((value &&& 1) <<< UInt8.ofNat n)) i =
      (bit b i || (decide (n ≤ i) && (decide (i - n = 0) && bit value 0))) := by
    simp only [bit, collect_toNat b value h, Nat.testBit_or, Nat.testBit_shiftLeft,
      Nat.testBit_bool_toNat, ge_iff_le]
  rw [List.range_succ, List.map_append, List.map_singleton, each n, bit_of_lt small le_rfl]
  congr 1
  · refine List.map_congr_left fun i below => ?_
    have left := List.mem_range.mp below
    simp [each, Nat.not_le.mpr left]
  · simp

theorem collect_lt {b : UInt8} (value : UInt8) {n : Nat} (h : n < 8) (small : b.toNat < 2 ^ n) :
    (b ||| ((value &&& 1) <<< UInt8.ofNat n)).toNat < 2 ^ (n + 1) := by
  rw [collect_toNat b value h]
  refine Nat.or_lt_two_pow (Nat.lt_of_lt_of_le small ?_) (placed_lt value n)
  exact Nat.pow_le_pow_right (by decide) (Nat.le_succ n)

/-- The bits of a byte make it up. -/
theorem number_bits {b : UInt8} {n : Nat} (small : b.toNat < 2 ^ n) :
    number ((List.range n).map (bit b)) = b := by
  have digits (n : Nat) : Nat.ofDigits 2 (((List.range n).map (bit b)).map Bool.toNat) =
      b.toNat % 2 ^ n := by
    induction n with
    | zero => simp [Nat.mod_one]
    | succ n ih =>
      rw [List.range_succ, List.map_append, List.map_append, Nat.ofDigits_append, ih,
        Nat.mod_pow_succ]
      simp [bit, Nat.toNat_testBit]
  rw [number, digits, Nat.mod_eq_of_lt small, UInt8.ofNat_toNat]

namespace Mmc1

/-! ## The port of a board -/

/-- The port of a board, its bits listed. -/
def port (b : Mmc1) : SerialPort :=
  ⟨(List.range b.collected).map (bit b.shift), b.control, b.chrBank0, b.chrBank1, b.prgBank⟩

/-- The bits that a board keeps are those that it has counted, and there is room for one more. -/
structure Collects (b : Mmc1) : Prop where
  room : b.collected < 5
  bits : b.shift.toNat < 2 ^ b.collected

theorem reset_port (b : Mmc1) : b.reset.port = b.port.discard := rfl

theorem collects_of_empty {b : Mmc1} (shift : b.shift = 0) (collected : b.collected = 0) :
    b.Collects := by
  constructor <;> simp [shift, collected]

theorem reset_collects (b : Mmc1) : b.reset.Collects := collects_of_empty rfl rfl

theorem load_port (b : Mmc1) (address : UInt16) (value : UInt8) :
    (b.load address value).port = b.port.load address value := by
  have selected : address.toNat / 0x2000 % 4 =
      2 * (address.toNat.testBit 14).toNat + (address.toNat.testBit 13).toNat := by
    rw [Nat.toNat_testBit, Nat.toNat_testBit]
    omega
  unfold load SerialPort.load
  rw [selected]
  cases address.toNat.testBit 14 <;> cases address.toNat.testBit 13 <;> rfl

theorem load_bits (b : Mmc1) (address : UInt16) (value : UInt8) :
    (b.load address value).shift = b.shift ∧ (b.load address value).collected = b.collected := by
  unfold load
  split <;> exact ⟨rfl, rfl⟩

variable {b : Mmc1}

/-- The byte of collected bits behind one more. -/
def collect (b : Mmc1) (value : UInt8) : UInt8 :=
  b.shift ||| ((value &&& 1) <<< UInt8.ofNat b.collected)

/-- A board with room takes a bit. -/
theorem Collects.accept_room (h : b.Collects) (address : UInt16) {value : UInt8}
    (sends : bit value 7 = false) (room : b.collected + 1 < 5) :
    (b.accept address value).port = b.port.take address value ∧
      (b.accept address value).Collects := by
  have few : b.collected < 8 := by omega
  have short : b.collected ≠ 4 := by omega
  have taken : b.accept address value =
      { b with shift := b.collect value, collected := b.collected + 1 } := by
    simp [accept, highest_bit, sends, room, collect]
  rw [taken]
  constructor
  · simp [port, SerialPort.take, sends, short, collect, collect_bits value few h.bits]
  · exact ⟨room, collect_lt value few h.bits⟩

/-- The fifth bit loads a register. -/
theorem Collects.accept_full (h : b.Collects) (address : UInt16) {value : UInt8}
    (sends : bit value 7 = false) (full : b.collected = 4) :
    (b.accept address value).port = b.port.take address value ∧
      (b.accept address value).Collects := by
  have few : b.collected < 8 := by omega
  have taken : b.accept address value =
      update ({ b with shift := 0, collected := 0 }.load address (b.collect value)) := by
    simp [accept, highest_bit, sends, full, collect]
  have sum : number (b.port.bits ++ [bit value 0]) = b.collect value := by
    rw [port, ← collect_bits value few h.bits]
    exact number_bits (collect_lt value few h.bits)
  have whole : (b.port.bits ++ [bit value 0]).length = 5 := by simp [port, full]
  rw [taken]
  constructor
  · calc ({ b with shift := 0, collected := 0 }.load address (b.collect value)).port
      _ = { b.port with bits := [] }.load address (b.collect value) := load_port _ address _
      _ = { b.port.load address (b.collect value) with bits := [] } := b.port.load_emptied address _
      _ = b.port.take address value := by
        rw [SerialPort.take_of_full address sends whole, sum]
  · obtain ⟨shift, collected⟩ :=
      { b with shift := 0, collected := 0 }.load_bits address (b.collect value)
    exact collects_of_empty shift collected

/-- A board takes a write that it accepts. -/
theorem Collects.accept (h : b.Collects) (address : UInt16) (value : UInt8) :
    (b.accept address value).port = b.port.take address value ∧
      (b.accept address value).Collects := by
  cases discards : bit value 7 with
  | true => simpa [Mmc1.accept, SerialPort.take, highest_bit, discards] using
      ⟨b.reset_port, b.reset_collects⟩
  | false =>
    by_cases room : b.collected + 1 < 5
    · exact h.accept_room address discards room
    · have := h.room
      exact h.accept_full address discards (by omega)

/-! ## When a write is taken -/

theorem accept_idle (b : Mmc1) (address : UInt16) (value : UInt8) :
    (b.accept address value).idle = b.idle := by
  have loaded (c : Mmc1) (value : UInt8) : (c.load address value).update.idle = c.idle := by
    unfold load
    split <;> rfl
  unfold Mmc1.accept
  dsimp only
  split_ifs
  · rfl
  · rfl
  · exact loaded _ _

/-- A write to the port starts the count anew, taken or not, and a cycle adds one. -/
theorem happen_idle (b : Mmc1) (e : BoardEvent) : (b.happen e).idle =
    if e.ToPort then 0 else if e = .clock then b.idle.advance 1 else b.idle := by
  cases e with
  | write address value =>
    by_cases high : 0x8000 ≤ address
    · cases again : b.consecutive <;> simp [happen, write_of_high, high, again, accept_idle]
    · obtain ⟨cell, kept⟩ := write_of_low high b value
      simp [happen, kept, high]
  | _ => simp [happen, BoardEvent.ToPort, reset, clock, update]

/-- How far the writes are back can be read off the count, as far as it goes. -/
theorem spaced_iff (past : Past) {cycles : Nat} (most : cycles ≤ mostIdle)
    (fresh : b.idle = Fin.last mostIdle) :
    past.Spaced cycles ↔ cycles ≤ (b.aged past).idle.val := by
  induction past generalizing cycles with
  | nil => simp [Past.spaced_nil, fresh, most]
  | cons e before ih =>
    rw [Past.spaced_cons, ih (by omega), aged_cons, happen_idle]
    by_cases here : e.ToPort
    · have silent : e ≠ .clock := by
        rintro rfl
        exact here
      simp [here, silent]
      omega
    · by_cases cycle : e = .clock
      · simp [cycle]
        omega
      · simp [here, cycle]

theorem consecutive_iff (b : Mmc1) : b.consecutive = false ↔ 2 ≤ b.idle.val := by
  unfold consecutive
  rw [decide_eq_false_iff_not]
  omega

/-- The port that a write leaves. -/
theorem Collects.write (h : b.Collects) (address : UInt16) (value : UInt8) :
    (b.write address value).Collects ∧ (b.write address value).port =
      if 0x8000 ≤ address ∧ b.consecutive = false then b.port.take address value else b.port := by
  by_cases high : 0x8000 ≤ address
  · have noted : ({ b with idle := 0 } : Mmc1).Collects := ⟨h.room, h.bits⟩
    rw [write_of_high high]
    cases b.consecutive with
    | true =>
      simp only [if_true, Bool.true_eq_false, and_false, if_false]
      exact ⟨noted, rfl⟩
    | false =>
      obtain ⟨taken, sound⟩ := noted.accept address value
      simp only [Bool.false_eq_true, if_false, high, and_self, if_true]
      exact ⟨sound, taken⟩
  · obtain ⟨cell, kept⟩ := write_of_low high b value
    rw [kept, if_neg (fun both => high both.1)]
    exact ⟨⟨h.room, h.bits⟩, rfl⟩

/-- A write to a port that is ready is taken, and the port is not ready for one on the next cycle. -/
theorem Collects.taken (h : b.Collects) (ready : b.consecutive = false) {address : UInt16}
    (high : 0x8000 ≤ address) (value : UInt8) :
    let behind := b.aged [.clock, .write address value]
    behind.Collects ∧ behind.port = b.port.take address value ∧ behind.consecutive = true := by
  obtain ⟨sound, taken⟩ := h.write address value
  rw [if_pos ⟨high, ready⟩] at taken
  have now : (b.write address value).idle = 0 :=
    (b.happen_idle (.write address value)).trans (if_pos high)
  have next : (b.write address value).clock.consecutive = true := by
    simp [consecutive, clock, now]
  exact ⟨⟨sound.room, sound.bits⟩, taken, next⟩

/-- One on the next cycle is dropped. -/
theorem Collects.dropped (h : b.Collects) (again : b.consecutive = true) (address : UInt16)
    (value : UInt8) : (b.aged [.clock, .write address value]).port = b.port := by
  have written := (h.write address value).2
  rwa [if_neg (by simp [again])] at written

/-! ## Behind every past -/

theorem mount_collects (banks : Banks) : (mount banks).Collects := collects_of_empty rfl rfl

theorem ready_iff (banks : Banks) (past : Past) :
    ((mount banks).aged past).consecutive = false ↔ past.Spaced 2 := by
  rw [consecutive_iff, spaced_iff (b := mount banks) past (by decide) rfl]

/-- Behind every past the board collects what the listed port collects. -/
theorem aged_port (banks : Banks) (past : Past) :
    ((mount banks).aged past).Collects ∧ ((mount banks).aged past).port = past.port := by
  induction past with
  | nil => exact ⟨mount_collects banks, rfl⟩
  | cons e before ih =>
    obtain ⟨sound, same⟩ := ih
    cases e with
    | write address value =>
      have written := sound.write address value
      simp only [ready_iff, same] at written
      exact written
    | reset =>
      refine ⟨reset_collects _, ?_⟩
      rw [Past.port_reset, ← same]
      rfl
    | _ => exact ⟨⟨sound.room, sound.bits⟩, same⟩

/-- What is no reset and does not write to the port leaves it. -/
theorem aged_port_of_quiet (b : Mmc1) {later : Past}
    (quiet : ∀ e ∈ later, ¬ e.ToPort ∧ e ≠ .reset) : (b.aged later).port = b.port := by
  induction later with
  | nil => rfl
  | cons e later ih =>
    obtain ⟨⟨silent, steady⟩, rest⟩ := List.forall_mem_cons.mp quiet
    rw [aged_cons, ← ih rest]
    cases e with
    | write address value =>
      obtain ⟨cell, kept⟩ := write_of_low silent (b.aged later) value
      rw [happen, kept]
      rfl
    | reset => exact absurd rfl steady
    | _ => rfl

/-- The port of a board holds the bits and the registers that the writes of its past give, if those less
than two cycles behind another one are left out. Nothing but a write to the port and a reset reaches it. -/
theorem port_decodes_writes (banks : Banks) :
    (∀ past : Past, ((mount banks).aged past).port = past.port) ∧
      ∀ later earlier : Past, (∀ e ∈ later, ¬ e.ToPort ∧ e ≠ .reset) →
        ((mount banks).aged (later ++ earlier)).port = ((mount banks).aged earlier).port := by
  refine ⟨fun past => (aged_port banks past).2, fun later earlier quiet => ?_⟩
  rw [aged_append]
  exact aged_port_of_quiet _ quiet

/-- Five bits for the program register; the write in between comes too soon, and what is done to the work
RAM and to the picture bus behind them is not heard. -/
theorem five_bits_load :
    let earlier : Past := [.write 0xE000 1, .clock, .clock, .write 0x8000 0, .clock, .clock,
      .write 0xE000 1, .clock, .clock, .write 0xE000 1, .clock, .write 0xE000 0, .clock, .clock,
      .write 0xE000 0]
    let later : Past := [.observe 0x1000, .read, .clock, .write 0x6000 0xFF]
    ((mount (.mount ⟨1, 0, 0, 0, 0, 0, 0, 0, 0⟩ #[] #[])).aged (later ++ earlier)).port =
      ⟨[], 0x0C, 0, 0, 0x14⟩ := by
  intro earlier later
  obtain ⟨decodes, quiet⟩ := port_decodes_writes (.mount ⟨1, 0, 0, 0, 0, 0, 0, 0, 0⟩ #[] #[])
  rw [quiet later earlier (by decide), decodes]
  decide +kernel

end Mmc1

end Famiclone
