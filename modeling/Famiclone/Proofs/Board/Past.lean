import Famiclone.Proofs.Board.Course
import Mathlib.Tactic

/-!
# The past of a board

What a board does next depends on what has been done to it before. A past lists that, the newest event
first: what has happened since something else is then read off the front of the list, and a fact about
every past is one induction over what a single event does.
-/
namespace Famiclone

/-- What can be done to a board. -/
inductive BoardEvent where
  /-- Something is read, which leaves the board as it is. -/
  | read
  /-- The processor writes. -/
  | write (address : UInt16) (value : UInt8)
  /-- The picture unit writes. -/
  | writeChr (address : UInt16) (value : UInt8)
  /-- The work RAM is written past its protection. -/
  | writeWork (cell : Nat) (value : UInt8)
  | observe (address : UInt16)
  | clock
  | reset
  deriving DecidableEq

abbrev Past := List BoardEvent

namespace BoardEvent

/-- What an event writes to one of eight registers: the chip looks at the highest three bits of an address
and at the lowest one. -/
def written? (register : Nat) : BoardEvent → Option UInt8
  | write address value =>
    if address.toNat / 0x2000 = register / 0x2000 ∧ address.toNat % 2 = register % 2 then some value
    else none
  | _ => none

end BoardEvent

/-! ## Events on boards -/

def Board.happen (b : Board) : BoardEvent → Board
  | .read => b
  | .write address value => b.writePrg address value
  | .writeChr address value => b.writeChr address value
  | .writeWork cell value => b.mapWorkRam fun ram => ram.setIfInBounds (cell % ram.size) value
  | .observe address => b.observe address
  | .clock => b.clock
  | .reset => b.reset

def Board.aged (b : Board) : Past → Board
  | [] => b
  | e :: before => (b.aged before).happen e

def Mmc1.happen (b : Mmc1) : BoardEvent → Mmc1
  | .read | .observe _ => b
  | .write address value => b.write address value
  | .writeChr address value => { b with banks := b.banks.writeChr address value }
  | .writeWork cell value =>
    { b with banks := { b.banks with
        workRam := b.banks.workRam.setIfInBounds (cell % b.banks.workRam.size) value } }
  | .clock => b.clock
  | .reset => b.reset

def Mmc1.aged (b : Mmc1) : Past → Mmc1
  | [] => b
  | e :: before => (b.aged before).happen e

def Mmc3.happen (b : Mmc3) : BoardEvent → Mmc3
  | .read => b
  | .write address value => b.write address value
  | .writeChr address value => { b with banks := b.banks.writeChr address value }
  | .writeWork cell value =>
    { b with banks := { b.banks with
        workRam := b.banks.workRam.setIfInBounds (cell % b.banks.workRam.size) value } }
  | .observe address => b.observe address
  | .clock => b.clock
  | .reset => b.reset

def Mmc3.aged (b : Mmc3) : Past → Mmc3
  | [] => b
  | e :: before => (b.aged before).happen e

@[simp] theorem Mmc1.aged_nil (b : Mmc1) : b.aged [] = b := rfl

@[simp] theorem Mmc1.aged_cons (b : Mmc1) (e : BoardEvent) (before : Past) :
    b.aged (e :: before) = (b.aged before).happen e := rfl

@[simp] theorem Mmc3.aged_nil (b : Mmc3) : b.aged [] = b := rfl

@[simp] theorem Mmc3.aged_cons (b : Mmc3) (e : BoardEvent) (before : Past) :
    b.aged (e :: before) = (b.aged before).happen e := rfl

theorem Mmc1.aged_append (b : Mmc1) (later earlier : Past) :
    b.aged (later ++ earlier) = (b.aged earlier).aged later := by
  induction later with
  | nil => rfl
  | cons e later ih => simp [ih]

/-! ## Writes to the boards -/

namespace Mmc1

theorem write_of_high {address : UInt16} (high : 0x8000 ≤ address) (b : Mmc1) (value : UInt8) :
    b.write address value = if b.consecutive then { b with idle := 0 }
      else { b with idle := 0 }.accept address value := by
  rw [write, if_pos high]

/-- Below `$8000` a write reaches a cell of the work RAM, or none. -/
theorem write_of_low {address : UInt16} (low : ¬ 0x8000 ≤ address) (b : Mmc1) (value : UInt8) :
    ∃ cell, b.write address value = { b with banks := { b.banks with
      workRam := b.banks.workRam.setIfInBounds cell value } } := by
  rw [write, if_neg low]
  split
  · exact ⟨_, rfl⟩
  · exact ⟨b.banks.workRam.size, by rw [Array.setIfInBounds_eq_of_size_le le_rfl]⟩

end Mmc1

namespace Mmc3

/-- What a write leaves of a board. The register is told by the highest three bits of the address, of which
there have to be four at least, and by the lowest one. -/
inductive Wrote (b : Mmc3) (value : UInt8) : Nat → Nat → Mmc3 → Prop
  | below {page : Nat} (low : page < 4) (half : Nat) (workRam : Array UInt8) :
      Wrote b value page half { b with banks := { b.banks with workRam } }
  | select : Wrote b value 4 0 (update { b with bankSelect := value })
  | bank : Wrote b value 4 1
      (update { b with registers := put b.registers (.ofNat 8 b.bankSelect.toNat) value })
  | nametables (mirroring : Mirroring) : Wrote b value 5 0 { b with mirroring }
  | work (workEnabled workProtected : Bool) :
      Wrote b value 5 1 { b with workEnabled, workProtected }
  | latch : Wrote b value 6 0 { b with irqLatch := value }
  | reload : Wrote b value 6 1 { b with irqCounter := 0, irqReload := true }
  | disable : Wrote b value 7 0 { b with irqEnabled := false, irqPending := false }
  | enable : Wrote b value 7 1 { b with irqEnabled := true }

theorem lowest_is_odd (address : UInt16) :
    (address &&& 1 != 0) = decide (address.toNat % 2 = 1) := by
  have value : (address &&& 1).toNat = address.toNat % 2 := by
    rw [UInt16.toNat_and]
    exact Nat.and_one_is_mod _
  have zero : address &&& 1 = 0 ↔ address.toNat % 2 = 0 := by
    rw [← UInt16.toNat_inj, value]
    rfl
  rw [Bool.eq_iff_iff, bne_iff_ne, ne_eq, zero, decide_eq_true_iff]
  omega

/-- Every write of the processor is one of these. -/
theorem write_wrote (b : Mmc3) (address : UInt16) (value : UInt8) :
    b.Wrote value (address.toNat / 0x2000) (address.toNat % 2) (b.write address value) := by
  have bound := address.toNat_lt
  by_cases high : 0x8000 ≤ address
  · have above : 0x8000 ≤ address.toNat := high
    rw [write, if_pos high, writeRegister, lowest_is_odd]
    obtain ⟨page, here⟩ : ∃ page, address.toNat / 0x2000 = page := ⟨_, rfl⟩
    obtain ⟨half, odd⟩ : ∃ half, address.toNat % 2 = half := ⟨_, rfl⟩
    have least : 4 ≤ page := by omega
    have most : page < 8 := by omega
    have two : half < 2 := by omega
    rw [here, odd]
    clear here odd
    interval_cases page <;> interval_cases half
    · exact .select
    · exact .bank
    · show b.Wrote value 5 0 (if b.fourScreen then b else _)
      split
      · exact .nametables b.mirroring
      · exact .nametables _
    · exact .work _ _
    · exact .latch
    · exact .reload
    · exact .disable
    · exact .enable
  · have low : address.toNat < 0x8000 := Nat.lt_of_not_le high
    rw [write, if_neg high]
    split
    · exact .below (by omega) _ _
    · exact .below (by omega) _ b.banks.workRam

/-- The same, with what the event tells of the registers. -/
theorem happen_write (b : Mmc3) (address : UInt16) (value : UInt8) :
    ∃ page half, b.Wrote value page half (b.happen (.write address value)) ∧
      ∀ register, (BoardEvent.write address value).written? register =
        if page = register / 0x2000 ∧ half = register % 2 then some value else none :=
  ⟨_, _, b.write_wrote address value, fun _ => rfl⟩

end Mmc3

/-! ## Boards with a past -/

namespace Board

theorem happen_mmc1 (b : Mmc1) (e : BoardEvent) : (mmc1 b).happen e = mmc1 (b.happen e) := by
  cases e <;> rfl

theorem happen_mmc3 (b : Mmc3) (e : BoardEvent) : (mmc3 b).happen e = mmc3 (b.happen e) := by
  cases e <;> rfl

@[simp] theorem aged_mmc1 (b : Mmc1) (past : Past) : (mmc1 b).aged past = mmc1 (b.aged past) := by
  induction past with
  | nil => rfl
  | cons e before ih => rw [aged, ih, happen_mmc1, Mmc1.aged_cons]

@[simp] theorem aged_mmc3 (b : Mmc3) (past : Past) : (mmc3 b).aged past = mmc3 (b.aged past) := by
  induction past with
  | nil => rfl
  | cons e before ih => rw [aged, ih, happen_mmc3, Mmc3.aged_cons]

/-- An event is a change of the board, if it does anything. -/
theorem happen_course (b : Board) (e : BoardEvent) : b.Course (b.happen e) := by
  cases e with
  | read => exact .refl
  | write address value => exact .single (.write b address value)
  | writeChr address value => exact .single (.writeChr b address value)
  | writeWork cell value => exact .single (.writeWork b cell value)
  | observe address => exact .single (.observe b address)
  | clock => exact .single (.clock b)
  | reset => exact .single (.reset b)

theorem aged_course (b : Board) (past : Past) : b.Course (b.aged past) := by
  induction past with
  | nil => exact .refl
  | cons e before ih => exact ih.trans (happen_course _ e)

/-- Wherever a board has gone, a past tells how. -/
theorem Course.past {b c : Board} (course : b.Course c) : ∃ past, c = b.aged past := by
  induction course with
  | refl => exact ⟨[], rfl⟩
  | tail _ change ih =>
    obtain ⟨before, rfl⟩ := ih
    cases change with
    | write address value => exact ⟨.write address value :: before, rfl⟩
    | writeChr address value => exact ⟨.writeChr address value :: before, rfl⟩
    | writeWork cell value => exact ⟨.writeWork cell value :: before, rfl⟩
    | observe address => exact ⟨.observe address :: before, rfl⟩
    | clock => exact ⟨.clock :: before, rfl⟩
    | reset => exact ⟨.reset :: before, rfl⟩

end Board

end Famiclone
