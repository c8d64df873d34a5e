import Famiclone.Board.Banks
import Mathlib.Tactic

/-!
# Windows and banks

A window shows a piece of a bank, and which bank it is counts modulo the number of banks. So two
windows of the same kind show the same place exactly if their bank numbers have the same remainder.
-/
namespace Famiclone

/-- How many banks of `count` pieces there are; a memory smaller than a bank counts as one. -/
def bankCount (size total count : Nat) : Nat := max (total / (size * count)) 1

/-- The place in memory of a piece of a bank. -/
def bankPlace (size total count : Nat) (bank : Int) (piece : Nat) : Nat :=
  ((bank % (bankCount size total count : Int)).toNat * (size * count) + piece * size) % total

theorem bankCount_pos (size total count : Nat) : 0 < bankCount size total count :=
  Nat.lt_of_lt_of_le Nat.zero_lt_one (Nat.le_max_right _ _)

theorem bankCount_of_le {size total count : Nat} (pos : 0 < size * count)
    (h : size * count ≤ total) : bankCount size total count = total / (size * count) :=
  Nat.max_eq_left (Nat.div_pos h pos)

theorem bankCount_of_lt {size total count : Nat} (h : total < size * count) :
    bankCount size total count = 1 := by
  unfold bankCount
  rw [Nat.div_eq_of_lt h]
  rfl

theorem toNat_emod_lt (bank : Int) {count : Nat} (pos : 0 < count) :
    (bank % (count : Int)).toNat < count := by
  have nonneg := Int.emod_nonneg bank (Int.natCast_ne_zero.mpr (Nat.pos_iff_ne_zero.mp pos))
  have below := Int.emod_lt_of_pos bank (Int.natCast_pos.mpr pos)
  omega

/-- A piece of a bank ends within a memory that is large enough for the bank. -/
theorem piece_lt {size total count : Nat} (bank : Int) {piece : Nat} (hs : 0 < size)
    (hp : piece < count) (large : size * count ≤ total) :
    (bank % (bankCount size total count : Int)).toNat * (size * count) + piece * size < total := by
  have pos : 0 < size * count := Nat.mul_pos hs (by omega)
  have below := toNat_emod_lt bank (bankCount_pos size total count)
  have whole := Nat.div_mul_le_self total (size * count)
  rw [← bankCount_of_le pos large] at whole
  have inner : piece * size < size * count := by
    rw [Nat.mul_comm size count]
    exact Nat.mul_lt_mul_of_pos_right hp hs
  have next := Nat.mul_le_mul_right (size * count) (Nat.succ_le_of_lt below)
  rw [Nat.succ_mul] at next
  omega

theorem bankPlace_of_le {size total count : Nat} (bank : Int) {piece : Nat} (hs : 0 < size)
    (hp : piece < count) (large : size * count ≤ total) :
    bankPlace size total count bank piece =
      (bank % (bankCount size total count : Int)).toNat * (size * count) + piece * size :=
  Nat.mod_eq_of_lt (piece_lt bank hs hp large)

/-- A piece of a bank lies within the memory, so its place tells the bank. -/
theorem bankPlace_eq_iff {size total count : Nat} (a b : Int) {piece : Nat} (hs : 0 < size)
    (hp : piece < count) :
    bankPlace size total count a piece = bankPlace size total count b piece ↔
      a % (bankCount size total count : Int) = b % (bankCount size total count : Int) := by
  have pos : 0 < size * count := Nat.mul_pos hs (by omega)
  by_cases large : size * count ≤ total
  · have some := bankCount_pos size total count
    rw [bankPlace_of_le a hs hp large, bankPlace_of_le b hs hp large]
    have nonneg (bank : Int) := Int.emod_nonneg bank
      (Int.natCast_ne_zero.mpr (Nat.pos_iff_ne_zero.mp some))
    constructor
    · intro same
      have base := Nat.eq_of_mul_eq_mul_right pos (Nat.add_right_cancel same)
      have first := nonneg a
      have second := nonneg b
      omega
    · intro same
      rw [same]
  · unfold bankPlace
    rw [bankCount_of_lt (Nat.lt_of_not_le large)]
    simp only [Nat.cast_one, Int.emod_one]

theorem bankPlace_natCast_eq_iff {size total count : Nat} (a b : Nat) {piece : Nat} (hs : 0 < size)
    (hp : piece < count) :
    bankPlace size total count a piece = bankPlace size total count b piece ↔
      a % bankCount size total count = b % bankCount size total count := by
  rw [bankPlace_eq_iff a b hs hp, ← Int.natCast_mod, ← Int.natCast_mod]
  exact Int.natCast_inj

/-- The first bank starts at the beginning. -/
theorem bankPlace_zero (size total count piece : Nat) :
    bankPlace size total count 0 piece = piece * size % total := by
  unfold bankPlace
  rw [Int.zero_emod, Int.toNat_zero, Nat.zero_mul, Nat.zero_add]

/-- The second bank follows the first, if the memory is large enough or repeats in between. -/
theorem bankPlace_one {size total count : Nat} (piece : Nat)
    (h : 2 * (size * count) ≤ total ∨ total ∣ size * count) :
    bankPlace size total count 1 piece = (count + piece) * size % total := by
  have split : (count + piece) * size = size * count + piece * size := by
    rw [Nat.add_mul, Nat.mul_comm count size]
  rw [split]
  unfold bankPlace
  obtain large | ⟨times, repeats⟩ := h
  · by_cases empty : size * count = 0
    · rw [empty, Nat.mul_zero]
    · have pos := Nat.pos_of_ne_zero empty
      have two : 2 ≤ bankCount size total count := by
        rw [bankCount_of_le pos (by omega)]
        exact (Nat.le_div_iff_mul_le pos).mpr large
      have one : (1 : Int) % (bankCount size total count : Int) = 1 :=
        Int.emod_eq_of_lt (by omega) (by omega)
      rw [one, Int.toNat_one, Nat.one_mul]
  · have remainder (n : Nat) : (n * (size * count) + piece * size) % total =
        piece * size % total := by
      rw [repeats, Nat.mul_left_comm, Nat.mul_add_mod]
    have once := remainder 1
    rw [Nat.one_mul] at once
    rw [once]
    exact remainder _

/-- Counted from the end, the first bank is the last of a memory of whole banks. -/
theorem bankPlace_last {size count banks piece : Nat} (hs : 0 < size) (hp : piece < count)
    (some : 0 < banks) :
    bankPlace size (banks * (size * count)) count (-1) piece =
      (banks - 1) * (size * count) + piece * size := by
  have pos : 0 < size * count := Nat.mul_pos hs (by omega)
  have large : size * count ≤ banks * (size * count) := Nat.le_mul_of_pos_left _ some
  have last : ((-1 : Int) % (banks : Int)).toNat = banks - 1 := by
    rw [← Int.add_emod_right, Int.emod_eq_of_lt (by omega) (by omega)]
    omega
  rw [bankPlace_of_le _ hs hp large, bankCount_of_le pos large, Nat.mul_div_cancel _ pos, last]

/-- Other banks count modulo the number of banks. -/
theorem bankPlace_natCast {size count banks piece : Nat} (bank : Nat) (hs : 0 < size)
    (hp : piece < count) (some : 0 < banks) :
    bankPlace size (banks * (size * count)) count bank piece =
      bank % banks * (size * count) + piece * size := by
  have pos : 0 < size * count := Nat.mul_pos hs (by omega)
  have large : size * count ≤ banks * (size * count) := Nat.le_mul_of_pos_left _ some
  rw [bankPlace_of_le _ hs hp large, bankCount_of_le pos large, Nat.mul_div_cancel _ pos,
    ← Int.natCast_mod, Int.toNat_natCast]

variable {n : Nat}

/-- A bank switch shows the pieces of the bank in its windows and leaves the others. -/
theorem selectWindows_get (windows : Vector Nat n) {size total first count : Nat} (bank : Int)
    (some : total ≠ 0) (i : Fin n) :
    (selectWindows windows size total first count bank).get i =
      if first ≤ i.val ∧ i.val < first + count then
        bankPlace size total count bank (i.val - first)
      else windows.get i := by
  unfold selectWindows
  rw [if_neg some]
  show (Vector.ofFn _)[i.val] = _
  rw [Vector.getElem_ofFn]
  rfl

theorem windows_eq_iff (v w : Vector Nat n) : v = w ↔ ∀ i, v.get i = w.get i := by
  constructor
  · intro same i
    rw [same]
  · intro same
    exact Vector.ext fun i h => same ⟨i, h⟩

/-- A bank switch that moves all windows does not depend on where they were. -/
theorem selectWindows_all (v w : Vector Nat n) {size total count : Nat} (bank : Int)
    (some : total ≠ 0) (all : n ≤ count) :
    selectWindows v size total 0 count bank = selectWindows w size total 0 count bank := by
  rw [windows_eq_iff]
  intro i
  rw [selectWindows_get _ _ some, selectWindows_get _ _ some]
  have inside : 0 ≤ i.val ∧ i.val < 0 + count := ⟨Nat.zero_le _, by omega⟩
  rw [if_pos inside, if_pos inside]

/-! ## Windows within a memory -/

/-- Every window shows a whole piece of a memory. -/
def WithinMemory (windows : Vector Nat n) (size total : Nat) : Prop :=
  ∀ i, size ∣ windows.get i ∧ windows.get i + size ≤ total

/-- A memory of whole pieces is left at the end of a piece only, however many banks are asked for. A
window may consist of several pieces. -/
theorem bankPlace_within {unit size total : Nat} (count : Nat) (bank : Int) (piece : Nat)
    (some : 0 < total) (pieces : unit ∣ size) (whole : unit ∣ total) :
    unit ∣ bankPlace size total count bank piece ∧
      bankPlace size total count bank piece + unit ≤ total := by
  have place : unit ∣ bankPlace size total count bank piece := by
    refine (Nat.dvd_mod_iff whole).mpr (Nat.dvd_add ?_ (pieces.mul_left piece))
    exact Nat.dvd_mul_left_of_dvd (pieces.mul_right count) _
  have below : bankPlace size total count bank piece < total := Nat.mod_lt _ some
  refine ⟨place, ?_⟩
  obtain ⟨all, total_eq⟩ := whole
  obtain ⟨before, place_eq⟩ := place
  rw [place_eq, total_eq] at below
  have next : before + 1 ≤ all := Nat.lt_of_mul_lt_mul_left below
  calc bankPlace size total count bank piece + unit = unit * (before + 1) := by rw [place_eq, Nat.mul_succ]
    _ ≤ unit * all := Nat.mul_le_mul_left unit next
    _ = total := total_eq.symm

theorem WithinMemory.selectWindows {windows : Vector Nat n} {unit size total : Nat}
    (h : WithinMemory windows unit total) (some : 0 < total) (pieces : unit ∣ size)
    (whole : unit ∣ total) (first count : Nat) (bank : Int) :
    WithinMemory (selectWindows windows size total first count bank) unit total := by
  intro i
  rw [selectWindows_get _ _ (Nat.pos_iff_ne_zero.mp some)]
  split
  · exact bankPlace_within count bank _ some pieces whole
  · exact h i

/-- All windows of a memory that is large enough can stand at its start. -/
theorem withinMemory_start {unit total : Nat} (large : unit ≤ total) :
    WithinMemory (Vector.replicate n 0) unit total := by
  intro i
  have zero : (Vector.replicate n 0).get i = 0 := Vector.getElem_replicate _
  rw [zero, Nat.zero_add]
  exact ⟨Nat.dvd_zero _, large⟩

namespace Banks

/-- The program consists of whole windows, and the windows show whole ones of it. -/
structure ShowsWhole (m : Banks) : Prop where
  some : 0 < m.prg.size
  whole : prgWindow ∣ m.prg.size
  windows : WithinMemory m.prgWindows prgWindow m.prg.size

namespace ShowsWhole

variable {m : Banks}

theorem congr {other : Banks} (h : m.ShowsWhole) (prg : other.prg = m.prg)
    (windows : other.prgWindows = m.prgWindows) : other.ShowsWhole := by
  refine ⟨?_, ?_, ?_⟩
  · rw [prg]
    exact h.some
  · rw [prg]
    exact h.whole
  · rw [prg, windows]
    exact h.windows

/-- What shows at an address is a byte of the program, at a place that agrees with the address within
its window. -/
theorem readPrg (h : m.ShowsWhole) (address : UInt16) :
    ∃ place, ∃ inside : place < m.prg.size,
      place % prgWindow = address.toNat % prgWindow ∧ m.readPrg address = m.prg[place] := by
  obtain ⟨⟨windows, start⟩, fits⟩ :=
    h.windows ⟨address.toNat / prgWindow % 4, Nat.mod_lt _ (by decide)⟩
  have rest : address.toNat % prgWindow < prgWindow := Nat.mod_lt _ (by decide)
  have inside : m.prgOffset address < m.prg.size :=
    Nat.lt_of_lt_of_le (Nat.add_lt_add_left rest _) fits
  refine ⟨m.prgOffset address, inside, ?_, ?_⟩
  · show (m.prgWindows.get _ + address.toNat % prgWindow) % prgWindow = _
    rw [start, Nat.mul_add_mod, Nat.mod_mod]
  · exact Array.getD_eq_getD_getElem?.trans (by rw [Array.getElem?_eq_getElem inside]; rfl)

end ShowsWhole

end Banks

end Famiclone
