import Famiclone.Board.Mmc3
import Mathlib.Data.Nat.Bitwise
import Mathlib.Tactic

/-!
# The filter of the scanline counter

The counter of the MMC3 is clocked by rises of an address line. Which of them count depends only on
the level of the line and on the cycles for which it has been low, of which there is no need to know
more than that there were enough. So the filter has eight states, whatever else the board does.
-/
namespace Famiclone

def line12 (address : UInt16) : Bool := address.toNat.testBit 12

theorem line12_eq (address : UInt16) : (address &&& 0x1000 != 0) = line12 address := by
  have value : (address &&& 0x1000).toNat = (address.toNat.testBit 12).toNat * 2 ^ 12 := by
    rw [UInt16.toNat_and]
    exact Nat.and_two_pow _ 12
  have zero : (address &&& 0x1000 = 0) ↔ line12 address = false := by
    rw [← UInt16.toNat_inj, value]
    unfold line12
    cases address.toNat.testBit 12 <;> decide
  cases high : line12 address with
  | false => exact bne_eq_false_iff_eq.mpr (zero.mpr high)
  | true =>
    refine bne_iff_ne.mpr fun eq => ?_
    rw [zero.mp eq] at high
    contradiction

/-- What decides whether the next rise counts. -/
structure RiseFilter where
  level : Bool
  /-- Cycles for which the line has been low, as far as they matter. -/
  low : Fin 4
  deriving DecidableEq

namespace RiseFilter

/-- Whether the line rises and the rise counts. -/
def counts (w : RiseFilter) (high : Bool) : Bool := high && !w.level && w.low == 3

def hear (w : RiseFilter) (high : Bool) : RiseFilter :=
  if high then { w with level := true } else if w.level then ⟨false, 0⟩ else w

def clock (w : RiseFilter) : RiseFilter :=
  if w.level then w else { w with low := if w.low = 3 then 3 else w.low + 1 }

def tally (w : RiseFilter) : List Bool → Nat
  | [] => 0
  | high :: rest => (w.counts high).toNat + (w.hear high).tally rest

end RiseFilter

/-- A number of cycles, as far as it matters. -/
def lowOf (cycles : Nat) : Fin 4 := .ofNat 4 (min cycles a12LowCycles)

theorem lowOf_eq_three (cycles : Nat) : lowOf cycles = 3 ↔ a12LowCycles ≤ cycles := by
  rw [Fin.ext_iff]
  show min cycles 3 % 4 = 3 ↔ 3 ≤ cycles
  omega

theorem lowOf_succ (cycles : Nat) :
    lowOf (cycles + 1) = if lowOf cycles = 3 then 3 else lowOf cycles + 1 := by
  by_cases enough : a12LowCycles ≤ cycles
  · rw [if_pos ((lowOf_eq_three cycles).mpr enough), lowOf_eq_three]
    omega
  · have few : cycles < 3 := Nat.lt_of_not_le enough
    rw [if_neg ((lowOf_eq_three cycles).not.mpr enough)]
    interval_cases cycles <;> decide

/-- The counter of a board stops far above what matters. -/
theorem lowOf_advance (cycles : Counter 255) (count : Nat) :
    lowOf (cycles.advance count).val = lowOf (cycles.val + count) := by
  have within : a12LowCycles ≤ 255 := by decide
  unfold lowOf
  rw [Counter.val_advance, Nat.min_assoc, Nat.min_eq_right within]

namespace Mmc3

/-- What the filter of a board knows. -/
def filter (b : Mmc3) : RiseFilter := ⟨b.a12, lowOf b.lowCycles.val⟩

/-- Whether an address clocks the counter: `observe_of_counts` and `observe_of_not_counts`. -/
def countsAt (b : Mmc3) (address : UInt16) : Bool := b.filter.counts (line12 address)

theorem countsAt_iff (b : Mmc3) (address : UInt16) : b.countsAt address = true ↔
    line12 address = true ∧ b.a12 = false ∧ a12LowCycles ≤ b.lowCycles.val := by
  unfold countsAt RiseFilter.counts filter
  rw [Bool.and_eq_true, Bool.and_eq_true, Bool.not_eq_true', beq_iff_eq, lowOf_eq_three, and_assoc]

theorem observe_of_rise (b : Mmc3) (address : UInt16) (high : line12 address = true)
    (level : b.a12 = false) : b.observe address =
      { (if a12LowCycles ≤ b.lowCycles.val then b.countRise else b) with a12 := true } := by
  unfold observe
  simp only [line12_eq, high, level, Bool.not_false, Bool.and_self, if_true]

theorem observe_of_fall (b : Mmc3) (address : UInt16) (low : line12 address = false)
    (level : b.a12 = true) :
    b.observe address = { b with a12 := false, lowCycles := 0 } := by
  unfold observe
  simp only [line12_eq, low, level, Bool.not_true, Bool.not_false, Bool.and_self, if_true,
    Bool.false_eq_true, if_false]

theorem observe_of_same (b : Mmc3) (address : UInt16) (same : line12 address = b.a12) :
    b.observe address = b := by
  unfold observe
  simp only [line12_eq, same, Bool.and_not_self, Bool.not_and_self, Bool.false_eq_true, if_false]

/-- The counter is clocked by the addresses that count. -/
theorem observe_of_counts (b : Mmc3) (address : UInt16) (h : b.countsAt address = true) :
    b.observe address = { b.countRise with a12 := true } := by
  obtain ⟨high, level, low⟩ := (b.countsAt_iff address).mp h
  rw [b.observe_of_rise address high level, if_pos low]

/-- By the others it is not. -/
theorem observe_of_not_counts (b : Mmc3) (address : UInt16) (h : b.countsAt address = false) :
    ∃ a12 lowCycles, b.observe address = { b with a12, lowCycles } := by
  have counts := (b.countsAt_iff address).not.mp (by rw [h]; exact Bool.false_ne_true)
  cases high : line12 address <;> cases level : b.a12
  · exact ⟨b.a12, b.lowCycles, b.observe_of_same address (by rw [high, level])⟩
  · exact ⟨false, 0, b.observe_of_fall address high level⟩
  · have short : ¬ a12LowCycles ≤ b.lowCycles.val := fun low => counts ⟨high, level, low⟩
    rw [b.observe_of_rise address high level, if_neg short]
    exact ⟨true, b.lowCycles, rfl⟩
  · exact ⟨b.a12, b.lowCycles, b.observe_of_same address (by rw [high, level])⟩

/-- The filter takes the level of each address. -/
theorem observe_filter (b : Mmc3) (address : UInt16) :
    (b.observe address).filter = b.filter.hear (line12 address) := by
  cases high : line12 address <;> cases level : b.a12
  · rw [b.observe_of_same address (by rw [high, level])]
    unfold filter RiseFilter.hear
    simp only [level, Bool.false_eq_true, if_false]
  · rw [b.observe_of_fall address high level]
    unfold filter RiseFilter.hear
    simp only [level, Bool.false_eq_true, if_false, if_true]
    rfl
  · rw [b.observe_of_rise address high level]
    unfold filter RiseFilter.hear
    simp only [if_true]
    split <;> rfl
  · rw [b.observe_of_same address (by rw [high, level])]
    unfold filter RiseFilter.hear
    simp only [level, if_true]

theorem clock_filter (b : Mmc3) : b.clock.filter = b.filter.clock := by
  unfold clock RiseFilter.clock filter
  cases level : b.a12
  · simp only [Bool.false_eq_true, if_false, lowOf_advance, lowOf_succ]
  · simp only [level, if_true]

/-- How many of a row of addresses clock the counter. -/
def tally (b : Mmc3) : List UInt16 → Nat
  | [] => 0
  | address :: rest => (b.countsAt address).toNat + (b.observe address).tally rest

theorem tally_eq (b : Mmc3) (heard : List UInt16) :
    b.tally heard = b.filter.tally (heard.map line12) := by
  induction heard generalizing b with
  | nil => rfl
  | cons address rest ih =>
    rw [List.map_cons, RiseFilter.tally, tally, ih, observe_filter]
    rfl

theorem foldl_observe_filter (b : Mmc3) (heard : List UInt16) :
    (heard.foldl observe b).filter = (heard.map line12).foldl RiseFilter.hear b.filter := by
  induction heard generalizing b with
  | nil => rfl
  | cons address rest ih => rw [List.foldl_cons, ih, observe_filter, List.map_cons, List.foldl_cons]

end Mmc3

end Famiclone
