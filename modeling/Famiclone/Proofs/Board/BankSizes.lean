import Famiclone.Proofs.Board.MemoryMap
import Mathlib.Data.Int.ModEq

/-!
# Banks of several sizes

Boards switch the same windows in banks of several sizes. Each size takes the number of a bank modulo its
own count, so it is not plain that a large switch moves the windows where small ones would. It does if the
memory repeats evenly: then a window shows the place that the number and the size of the bank tell, counted
around the end of the memory, and in this all sizes agree.
-/
namespace Famiclone

/-! ## Places around the end of a memory -/

/-- The memory consists of whole banks, or a bank of whole memories. -/
def RepeatsEvenly (bank total : Nat) : Prop := bank ∣ total ∨ total ∣ bank

/-- In a memory of whole banks the number of the bank counts around its end, and in a smaller one it does
not matter. -/
theorem bankPlace_modEq {size total count : Nat} (bank : Int) (piece : Nat) (some : 0 < total)
    (even : RepeatsEvenly (size * count) total) :
    bankPlace size total count bank piece ≡
      bank * (size * count : Nat) + (piece * size : Nat) [ZMOD total] := by
  have pos : (bankCount size total count : Int) ≠ 0 :=
    Int.natCast_ne_zero.mpr (bankCount_pos size total count).ne'
  have base : bank % (bankCount size total count : Int) * (size * count : Nat) ≡
      bank * (size * count : Nat) [ZMOD total] := by
    obtain whole | ⟨times, repeats⟩ := even
    · have large : size * count ≤ total := Nat.le_of_dvd some whole
      have first : 0 < size * count := Nat.pos_of_dvd_of_pos whole some
      have banks : (total : Int) = (bankCount size total count : Int) * (size * count : Nat) := by
        rw [bankCount_of_le first large, ← Nat.cast_mul, Nat.div_mul_cancel whole]
      rw [banks]
      exact (Int.mod_modEq bank _).mul_right'
    · have none (number : Int) : number * (size * count : Nat) ≡ 0 [ZMOD total] := by
        rw [Int.modEq_zero_iff_dvd, repeats]
        exact Dvd.dvd.mul_left (Int.natCast_dvd_natCast.mpr (Nat.dvd_mul_right total times)) number
      exact (none _).trans (none bank).symm
  have place : (bankPlace size total count bank piece : Int) =
      (bank % (bankCount size total count : Int) * (size * count : Nat) + (piece * size : Nat)) %
        (total : Int) := by
    rw [bankPlace, Int.natCast_mod, Nat.cast_add, Nat.cast_mul,
      Int.toNat_of_nonneg (Int.emod_nonneg bank pos)]
  rw [place]
  exact (Int.mod_modEq _ _).trans (base.add_right _)

/-- A piece of a large bank is a piece of the small bank that stands there. -/
theorem bankPlace_part {size total count parts : Nat} (bank : Int) (piece : Nat) (some : 0 < total)
    (large : RepeatsEvenly (size * (parts * count)) total)
    (small : RepeatsEvenly (size * count) total) :
    bankPlace size total (parts * count) bank piece =
      bankPlace size total count (parts * bank + (piece / count : Nat)) (piece % count) := by
  have same : bank * (size * (parts * count) : Nat) + (piece * size : Nat) =
      (parts * bank + (piece / count : Nat)) * (size * count : Nat) +
        (piece % count * size : Nat) := by
    have split : (piece : Int) = count * (piece / count : Nat) + (piece % count : Nat) := by
      exact_mod_cast (Nat.div_add_mod piece count).symm
    push_cast at split ⊢
    linear_combination (size : Int) * split
  have congruent : (bankPlace size total (parts * count) bank piece : Int) ≡
      bankPlace size total count (parts * bank + (piece / count : Nat)) (piece % count)
        [ZMOD total] := by
    refine (bankPlace_modEq bank piece some large).trans ?_
    rw [same]
    exact (bankPlace_modEq _ _ some small).symm
  have modEq := Int.natCast_modEq_iff.mp congruent
  exact Nat.ModEq.eq_of_lt_of_lt modEq (Nat.mod_lt _ some) (Nat.mod_lt _ some)

-- In a memory of one bank and a half the sizes do not agree.
example : bankPlace 0x2000 0xC000 4 1 0 = 0 ∧ bankPlace 0x2000 0xC000 2 2 0 = 0x8000 := by decide

/-! ## Rows of switches -/

variable {n : Nat}

/-- A switch into one of the groups of windows of the size of the bank. -/
theorem selectGroup_get (windows : Vector Nat n) {size total count : Nat} (group : Nat) (bank : Int)
    (some : total ≠ 0) (pos : 0 < count) (i : Fin n) :
    (selectWindows windows size total (group * count) count bank).get i =
      if i.val / count = group then bankPlace size total count bank (i.val % count)
      else windows.get i := by
  have inside : group * count ≤ i.val ∧ i.val < group * count + count ↔ i.val / count = group := by
    rw [← Nat.succ_mul, ← Nat.le_div_iff_mul_le pos, ← Nat.div_lt_iff_lt_mul pos]
    omega
  rw [selectWindows_get _ _ some]
  by_cases here : i.val / count = group
  · have piece : i.val - group * count = i.val % count := by
      rw [← here, Nat.mul_comm, ← Nat.mod_eq_sub_mul_div]
    rw [if_pos (inside.mpr here), if_pos here, piece]
  · rw [if_neg (inside.not.mpr here), if_neg here]

/-- Of the number of a bank only the remainder counts. -/
theorem selectWindows_congr (windows : Vector Nat n) {size total count : Nat} (first : Nat) {a b : Int}
    (same : a % (bankCount size total count : Int) = b % (bankCount size total count : Int)) :
    selectWindows windows size total first count a =
      selectWindows windows size total first count b := by
  unfold bankCount at same
  simp only [selectWindows, same]

/-- Switches in a row, each into the windows behind those of the one before. -/
theorem selectRow_get (windows : Vector Nat n) {size total count : Nat} (first : Int)
    (some : total ≠ 0) (pos : 0 < count) (parts : Nat) (i : Fin n) :
    ((List.range parts).foldl (fun w part =>
      selectWindows w size total (part * count) count (first + part)) windows).get i =
      if i.val / count < parts then
        bankPlace size total count (first + (i.val / count : Nat)) (i.val % count)
      else windows.get i := by
  induction parts with
  | zero => rfl
  | succ parts ih =>
    rw [List.range_succ, List.foldl_append, List.foldl_cons, List.foldl_nil,
      selectGroup_get _ _ _ some pos, ih]
    by_cases here : i.val / count = parts
    · rw [if_pos here, if_pos (by omega), here]
    · rw [if_neg here]
      exact if_congr (by omega) rfl rfl

/-- A large switch is a row of small ones. -/
theorem selectWindows_eq_row (windows : Vector Nat n) {size total count parts : Nat} (bank : Int)
    (some : 0 < total) (pos : 0 < count) (large : RepeatsEvenly (size * (parts * count)) total)
    (small : RepeatsEvenly (size * count) total) :
    selectWindows windows size total 0 (parts * count) bank =
      (List.range parts).foldl (fun w part =>
        selectWindows w size total (part * count) count (parts * bank + part)) windows := by
  rw [windows_eq_iff]
  intro i
  rw [selectWindows_get _ _ some.ne', selectRow_get _ _ some.ne' pos, Nat.sub_zero,
    bankPlace_part bank i.val some large small]
  refine if_congr ?_ rfl rfl
  rw [Nat.zero_add, Nat.div_lt_iff_lt_mul pos]
  exact and_iff_right (Nat.zero_le _)

namespace Banks

/-- Select banks with numbers in a row, each into the windows behind those of the one before. -/
def row (select : Banks → Nat → Int → Banks) (parts : Nat) (first : Int) (m : Banks) : Banks :=
  (List.range parts).foldl (fun m part => select m part (first + part)) m

example (m : Banks) (first : Int) :
    m.row setPrg16 2 first = (m.setPrg16 0 (first + 0)).setPrg16 1 (first + 1) := rfl

def switchPrg (m : Banks) (first count : Nat) (bank : Int) : Banks :=
  { m with prgWindows := selectWindows m.prgWindows prgWindow m.prg.size first count bank }

def switchChr (m : Banks) (first count : Nat) (bank : Int) : Banks :=
  { m with chrWindows := selectWindows m.chrWindows chrWindow m.chr.size first count bank }

theorem foldl_switchPrg (m : Banks) (count : Nat) (first : Int) (parts : List Nat) :
    parts.foldl (fun m part => m.switchPrg (part * count) count (first + part)) m =
      { m with
        prgWindows := parts.foldl (fun w part =>
          selectWindows w prgWindow m.prg.size (part * count) count (first + part)) m.prgWindows } :=
  List.foldl_hom (fun prgWindows => { m with prgWindows }) fun _ _ => rfl

theorem foldl_switchChr (m : Banks) (count : Nat) (first : Int) (parts : List Nat) :
    parts.foldl (fun m part => m.switchChr (part * count) count (first + part)) m =
      { m with
        chrWindows := parts.foldl (fun w part =>
          selectWindows w chrWindow m.chr.size (part * count) count (first + part)) m.chrWindows } :=
  List.foldl_hom (fun chrWindows => { m with chrWindows }) fun _ _ => rfl

theorem switchPrg_eq_row (m : Banks) (parts count : Nat) (bank : Int) (some : 0 < m.prg.size)
    (pos : 0 < count) (large : RepeatsEvenly (prgWindow * (parts * count)) m.prg.size)
    (small : RepeatsEvenly (prgWindow * count) m.prg.size) :
    m.switchPrg 0 (parts * count) bank =
      m.row (fun m part => m.switchPrg (part * count) count) parts (parts * bank) := by
  rw [row, foldl_switchPrg, ← selectWindows_eq_row _ bank some pos large small]
  rfl

theorem switchChr_eq_row (m : Banks) (parts count : Nat) (bank : Int) (some : 0 < m.chr.size)
    (pos : 0 < count) (large : RepeatsEvenly (chrWindow * (parts * count)) m.chr.size)
    (small : RepeatsEvenly (chrWindow * count) m.chr.size) :
    m.switchChr 0 (parts * count) bank =
      m.row (fun m part => m.switchChr (part * count) count) parts (parts * bank) := by
  rw [row, foldl_switchChr, ← selectWindows_eq_row _ bank some pos large small]
  rfl

/-- A program of whole banks of 32 KiB, or of one or two windows. -/
def EvenProgram (total : Nat) : Prop := 0 < total ∧ 0x8000 ∣ total ∨ total = 0x2000 ∨ total = 0x4000

/-- A pattern memory of whole banks of 8 KiB, or of one, two or four windows. -/
def EvenPatterns (total : Nat) : Prop :=
  0 < total ∧ 0x2000 ∣ total ∨ total = 0x400 ∨ total = 0x800 ∨ total = 0x1000

theorem EvenProgram.repeatsEvenly {total : Nat} (even : EvenProgram total) :
    0 < total ∧ ∀ count ∈ [1, 2, 4], RepeatsEvenly (prgWindow * count) total := by
  rcases even with ⟨some, whole⟩ | rfl | rfl
  · refine ⟨some, fun count sized => .inl (Nat.dvd_trans ?_ whole)⟩
    revert count
    decide
  · unfold RepeatsEvenly
    decide
  · unfold RepeatsEvenly
    decide

theorem EvenPatterns.repeatsEvenly {total : Nat} (even : EvenPatterns total) :
    0 < total ∧ ∀ count ∈ [1, 2, 4, 8], RepeatsEvenly (chrWindow * count) total := by
  rcases even with ⟨some, whole⟩ | rfl | rfl | rfl
  · refine ⟨some, fun count sized => .inl (Nat.dvd_trans ?_ whole)⟩
    revert count
    decide
  · unfold RepeatsEvenly
    decide
  · unfold RepeatsEvenly
    decide
  · unfold RepeatsEvenly
    decide

/-- A bank of 32 KiB is two of 16 KiB, and four of 8 KiB. -/
theorem setPrg32_eq_row (m : Banks) (even : EvenProgram m.prg.size) (bank : Int) :
    m.setPrg32 bank = m.row setPrg16 2 (2 * bank) ∧ m.setPrg32 bank = m.row setPrg8 4 (4 * bank) := by
  obtain ⟨some, fits⟩ := even.repeatsEvenly
  have halves := m.switchPrg_eq_row 2 2 bank some (by decide)
    (fits 4 (by decide)) (fits 2 (by decide))
  have single := m.switchPrg_eq_row 4 1 bank some (by decide)
    (fits 4 (by decide)) (fits 1 (by decide))
  simp only [Nat.mul_one] at single
  exact ⟨halves, single⟩

/-- A bank of 8 KiB is two of 4 KiB, four of 2 KiB and eight of 1 KiB. -/
theorem setChr8_eq_row (m : Banks) (even : EvenPatterns m.chr.size) (bank : Int) :
    m.setChr8 bank = m.row setChr4 2 (2 * bank) ∧ m.setChr8 bank = m.row setChr2 4 (4 * bank) ∧
      m.setChr8 bank = m.row setChr1 8 (8 * bank) := by
  obtain ⟨some, fits⟩ := even.repeatsEvenly
  have halves := m.switchChr_eq_row 2 4 bank some (by decide)
    (fits 8 (by decide)) (fits 4 (by decide))
  have quarters := m.switchChr_eq_row 4 2 bank some (by decide)
    (fits 8 (by decide)) (fits 2 (by decide))
  have single := m.switchChr_eq_row 8 1 bank some (by decide)
    (fits 8 (by decide)) (fits 1 (by decide))
  simp only [Nat.mul_one] at single
  exact ⟨halves, quarters, single⟩

/-! ## Windows of both memories -/

/-- A window onto the program or the pattern memory. -/
inductive Window where
  | prg (i : Fin 4)
  | chr (i : Fin 8)

def Window.index : Window → Nat
  | prg i => i
  | chr i => i

/-- The place that a window shows. -/
def place (m : Banks) : Window → Nat
  | .prg i => m.prgWindows.get i
  | .chr i => m.chrWindows.get i

/-- A bank switch: the size of the bank, and the windows that it goes into. -/
inductive Switch where
  | prg8 (slot : Fin 4)
  | prg16 (half : Fin 2)
  | prg32
  | chr1 (slot : Fin 8)
  | chr2 (quarter : Fin 4)
  | chr4 (half : Fin 2)
  | chr8

namespace Switch

def select (m : Banks) : Switch → Int → Banks
  | prg8 slot => m.setPrg8 slot
  | prg16 half => m.setPrg16 half
  | prg32 => m.setPrg32
  | chr1 slot => m.setChr1 slot
  | chr2 quarter => m.setChr2 quarter
  | chr4 half => m.setChr4 half
  | chr8 => m.setChr8

/-- The windows that a switch moves. -/
def moves : Switch → Window → Bool
  | prg8 slot, .prg i => i = slot
  | prg16 half, .prg i => i.val / 2 = half
  | prg32, .prg _ => true
  | chr1 slot, .chr i => i = slot
  | chr2 quarter, .chr i => i.val / 2 = quarter
  | chr4 half, .chr i => i.val / 4 = half
  | chr8, .chr _ => true
  | _, _ => false

def count : Switch → Nat
  | prg8 _ | chr1 _ => 1
  | prg16 _ | chr2 _ => 2
  | prg32 | chr4 _ => 4
  | chr8 => 8

def window : Switch → Nat
  | prg8 _ | prg16 _ | prg32 => prgWindow
  | chr1 _ | chr2 _ | chr4 _ | chr8 => chrWindow

def total (m : Banks) : Switch → Nat
  | prg8 _ | prg16 _ | prg32 => m.prg.size
  | chr1 _ | chr2 _ | chr4 _ | chr8 => m.chr.size

def size (s : Switch) : Nat := s.window * s.count

theorem count_pos (s : Switch) : 0 < s.count := by cases s <;> simp [count]

theorem window_pos (s : Switch) : 0 < s.window := by cases s <;> simp [window, prgWindow, chrWindow]

theorem size_pos (s : Switch) : 0 < s.size := Nat.mul_pos s.window_pos s.count_pos

/-- How many banks there are. A memory smaller than a bank counts as one. -/
def banks (m : Banks) (s : Switch) : Nat := max (s.total m / s.size) 1

theorem switchPrg_place (m : Banks) (group : Nat) {count : Nat} (bank : Int) (pos : 0 < count)
    (i : Fin 4) : (m.switchPrg (group * count) count bank).place (.prg i) =
      if i.val / count = group ∧ m.prg.size ≠ 0 then
        bankPlace prgWindow m.prg.size count bank (i.val % count)
      else m.place (.prg i) := by
  by_cases some : m.prg.size = 0
  · simp [switchPrg, place, selectWindows, some]
  · simpa [switchPrg, place, some] using selectGroup_get m.prgWindows group bank some pos i

theorem switchChr_place (m : Banks) (group : Nat) {count : Nat} (bank : Int) (pos : 0 < count)
    (i : Fin 8) : (m.switchChr (group * count) count bank).place (.chr i) =
      if i.val / count = group ∧ m.chr.size ≠ 0 then
        bankPlace chrWindow m.chr.size count bank (i.val % count)
      else m.place (.chr i) := by
  by_cases some : m.chr.size = 0
  · simp [switchChr, place, selectWindows, some]
  · simpa [switchChr, place, some] using selectGroup_get m.chrWindows group bank some pos i

/-- A switch shows the pieces of the bank in the windows that it moves, and leaves the others. -/
theorem select_place (m : Banks) (s : Switch) (bank : Int) (w : Window) :
    (s.select m bank).place w =
      if s.moves w ∧ s.total m ≠ 0 then
        bankPlace s.window (s.total m) s.count bank (w.index % s.count)
      else m.place w := by
  cases s with
  | prg8 slot =>
    cases w with
    | chr i => rfl
    | prg i =>
      have shown := switchPrg_place m slot bank Nat.one_pos i
      rw [Nat.mul_one] at shown
      exact shown.trans (if_congr (by simp [moves, total, Fin.ext_iff]) rfl rfl)
  | prg16 half =>
    cases w with
    | chr i => rfl
    | prg i =>
      exact (switchPrg_place m half bank Nat.two_pos i).trans
        (if_congr (by simp [moves, total]) rfl rfl)
  | prg32 =>
    cases w with
    | chr i => rfl
    | prg i =>
      exact (switchPrg_place m 0 bank (Nat.succ_pos 3) i).trans
        (if_congr (by simp [moves, total]) rfl rfl)
  | chr1 slot =>
    cases w with
    | prg i => rfl
    | chr i =>
      have shown := switchChr_place m slot bank Nat.one_pos i
      rw [Nat.mul_one] at shown
      exact shown.trans (if_congr (by simp [moves, total, Fin.ext_iff]) rfl rfl)
  | chr2 quarter =>
    cases w with
    | prg i => rfl
    | chr i =>
      exact (switchChr_place m quarter bank Nat.two_pos i).trans
        (if_congr (by simp [moves, total]) rfl rfl)
  | chr4 half =>
    cases w with
    | prg i => rfl
    | chr i =>
      exact (switchChr_place m half bank (Nat.succ_pos 3) i).trans
        (if_congr (by simp [moves, total]) rfl rfl)
  | chr8 =>
    cases w with
    | prg i => rfl
    | chr i =>
      exact (switchChr_place m 0 bank (Nat.succ_pos 7) i).trans
        (if_congr (by simp [moves, total]) rfl rfl)

theorem select_congr (m : Banks) (s : Switch) {a b : Int}
    (same : a % (s.banks m : Int) = b % (s.banks m : Int)) : s.select m a = s.select m b := by
  cases s with
  | prg8 | prg16 | prg32 =>
    exact congrArg (fun prgWindows => { m with prgWindows }) (selectWindows_congr _ _ same)
  | chr1 | chr2 | chr4 | chr8 =>
    exact congrArg (fun chrWindows => { m with chrWindows }) (selectWindows_congr _ _ same)

/-- Negative numbers count the banks from the end. -/
theorem select_neg (m : Banks) (s : Switch) {back : Nat} (few : back ≤ s.banks m) :
    s.select m (-back) = s.select m (s.banks m - back : Nat) := by
  refine s.select_congr m ?_
  rw [Nat.cast_sub few, sub_eq_neg_add, Int.add_emod_right]

/-- A memory of whole banks ends with the first one from the end. -/
theorem select_neg_place (m : Banks) (s : Switch) {back : Nat} (first : 1 ≤ back)
    (few : back ≤ s.banks m) (whole : s.size ∣ s.total m) {w : Window} (moved : s.moves w)
    (some : s.total m ≠ 0) :
    (s.select m (-back)).place w =
      s.total m - back * s.size + w.index % s.count * s.window := by
  obtain ⟨banks, total⟩ := whole
  have size : s.size * banks = banks * (s.window * s.count) := Nat.mul_comm _ _
  have here : 0 < banks := Nat.pos_of_ne_zero (by rintro rfl; exact some total)
  have counted : s.banks m = banks := by
    rw [Switch.banks, total, Nat.mul_div_cancel_left _ s.size_pos, Nat.max_eq_left here]
  have below : banks - back < banks := Nat.sub_lt here first
  rw [s.select_neg m few, select_place, if_pos ⟨moved, some⟩, counted, total, size,
    bankPlace_natCast _ s.window_pos (Nat.mod_lt _ s.count_pos) here, Nat.mod_eq_of_lt below, Nat.sub_mul]
  rfl

end Switch

/-- All sizes of banks agree. A large switch is a row of small ones, if the memory consists of the largest
banks or is a few windows; no switch moves windows that it is not for; and negative numbers count the banks
from the end. -/
theorem switches_agree (m : Banks) :
    (EvenProgram m.prg.size → ∀ bank : Int,
      m.setPrg32 bank = m.row setPrg16 2 (2 * bank) ∧ m.setPrg32 bank = m.row setPrg8 4 (4 * bank)) ∧
    (EvenPatterns m.chr.size → ∀ bank : Int,
      m.setChr8 bank = m.row setChr4 2 (2 * bank) ∧ m.setChr8 bank = m.row setChr2 4 (4 * bank) ∧
        m.setChr8 bank = m.row setChr1 8 (8 * bank)) ∧
    ∀ s : Switch,
      (∀ bank w, s.moves w = false → (s.select m bank).place w = m.place w) ∧
      ∀ back : Nat, 1 ≤ back → back ≤ s.banks m →
        s.select m (-back) = s.select m (s.banks m - back : Nat) ∧
          (s.size ∣ s.total m → s.total m ≠ 0 → ∀ w, s.moves w → (s.select m (-back)).place w =
            s.total m - back * s.size + w.index % s.count * s.window) := by
  refine ⟨m.setPrg32_eq_row, m.setChr8_eq_row, fun s => ⟨fun bank w still => ?_, fun back first few =>
    ⟨s.select_neg m few, fun whole some w moved => s.select_neg_place m first few whole moved some⟩⟩⟩
  rw [s.select_place, still, if_neg (fun both => Bool.false_ne_true both.1)]

/-- Memories of two windows each. -/
def twoWindows : Banks where
  prg := Array.replicate 0x4000 0
  chr := Array.replicate 0x800 0
  chrWritable := false
  workRam := #[]
  battery := false
  prgWindows := Vector.replicate 4 0
  chrWindows := Vector.replicate 8 0

/-- In memories that are smaller than a large bank, and repeat in it, the sizes agree as well. -/
theorem two_windows_agree :
    EvenProgram twoWindows.prg.size ∧ EvenPatterns twoWindows.chr.size ∧
      twoWindows.setPrg32 (-3) = twoWindows.row setPrg16 2 (-6) ∧
      twoWindows.setChr8 5 = twoWindows.row setChr1 8 40 ∧
      ((Switch.prg8 3).select twoWindows (-2)).place (.chr 3) = twoWindows.place (.chr 3) ∧
      ((Switch.prg8 3).select twoWindows (-1)).place (.prg 3) = 0x2000 := by
  have prg : twoWindows.prg.size = 0x4000 := Array.size_replicate
  have chr : twoWindows.chr.size = 0x800 := Array.size_replicate
  have even : EvenProgram twoWindows.prg.size := .inr (.inr prg)
  have even' : EvenPatterns twoWindows.chr.size := .inr (.inr (.inl chr))
  obtain ⟨program, patterns, switches⟩ := switches_agree twoWindows
  obtain ⟨still, fromEnd⟩ := switches (.prg8 3)
  have total : (Switch.prg8 3).total twoWindows = 0x4000 := prg
  have counted : (Switch.prg8 3).banks twoWindows = 2 := by
    rw [Switch.banks, total]
    rfl
  obtain ⟨-, last⟩ := fromEnd 1 (Nat.le_refl 1) (by rw [counted]; decide)
  refine ⟨even, even', (program even (-3)).1, (patterns even' 5).2.2, still (-2) (.chr 3) rfl, ?_⟩
  rw [total] at last
  exact last (by decide) (by decide) (.prg 3) rfl

end Banks

end Famiclone
