import Famiclone.Cells

/-!
# Checked numbers

The console computes in bytes and words and finds its cells by computed places. The definitions make that
harmless: numbers do not end, places are taken modulo the number of cells. Here are the operations of
the same computations with checks. A sum that does not fit its width, a difference below zero, a shift
by too much and a place outside of the cells give nothing.
-/
namespace Famiclone.Checked

def byte? (n : Nat) : Option Nat := if n < 0x100 then some n else none

def word? (n : Nat) : Option Nat := if n < 0x10000 then some n else none

def long? (n : Nat) : Option Nat := if n < 0x100000000 then some n else none

def minus? (m n : Nat) : Option Nat := if n ≤ m then some (m - n) else none

/-- A shift to the right in a register of some bits. -/
def shift? (bits m n : Nat) : Option Nat := if n < bits then some (m >>> n) else none

def below? (bound n : Nat) : Option (Fin bound) := if h : n < bound then some ⟨n, h⟩ else none

theorem byte?_eq {n : Nat} (h : n < 0x100) : byte? n = some n := if_pos h

theorem word?_eq {n : Nat} (h : n < 0x10000) : word? n = some n := if_pos h

theorem long?_eq {n : Nat} (h : n < 0x100000000) : long? n = some n := if_pos h

theorem minus?_eq {m n : Nat} (h : n ≤ m) : minus? m n = some (m - n) := if_pos h

theorem shift?_eq {bits m n : Nat} (h : n < bits) : shift? bits m n = some (m >>> n) := if_pos h

theorem below?_eq {bound n : Nat} (h : n < bound) : below? bound n = some ⟨n, h⟩ := dif_pos h

theorem getElem?_fin {α : Type} {size : Nat} (cells : Vector α size) {place : Nat} {i : Fin size}
    (h : place = i.val) : cells[place]? = some (cells.get i) := by
  subst h
  exact Vector.getElem?_eq_getElem i.isLt

end Famiclone.Checked
