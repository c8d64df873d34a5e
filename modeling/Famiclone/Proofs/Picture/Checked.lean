import Famiclone.Picture.Registers
import Famiclone.Proofs.Checked
import Famiclone.Proofs.Picture.Events

/-!
# Checked arithmetic in the picture unit

What the picture unit does to its registers and its memory, with checks. Beside sums, differences and
places a value outside of what it stands for gives nothing: an address of fifteen bits, a colour of six.
Operations on single bits cannot fail and are taken over.
-/
namespace Famiclone.Checked

/-! ## Cells -/

def colour? (value : UInt8) : Option UInt8 := if value.toNat < 64 then some value else none

def put? {α : Type} {size : Nat} (cells : Vector α size) (place : Nat) (value : α) :
    Option (Vector α size) := if h : place < size then some (cells.set place value) else none

theorem colour?_eq {value : UInt8} (h : value.toNat < 64) : colour? value = some value := if_pos h

theorem put?_eq {α : Type} {size : Nat} (cells : Vector α size) {place : Nat} (h : place < size)
    (value : α) : put? cells place value = some (cells.set place value) := dif_pos h

/-! ## Positions -/

/-- A word with some bits replaced, `width` of them from bit `low` on. -/
def replaceBits (word low width value : Nat) : Nat :=
  word / 2 ^ (low + width) * 2 ^ (low + width) + value * 2 ^ low + word % 2 ^ low

/-- The position in a word, which has to leave the highest bit clear. -/
def position? (word : Nat) : Option Scroll :=
  if word < 0x8000 then some (.ofNat word) else none

theorem position?_eq {word : Nat} {s : Scroll} (h : word = s.toNat) : position? word = some s := by
  have fits := s.toNat_lt
  rw [← h] at fits
  refine (if_pos fits).trans ?_
  rw [h, Scroll.ofNat_toNat]

section
variable (s t : Scroll)

theorem replaceBits_column (column : Fin 32) :
    replaceBits s.toNat 0 5 column.val = { s with column }.toNat := by
  have old := s.column.isLt
  simp only [replaceBits, Scroll.toNat]
  omega

theorem replaceBits_row (row : Fin 32) :
    replaceBits s.toNat 5 5 row.val = { s with row }.toNat := by
  have column := s.column.isLt
  have old := s.row.isLt
  simp only [replaceBits, Scroll.toNat]
  omega

theorem replaceBits_right (right : Bool) :
    replaceBits s.toNat 10 1 right.toNat = { s with right }.toNat := by
  have column := s.column.isLt
  have row := s.row.isLt
  have old := Bool.toNat_lt s.right
  simp only [replaceBits, Scroll.toNat]
  omega

theorem replaceBits_lower (lower : Bool) :
    replaceBits s.toNat 11 1 lower.toNat = { s with lower }.toNat := by
  have column := s.column.isLt
  have row := s.row.isLt
  have right := Bool.toNat_lt s.right
  have old := Bool.toNat_lt s.lower
  simp only [replaceBits, Scroll.toNat]
  omega

theorem replaceBits_line (line : Fin 8) :
    replaceBits s.toNat 12 3 line.val = { s with line }.toNat := by
  have column := s.column.isLt
  have row := s.row.isLt
  have right := Bool.toNat_lt s.right
  have lower := Bool.toNat_lt s.lower
  have old := s.line.isLt
  simp only [replaceBits, Scroll.toNat]
  omega

def nextTile? : Option Scroll :=
  if s.column = 31 then position? (replaceBits (replaceBits s.toNat 0 5 0) 10 1 (!s.right).toNat)
  else do position? (← word? (s.toNat + 1))

def nextLine? : Option Scroll :=
  if s.line ≠ 7 then do position? (← word? (s.toNat + 0x1000))
  else
    let top := replaceBits s.toNat 12 3 0
    if s.row = 29 then position? (replaceBits (replaceBits top 11 1 (!s.lower).toNat) 5 5 0)
    else if s.row = 31 then position? (replaceBits top 5 5 0)
    else do
      let row ← below? 32 (← word? (s.row.val + 1))
      position? (replaceBits top 5 5 row.val)

def add? (n : Nat) : Option Scroll := position? ((s.toNat + n) % 0x10000 % 0x8000)

def toColumnOf? : Option Scroll :=
  position? (replaceBits (replaceBits s.toNat 0 5 t.column.val) 10 1 t.right.toNat)

def toLineOf? : Option Scroll :=
  position? (replaceBits (replaceBits (replaceBits s.toNat 5 5 t.row.val) 11 1 t.lower.toNat) 12 3
    t.line.val)

theorem nextTile?_eq : nextTile? s = some s.nextTile := by
  unfold nextTile? Scroll.nextTile
  split
  · have last : s.column = 31 := ‹_›
    have cleared : replaceBits s.toNat 0 5 0 = { s with column := 0 }.toNat :=
      replaceBits_column s 0
    rw [cleared, replaceBits_right { s with column := 0 }]
    refine position?_eq ?_
    rw [last]
    rfl
  · have inner : s.column.val < 31 := by
      have bound := s.column.isLt
      have other := Fin.val_ne_of_ne ‹¬ s.column = 31›
      have last : (31 : Fin 32).val = 31 := rfl
      omega
    have next : (s.column + 1).val = s.column.val + 1 := Fin.val_add_one_of_lt inner
    have whole : s.toNat + 1 = { s with column := s.column + 1 }.toNat := by
      simp only [Scroll.toNat, next]
      omega
    have fits := Scroll.toNat_lt { s with column := s.column + 1 }
    rw [word?_eq (by omega), whole]
    exact position?_eq rfl

/-- Within a row of tiles the line is a part of the position that has room for one more. -/
theorem nextLine_toNat (inner : s.line ≠ 7) :
    s.toNat + 0x1000 = { s with line := s.line + 1 }.toNat := by
  have below : s.line.val < 7 := by
    have bound := s.line.isLt
    have other := Fin.val_ne_of_ne inner
    have last : (7 : Fin 8).val = 7 := rfl
    omega
  have next : (s.line + 1).val = s.line.val + 1 := Fin.val_add_one_of_lt below
  simp only [Scroll.toNat, next]
  omega

/-- So is the row, unless it is the last one. -/
theorem nextRow_val (inner : s.row ≠ 31) : (s.row + 1).val = s.row.val + 1 := by
  have bound := s.row.isLt
  have other := Fin.val_ne_of_ne inner
  have last : (31 : Fin 32).val = 31 := rfl
  exact Fin.val_add_one_of_lt (show s.row.val < 31 by omega)

theorem nextLine?_eq : nextLine? s = some s.nextLine := by
  unfold nextLine? Scroll.nextLine
  split
  · have fits := Scroll.toNat_lt { s with line := s.line + 1 }
    have whole := nextLine_toNat s ‹_›
    rw [word?_eq (by omega), whole]
    exact position?_eq rfl
  · have last : s.line = 7 := not_not.mp ‹_›
    have top : replaceBits s.toNat 12 3 0 = { s with line := 0 }.toNat := replaceBits_line s 0
    have first : s.line + 1 = 0 := by
      rw [last]
      rfl
    rw [if_pos last]
    unfold Scroll.nextRow
    dsimp only
    rw [top, first]
    split
    · have cleared := replaceBits_row { s with line := 0, lower := !s.lower } 0
      rw [replaceBits_lower { s with line := 0 }]
      exact position?_eq cleared
    · split
      · have end_eq : s.row + 1 = 0 := by
          rw [‹s.row = 31›]
          rfl
        have cleared := replaceBits_row { s with line := 0 } 0
        rw [end_eq]
        exact position?_eq cleared
      · have next := nextRow_val s ‹_›
        have fits : s.row.val + 1 < 32 := next ▸ (s.row + 1).isLt
        have moved : (⟨s.row.val + 1, fits⟩ : Fin 32) = s.row + 1 := Fin.ext next.symm
        rw [word?_eq (by omega)]
        simp only [Option.bind_eq_bind, Option.bind_some, below?_eq fits, moved]
        rw [replaceBits_row { s with line := 0 }]
        exact position?_eq rfl

theorem add?_eq (n : Nat) : add? s n = some (s.add n) := by
  refine position?_eq ?_
  rw [Scroll.add, Scroll.toNat_ofNat]
  omega

theorem toColumnOf?_eq : toColumnOf? s t = some (s.toColumnOf t) := by
  unfold toColumnOf?
  rw [replaceBits_column, replaceBits_right { s with column := t.column }]
  exact position?_eq rfl

theorem toLineOf?_eq : toLineOf? s t = some (s.toLineOf t) := by
  unfold toLineOf?
  rw [replaceBits_row, replaceBits_lower { s with row := t.row },
    replaceBits_line { s with row := t.row, lower := t.lower }]
  exact position?_eq rfl

end

/-! ## The beam -/

def newLine? (b : Beam) (region : Region) : Option Beam := do
  let line ← word? (b.line + 1)
  if line = screenHeight + 1 then return { b with line, dot := 0, finished := true }
  else if region.preRenderLine < line then
    return { b with line := 0, dot := 0, frame := b.frame + 1, odd := !b.odd }
  else return { b with line, dot := 0 }

def advance? (b : Beam) (region : Region) (rendering : Bool) : Option Beam := do
  let b := { b with elapsed := b.elapsed + 1 }
  let dot ← word? ((if b.skips region rendering then 340 else b.dot) + 1)
  if dot < dotsPerLine then return { b with dot }
  else newLine? b region

theorem preRenderLine_lt (region : Region) : region.preRenderLine < 0x1000 := by
  cases region <;> decide

theorem newLine?_eq {b : Beam} {region : Region} (h : b.InRange region) :
    newLine? b region = some (b.nextLine region) := by
  have line := h.line_le
  have lines := preRenderLine_lt region
  unfold newLine? Beam.nextLine
  rw [word?_eq (by omega)]
  simp only [Option.bind_eq_bind, Option.bind_some]
  by_cases rests : b.line = screenHeight
  · rw [if_pos (by omega), if_pos rests]
    rfl
  · rw [if_neg (by omega), if_neg rests]
    by_cases upper : b.line < region.preRenderLine
    · rw [if_neg (by omega), if_pos upper]
      rfl
    · rw [if_pos (by omega), if_neg upper]
      rfl

theorem advance?_eq {b : Beam} {region : Region} (h : b.InRange region) (rendering : Bool) :
    advance? b region rendering = some (b.advance region rendering) := by
  have dot := h.dot
  have later : { b with elapsed := b.elapsed + 1 }.InRange region := ⟨h.line, h.dot⟩
  unfold dotsPerLine at dot
  unfold advance? Beam.advance
  dsimp only
  split_ifs with skips inner
  · exact newLine?_eq later
  · rw [word?_eq (by omega)]
    exact if_pos inner
  · rw [word?_eq (by omega)]
    exact (if_neg inner).trans (newLine?_eq later)

/-! ## Memory -/

/-- The place of a nametable address in the unit's memory. -/
def nametablePlace (arrangement : Mirroring) (address : Nat) : Nat :=
  let table := address % 0x1000 / 0x400
  let page :=
    match arrangement with
    | .horizontal => table / 2
    | .vertical => table % 2
    | .singleLower => 0
    | .singleUpper => 1
    | .fourScreen => table
  page * 0x400 + address % 0x1000 % 0x400

/-- The place of a palette address. -/
def palettePlace (address : Nat) : Nat :=
  let place := address % 0x20
  if place &&& 0x13 = 0x10 then place &&& 0x0F else place

/-- The palette cells that stand for the first of each four colours of the background. -/
def doubled : List Nat := [0x10, 0x14, 0x18, 0x1C]

/-- Put a colour into the palette. The cells that stand for others are not for use. -/
def paint? (palette : Vector UInt8 32) (place : Nat) (value : UInt8) : Option (Vector UInt8 32) := do
  if place ∈ doubled then none else put? palette place (← colour? value)

theorem nametablePlace_eq (arrangement : Mirroring) (address : Nat) :
    nametablePlace arrangement address = (arrangement.cell address).val := by
  have table : address % 0x1000 / 0x400 = (Fin.ofNat 4 (address / 1024)).val := by
    simp only [Fin.val_ofNat]
    omega
  have rest : address % 0x1000 % 0x400 = address % 1024 := by omega
  unfold nametablePlace Mirroring.cell
  dsimp only
  rw [table, rest]
  congr 2
  generalize Fin.ofNat 4 (address / 1024) = t
  cases arrangement <;> revert t <;> decide

theorem palettePlace_eq (address : Nat) :
    palettePlace address = (VideoMemory.paletteCell address).val := by
  have small : ∀ i : Fin 32, palettePlace i.val = (VideoMemory.paletteCell i.val).val := by decide
  have same : palettePlace address = palettePlace (address % 32) := by
    unfold palettePlace
    rw [Nat.mod_mod]
  have cell : VideoMemory.paletteCell address = VideoMemory.paletteCell (address % 32) := by
    unfold VideoMemory.paletteCell
    refine Fin.ext ?_
    simp only [Fin.val_ofNat]
    split_ifs <;> omega
  rw [same, cell]
  exact small ⟨address % 32, Nat.mod_lt _ (by decide)⟩

theorem palettePlace_not_doubled (address : Nat) : palettePlace address ∉ doubled := by
  have small : ∀ i : Fin 32, palettePlace i.val ∉ doubled := by decide
  have same : palettePlace address = palettePlace (address % 32) := by
    unfold palettePlace
    rw [Nat.mod_mod]
  rw [same]
  exact small ⟨address % 32, Nat.mod_lt _ (by decide)⟩

/-- A byte without its two highest bits is a colour. -/
theorem masked_lt (value : UInt8) : (value &&& 0x3F).toNat < 64 := by
  rw [UInt8.toNat_and]
  exact Nat.lt_of_le_of_lt Nat.and_le_right (by decide)

section
variable {β : Type} [PictureBus β]

def readChr? (board : β) (address : Nat) : Option UInt8 :=
  if address < 0x2000 then some (PictureBus.readChr board (UInt16.ofNat address)) else none

def writeChr? (board : β) (address : Nat) (value : UInt8) : Option β :=
  if address < 0x2000 then some (PictureBus.writeChr board (UInt16.ofNat address) value) else none

def peek? (m : VideoMemory) (board : β) (address : UInt16) : Option UInt8 :=
  let a := address.toNat % 0x4000
  if a < 0x2000 then readChr? board a
  else if a < 0x3F00 then m.nametables[nametablePlace (PictureBus.mirroring board) a]?
  else m.palette[palettePlace a]?

def fetch? (m : VideoMemory) (board : β) (address : UInt16) : Option (UInt8 × β) := do
  let board := PictureBus.observe board address
  return (← peek? m board address, board)

def store? (m : VideoMemory) (board : β) (address : UInt16) (value : UInt8) :
    Option (VideoMemory × β) := do
  let a := address.toNat % 0x4000
  if a < 0x2000 then return (m, ← writeChr? board a value)
  if a < 0x3F00 then
    let nametables ← put? m.nametables (nametablePlace (PictureBus.mirroring board) a) value
    return ({ m with nametables }, board)
  return ({ m with palette := ← paint? m.palette (palettePlace a) (value &&& 0x3F) }, board)

theorem peek?_eq (m : VideoMemory) (board : β) (address : UInt16) :
    peek? m board address = some (m.peek board address) := by
  unfold peek? VideoMemory.peek
  dsimp only
  split_ifs with patterns nametables
  · exact if_pos patterns
  · exact getElem?_fin _ (nametablePlace_eq _ _)
  · exact getElem?_fin _ (palettePlace_eq _)

theorem fetch?_eq (m : VideoMemory) (board : β) (address : UInt16) :
    fetch? m board address = some (m.fetch board address) := by
  unfold fetch?
  simp only [peek?_eq, Option.bind_eq_bind, Option.bind_some, Option.pure_def]
  rfl

theorem store?_eq (m : VideoMemory) (board : β) (address : UInt16) (value : UInt8) :
    store? m board address value = some (m.store board address value) := by
  unfold store? VideoMemory.store
  dsimp only
  split_ifs with patterns nametables
  · rw [writeChr?, if_pos patterns]
    rfl
  · have place := nametablePlace_eq (PictureBus.mirroring board) (address.toNat % 0x4000)
    rw [put?_eq _ (by rw [place]; exact Fin.isLt _)]
    simp only [place]
    rfl
  · have place := palettePlace_eq (address.toNat % 0x4000)
    unfold paint?
    rw [if_neg (palettePlace_not_doubled _), colour?_eq (masked_lt value)]
    simp only [Option.bind_eq_bind, Option.bind_some]
    rw [put?_eq _ (by rw [place]; exact Fin.isLt _)]
    simp only [place]
    rfl

end

end Famiclone.Checked
