import Famiclone.Proofs.Picture.Checked
import Famiclone.Proofs.Picture.SpriteDots

/-!
# Sprites with checked arithmetic

The unit searches sprite memory by number, first for eight sprites and then, with a byte that moves on
as well, for a ninth. Here both searches are loops over computed places, and they find what the
definitions of the unit say. The patterns of what they have found are fetched into the slots.
-/
namespace Famiclone.Checked

variable {β : Type} [PictureBus β]

/-! ## Search -/

section
variable (memory : SpriteMemory) (height line : Nat)

def covers? (place : Nat) : Option Bool := do
  return Sprite.covers height line (← memory[place]?)

/-- Note the number of a sprite; there is room for eight. -/
def note? (found : List (Fin 64)) (number : Nat) : Option (List (Fin 64)) := do
  if found.length < 8 then return found ++ [← below? 64 number] else none

/-- Search through the last `left` sprites from a number on, until eight are found. -/
def search? : (left number : Nat) → List (Fin 64) → Option (Nat × List (Fin 64))
  | 0, number, found => some (number, found)
  | left + 1, number, found =>
    if found.length < 8 then do
      if ← covers? memory height line (number * 4) then
        search? left (number + 1) (← note? found number)
      else search? left (number + 1) found
    else some (number, found)

/-- Search on for one more sprite, with each sprite in the next of its four bytes. -/
def searchOn? : (left number byte : Nat) → Option Bool
  | 0, _, _ => some false
  | left + 1, number, byte => do
    if ← covers? memory height line (number * 4 + byte) then return true
    else searchOn? left (number + 1) ((byte + 1) % 4)

/-- A search is over: eight sprites are found, the last of them just now, or there are no more. -/
def SearchOver (number : Nat) (found : List (Fin 64)) : Prop :=
  found.length = 8 ∧ (∃ last, found.getLast? = some last ∧ number = last.val + 1) ∨
    found.length < 8 ∧ number = 64

/-- The sprites from a number on that are on a line. -/
def onLineFrom (number : Nat) : List (Fin 64) :=
  ((List.finRange 64).drop number).filter fun i =>
    Sprite.covers height line (Sprite.get memory i).y

theorem covers?_first (i : Fin 64) : covers? memory height line (i.val * 4) =
    some (Sprite.covers height line (Sprite.get memory i).y) := by
  have inside : i.val * 4 < 256 := by omega
  unfold covers?
  rw [Vector.getElem?_eq_getElem inside]
  simp only [Nat.mul_comm i.val]
  rfl

theorem onLineFrom_of_lt {number : Nat} (inside : number < 64) :
    onLineFrom memory height line number =
      if Sprite.covers height line (Sprite.get memory ⟨number, inside⟩).y then
        ⟨number, inside⟩ :: onLineFrom memory height line (number + 1)
      else onLineFrom memory height line (number + 1) := by
  have first : (List.finRange 64).drop number =
      ⟨number, inside⟩ :: (List.finRange 64).drop (number + 1) := by
    rw [List.drop_eq_getElem_cons (by rw [List.length_finRange]; exact inside)]
    simp
  unfold onLineFrom
  rw [first, List.filter_cons]

theorem note?_eq {found : List (Fin 64)} (room : found.length < 8) {number : Nat}
    (inside : number < 64) : note? found number = some (found ++ [⟨number, inside⟩]) := by
  unfold note?
  rw [if_pos room, below?_eq inside]
  rfl

/-- Behind a sprite that is found there is room for another one, or the search is over. -/
theorem SearchOver.noted {found : List (Fin 64)} (room : found.length < 8) {number : Nat}
    (inside : number < 64) :
    (found ++ [(⟨number, inside⟩ : Fin 64)]).length < 8 ∨
      SearchOver (number + 1) (found ++ [⟨number, inside⟩]) := by
  have length : (found ++ [(⟨number, inside⟩ : Fin 64)]).length = found.length + 1 := by simp
  rcases Nat.lt_or_ge (found.length + 1) 8 with still | now
  · exact .inl (length ▸ still)
  · refine .inr (.inl ⟨by omega, ⟨number, inside⟩, ?_, rfl⟩)
    simp

theorem search?_eq (left number : Nat) (found : List (Fin 64)) (all : left + number = 64)
    (so_far : found.length < 8 ∨ SearchOver number found) :
    ∃ reached, SearchOver reached
        (found ++ (onLineFrom memory height line number).take (8 - found.length)) ∧
      search? memory height line left number found =
        some (reached, found ++ (onLineFrom memory height line number).take (8 - found.length)) := by
  induction left generalizing number found with
  | zero =>
    have last : number = 64 := by omega
    have none : onLineFrom memory height line number = [] := by
      rw [last]
      rfl
    rw [none, List.take_nil, List.append_nil]
    refine ⟨number, ?_, rfl⟩
    rcases so_far with room | ended
    · exact .inr ⟨room, last⟩
    · exact ended
  | succ left ih =>
    rcases Nat.lt_or_ge found.length 8 with room | full
    · have inside : number < 64 := by omega
      unfold search?
      rw [if_pos room, covers?_first memory height line ⟨number, inside⟩,
        onLineFrom_of_lt memory height line inside]
      simp only [Option.bind_eq_bind, Option.bind_some]
      split
      · have next := ih (number + 1) (found ++ [⟨number, inside⟩]) (by omega)
          (SearchOver.noted room inside)
        have length : (found ++ [(⟨number, inside⟩ : Fin 64)]).length = found.length + 1 := by simp
        rw [length] at next
        have one : 8 - found.length = 8 - (found.length + 1) + 1 := by omega
        rw [note?_eq room inside, one, List.take_succ_cons]
        simp only [Option.bind_some]
        rw [List.append_assoc] at next
        exact next
      · exact ih _ _ (by omega) (.inl room)
    · have ended : SearchOver number found := so_far.resolve_left (by omega)
      have none : 8 - found.length = 0 := by omega
      unfold search?
      rw [if_neg (by omega), none, List.take_zero, List.append_nil]
      exact ⟨number, ended, rfl⟩

/-- A search for a ninth sprite from a number and a byte on finds something. -/
def FindsFrom (number byte : Nat) : Prop :=
  ∃ i : Fin 64, number ≤ i.val ∧
    ∃ y, memory[4 * i.val + (byte + (i.val - number)) % 4]? = some y ∧
      Sprite.covers height line y = true

/-- A number that is on the line is found at once. -/
theorem FindsFrom.here {number byte : Nat} (inside : number < 64) {y : UInt8}
    (read : memory[4 * number + byte % 4]? = some y) (reaches : Sprite.covers height line y = true) :
    FindsFrom memory height line number byte := by
  refine ⟨⟨number, inside⟩, Nat.le_refl _, y, ?_, reaches⟩
  rw [Nat.sub_self, Nat.add_zero]
  exact read

/-- Behind a number that is not on the line the search goes on with the next byte of the next one. -/
theorem findsFrom_next {number byte : Nat} {y : UInt8}
    (read : memory[4 * number + byte % 4]? = some y) (misses : Sprite.covers height line y ≠ true) :
    FindsFrom memory height line (number + 1) ((byte + 1) % 4) ↔
      FindsFrom memory height line number byte := by
  have same {i : Nat} (after : number + 1 ≤ i) :
      ((byte + 1) % 4 + (i - (number + 1))) % 4 = (byte + (i - number)) % 4 := by omega
  constructor
  · rintro ⟨i, after, z, shown, reaches⟩
    rw [same after] at shown
    exact ⟨i, by omega, z, shown, reaches⟩
  · rintro ⟨i, from_here, z, shown, reaches⟩
    have after : number + 1 ≤ i.val := by
      by_contra before
      have equal : i.val = number := by omega
      rw [equal, Nat.sub_self, Nat.add_zero, read] at shown
      cases shown
      exact misses reaches
    rw [← same after] at shown
    exact ⟨i, after, z, shown, reaches⟩

theorem searchOn?_eq (left number byte : Nat) (all : left + number = 64) (inside : byte < 4) :
    ∃ found, searchOn? memory height line left number byte = some found ∧
      (found = true ↔ FindsFrom memory height line number byte) := by
  induction left generalizing number byte with
  | zero =>
    refine ⟨false, rfl, ?_⟩
    constructor
    · intro found
      contradiction
    · rintro ⟨i, after, -⟩
      omega
  | succ left ih =>
    have place : number * 4 + byte < 256 := by omega
    have here : (memory[number * 4 + byte]? : Option UInt8) = some memory[number * 4 + byte] :=
      Vector.getElem?_eq_getElem place
    have read : (memory[4 * number + byte % 4]? : Option UInt8) = some memory[number * 4 + byte] := by
      rw [Nat.mod_eq_of_lt inside, Nat.mul_comm 4, here]
    unfold searchOn? covers?
    rw [here]
    simp only [Option.bind_eq_bind, Option.bind_some, Option.pure_def]
    split
    · exact ⟨true, rfl, iff_of_true rfl (.here memory height line (by omega) read ‹_›)⟩
    · obtain ⟨found, searched, iff⟩ := ih (number + 1) ((byte + 1) % 4) (by omega)
        (Nat.mod_lt _ (by decide))
      exact ⟨found, searched, iff.trans (findsFrom_next memory height line read ‹_›)⟩

/-- Behind eight sprites a ninth is found if the search from the last of them on finds something. -/
theorem overflows_iff {chosen : List (Fin 64)} {reached : Nat} (ended : SearchOver reached chosen) :
    Sprite.overflows memory height line chosen = true ↔
      FindsFrom memory height line reached 0 := by
  unfold Sprite.overflows FindsFrom
  rcases ended with ⟨full, last, found, reached_eq⟩ | ⟨room, none⟩
  · rw [found]
    simp only [full, decide_true, Bool.true_and, List.any_eq_true, List.mem_finRange, true_and,
      Bool.and_eq_true, decide_eq_true_eq]
    refine exists_congr fun i => ?_
    have place : 4 * i.val + (i.val - last.val - 1) % 4 < 256 := Sprite.searched_lt last i
    have same : (0 + (i.val - reached)) % 4 = (i.val - last.val - 1) % 4 := by
      rw [reached_eq]
      omega
    have order : last < i ↔ reached ≤ i.val := by
      rw [reached_eq]
      exact Fin.lt_def
    rw [order, same, Vector.getElem?_eq_getElem place]
    simp only [Option.some.injEq, exists_eq_left']
  · constructor
    · intro overflows
      split at overflows
      · contradiction
      · have short : ¬ chosen.length = 8 := by omega
        rw [decide_eq_false short] at overflows
        contradiction
    · rintro ⟨i, after, -⟩
      omega

end

section
variable (p : Picture) (board : β)

def chooseSprites? : Option Picture := do
  if p.beam.visible then
    let height := p.control.spriteHeight
    let (reached, chosen) ← search? p.sprites height p.beam.line 64 0 []
    let overflow ← searchOn? p.sprites height p.beam.line (64 - reached) reached 0
    return { p with
      chosen
      status := { p.status with spriteOverflow := p.status.spriteOverflow || overflow } }
  else return { p with chosen := [] }

theorem chooseSprites?_eq : chooseSprites? p = some p.chooseSprites := by
  unfold chooseSprites? Picture.chooseSprites
  split
  · obtain ⟨reached, ended, searched⟩ := search?_eq p.sprites p.control.spriteHeight p.beam.line 64
      0 [] rfl (.inl (by decide))
    have chosen : [] ++ (onLineFrom p.sprites p.control.spriteHeight p.beam.line 0).take (8 - 0) =
        Sprite.choose p.sprites p.control.spriteHeight p.beam.line := rfl
    rw [List.length_nil, chosen] at ended searched
    have within : 64 - reached + reached = 64 := by
      rcases ended with ⟨-, last, -, reached_eq⟩ | ⟨-, none⟩ <;> omega
    obtain ⟨found, searched_on, iff⟩ := searchOn?_eq p.sprites p.control.spriteHeight p.beam.line
      (64 - reached) reached 0 within (by decide)
    have same : found = Sprite.overflows p.sprites p.control.spriteHeight p.beam.line
        (Sprite.choose p.sprites p.control.spriteHeight p.beam.line) := by
      rw [Bool.eq_iff_iff, iff, overflows_iff _ _ _ ended]
    rw [same] at searched_on
    simp only [searched, searched_on, Option.bind_eq_bind, Option.bind_some]
    rfl
  · rfl

/-! ## Sprites -/

def spriteOf? (slot : Nat) : Option Sprite := do
  if slot < p.chosen.length then
    let first := (← p.chosen[slot]?).val * 4
    return ⟨← p.sprites[first]?, ← p.sprites[first + 1]?, ← p.sprites[first + 2]?,
      ← p.sprites[first + 3]?⟩
  else return .absent

/-- The line of a sprite that is seen, for a height that is a power of two. -/
def lineOf? (s : Sprite) (height line : Nat) : Option Nat := do
  let last ← minus? height 1
  let down := (line + 0x10000 - s.y.toNat) % 0x10000 &&& last
  if s.flipsVertically then minus? last down else return down

def patternAddress? (s : Sprite) (control : Control) (line : Nat) : Option Nat := do
  let row ← lineOf? s control.spriteHeight line
  let tile := s.tile.toNat
  if control.tallSprites then
    let table := tile % 2 * 0x1000
    if 8 ≤ row then
      let index ← word? (tile / 2 * 2 + 1)
      word? ((← word? (table + index * 16)) + (← minus? row 8))
    else word? ((← word? (table + tile / 2 * 2 * 16)) + row)
  else
    let table := if control.spriteTable then 0x1000 else 0
    word? ((← word? (table + tile * 16)) + row)

def fetchSpriteLow? (slot : Nat) : Option (Picture × β) := do
  let sprite ← spriteOf? p slot
  let address ← patternAddress? sprite p.control p.beam.line
  let (low, board) ← fetch? p.memory board (UInt16.ofNat address)
  let begun := (← p.slots[slot]?).begin sprite
  return ({ p with slots := ← put? p.slots slot { begun with low } }, board)

def fetchSpriteHigh? (slot : Nat) : Option (Picture × β) := do
  let sprite ← spriteOf? p slot
  let address ← word? ((← patternAddress? sprite p.control p.beam.line) + 8)
  let (high, board) ← fetch? p.memory board (UInt16.ofNat address)
  let filled := { (← p.slots[slot]?).begin sprite with high }
  let slots ← put? p.slots slot (filled.finish (slot < p.chosen.length))
  return ({ p with slots }, board)

def fetchSprite? : Option (Picture × β) := do
  let step ← minus? p.beam.dot 257
  let slot := step / 8
  match step % 8 with
  | 0 | 2 => return (p, PictureBus.observe board p.cursor.tileAddress)
  | 4 => fetchSpriteLow? p board slot
  | 6 => fetchSpriteHigh? p board slot
  | _ => return (p, board)

theorem spriteOf?_eq (slot : Fin 8) : spriteOf? p slot.val = some (p.spriteOf slot) := by
  unfold spriteOf? Picture.spriteOf
  split
  · have used : slot.val < p.chosen.length := ‹_›
    have place (byte : Nat) (inside : byte < 4) : p.chosen[slot.val].val * 4 + byte < 256 := by
      omega
    have read (byte : Nat) (inside : byte < 4) :
        p.sprites[p.chosen[slot.val].val * 4 + byte]? =
          some (p.sprites.get ⟨_, place byte inside⟩) :=
      Vector.getElem?_eq_getElem (place byte inside)
    have first : p.sprites[p.chosen[slot.val].val * 4]? =
        some (p.sprites.get ⟨_, place 0 (by decide)⟩) := read 0 (by decide)
    rw [List.getElem?_eq_getElem used]
    simp only [Option.bind_eq_bind, Option.bind_some, first, read, Nat.reduceLT]
    simp only [Nat.mul_comm _ 4]
    rfl
  · have unused : ¬ slot.val < p.chosen.length := ‹_›
    rw [List.getElem?_eq_none (Nat.not_lt.mp unused)]
    rfl

theorem spriteHeight_eq (control : Control) :
    control.spriteHeight = if control.tallSprites then 2 ^ 4 else 2 ^ 3 := rfl

theorem lineOf_lt (s : Sprite) (control : Control) (line : Nat) :
    s.lineOf control.spriteHeight line < control.spriteHeight := by
  have pos : 0 < control.spriteHeight := by
    rw [spriteHeight_eq]
    split <;> decide
  unfold Sprite.lineOf
  dsimp only
  split
  · omega
  · exact Nat.mod_lt _ pos

/-- The lines of a sprite are counted by the lowest bits of a difference that may wrap. -/
theorem lineOf?_eq (s : Sprite) (control : Control) (line : Nat) :
    lineOf? s control.spriteHeight line = some (s.lineOf control.spriteHeight line) := by
  have y := s.y.toNat_lt
  have down : (line + 0x10000 - s.y.toNat) % 0x10000 &&& (control.spriteHeight - 1) =
      (line + 256 - s.y.toNat) % control.spriteHeight := by
    rw [spriteHeight_eq]
    split
    · rw [Nat.and_two_pow_sub_one_eq_mod]
      omega
    · rw [Nat.and_two_pow_sub_one_eq_mod]
      omega
  have pos : 1 ≤ control.spriteHeight := by
    rw [spriteHeight_eq]
    split <;> decide
  have inside : (line + 256 - s.y.toNat) % control.spriteHeight ≤ control.spriteHeight - 1 :=
    Nat.le_sub_one_of_lt (Nat.mod_lt _ pos)
  unfold lineOf? Sprite.lineOf
  rw [minus?_eq pos]
  simp only [Option.bind_eq_bind, Option.bind_some, down]
  split
  · exact minus?_eq inside
  · rfl

/-- The patterns of the sprites end well below the last word. -/
theorem patternAddress?_eq (s : Sprite) (control : Control) (line : Nat) :
    ∃ address, patternAddress? s control line = some address ∧ address + 8 < 0x10000 ∧
      s.patternAddress control line = UInt16.ofNat address := by
  have tile := s.tile.toNat_lt
  have row := lineOf_lt s control line
  unfold patternAddress? Sprite.patternAddress
  rw [lineOf?_eq, spriteHeight_eq] at *
  simp only [Option.bind_eq_bind, Option.bind_some]
  generalize s.lineOf (if control.tallSprites = true then 2 ^ 4 else 2 ^ 3) line = down at *
  split
  · rw [if_pos ‹_›] at row
    split
    · have lower : 8 ≤ down := ‹_›
      rw [word?_eq (by omega), minus?_eq lower]
      simp only [Option.bind_some]
      rw [word?_eq (by omega)]
      refine ⟨_, word?_eq (by omega), by omega, ?_⟩
      congr 1
      omega
    · rw [word?_eq (by omega)]
      refine ⟨_, word?_eq (by omega), by omega, ?_⟩
      congr 1
      omega
  · rw [if_neg ‹_›] at row
    have table : (if control.spriteTable then 0x1000 else 0) = 4096 * control.spriteTable.toNat := by
      cases control.spriteTable <;> rfl
    have half := Bool.toNat_lt control.spriteTable
    rw [table, word?_eq (by omega)]
    refine ⟨_, word?_eq (by omega), by omega, ?_⟩
    congr 1
    omega

theorem fetchSpriteLow?_eq (slot : Fin 8) :
    fetchSpriteLow? p board slot.val = some (p.fetchSpriteLow board slot) := by
  obtain ⟨address, found, -, same⟩ := patternAddress?_eq (p.spriteOf slot) p.control p.beam.line
  unfold fetchSpriteLow? Picture.fetchSpriteLow
  simp only [spriteOf?_eq, found, same, fetch?_eq, getElem?_fin p.slots rfl, put?_eq p.slots slot.isLt,
    Option.bind_eq_bind, Option.bind_some]
  rfl

theorem fetchSpriteHigh?_eq (slot : Fin 8) :
    fetchSpriteHigh? p board slot.val = some (p.fetchSpriteHigh board slot) := by
  obtain ⟨address, found, fits, same⟩ :=
    patternAddress?_eq (p.spriteOf slot) p.control p.beam.line
  have next : UInt16.ofNat address + 8 = UInt16.ofNat (address + 8) := by
    rw [UInt16.ofNat_add]
    rfl
  unfold fetchSpriteHigh? Picture.fetchSpriteHigh
  simp only [spriteOf?_eq, found, same, next, word?_eq fits, fetch?_eq, getElem?_fin p.slots rfl,
    put?_eq p.slots slot.isLt, Option.bind_eq_bind, Option.bind_some]
  rfl

theorem fetchSprite?_eq (begun : 257 ≤ p.beam.dot) (going : p.beam.dot ≤ 320) :
    fetchSprite? p board = some (p.fetchSprite board) := by
  have inside : (p.beam.dot - 257) / 8 < 8 := by omega
  have slot : Fin.ofNat 8 ((p.beam.dot - 257) / 8) = ⟨(p.beam.dot - 257) / 8, inside⟩ :=
    Fin.ext (Nat.mod_eq_of_lt inside)
  unfold fetchSprite? Picture.fetchSprite
  rw [minus?_eq begun]
  simp only [Option.bind_eq_bind, Option.bind_some, slot]
  generalize (p.beam.dot - 257) % 8 = step
  rcases step with _ | _ | _ | _ | _ | _ | _ | step
  · rfl
  · rfl
  · rfl
  · rfl
  · exact fetchSpriteLow?_eq p board ⟨_, inside⟩
  · rfl
  · exact fetchSpriteHigh?_eq p board ⟨_, inside⟩
  · rcases step with _ | step <;> rfl

end

end Famiclone.Checked
