import Famiclone.Proofs.Picture.Scene
import Famiclone.Proofs.Picture.SpriteDots

/-!
# What a slot shows

A slot that has been filled shows in each column what the scene has for its sprite, turned left to right
and upside down as the sprite says. Of the slots in use the first one that is not transparent belongs to
the sprite that is in front.
-/
namespace Famiclone

/-! ## Filled slots -/

namespace Picture.Setup

variable {β : Type} [PictureBus β] (s : Setup)

/-- A slot that has been filled on a line. -/
def slotOf (board : β) (line : Nat) (chosen : List (Fin 64)) (k : Fin 8) : SpriteSlot :=
  let sprite := s.spriteIn chosen k
  let address := s.addressIn line chosen k
  SpriteSlot.finish
    ⟨s.memory.peek board address, s.memory.peek board (address + 8), sprite.attributes, sprite.x⟩
    (k.val < chosen.length)

variable (board : β) (chosen : List (Fin 64)) (k : Fin 8) (slot : SpriteSlot)

theorem nextSlot_of_other (low : s.beam.dot ≠ 261 + 8 * k.val)
    (high : s.beam.dot ≠ 263 + 8 * k.val) : s.nextSlot board chosen k slot = slot := by
  unfold nextSlot
  dsimp only
  rw [if_neg low, if_neg high]

theorem nextSlot_low (dot : s.beam.dot = 261 + 8 * k.val) :
    (s.nextSlot board chosen k slot).low = s.memory.peek board (s.addressIn s.beam.line chosen k) := by
  unfold nextSlot
  dsimp only
  rw [if_pos dot]

theorem nextSlot_of_high (dot : s.beam.dot = 263 + 8 * k.val)
    (low : slot.low = s.memory.peek board (s.addressIn s.beam.line chosen k)) :
    s.nextSlot board chosen k slot = s.slotOf board s.beam.line chosen k := by
  unfold nextSlot slotOf SpriteSlot.begin
  dsimp only
  rw [if_neg (by omega), if_pos dot, low]

end Picture.Setup

/-! ## What a slot shows -/

namespace SpriteSlot

/-- A byte read from its other end has its bits in the other order. -/
theorem bit_reversed (b : UInt8) {i : Nat} (h : i < 8) : bit (reversed b) i = bit b (7 - i) := by
  have each : ∀ n : Fin 256, ∀ i : Fin 8,
      bit (reversed (UInt8.ofNat n.val)) i.val = bit (UInt8.ofNat n.val) (7 - i.val) := by
    decide +kernel
  have this := each ⟨b.toNat, b.toNat_lt⟩ ⟨i, h⟩
  rwa [UInt8.ofNat_toNat] at this

/-- What a slot shows in a column once its fetch has ended. -/
theorem finish_pattern (s : SpriteSlot) (x : Nat) : ((s.finish true).pattern x).val =
    let right := x - s.x.toNat
    let place := if bit s.attributes 6 then right else 7 - right
    if s.x.toNat ≤ x ∧ x < s.x.toNat + 8 then
      2 * (bit s.high place).toNat + (bit s.low place).toNat
    else 0 := by
  have val (high low : Bool) : (twoBits high low).val = 2 * high.toNat + low.toNat := by
    cases high <;> cases low <;> rfl
  have same : (s.finish true).x = s.x := by
    unfold finish
    cases s.flipsHorizontally <;> rfl
  unfold pattern
  rw [same]
  by_cases inside : s.x.toNat ≤ x ∧ x < s.x.toNat + 8
  · rw [if_pos inside]
    dsimp only
    rw [if_pos inside, val]
    unfold finish
    cases flips : s.flipsHorizontally with
    | true =>
      have turned : bit s.attributes 6 = true := flips
      have back : 7 - (7 - (x - s.x.toNat)) = x - s.x.toNat := by omega
      rw [if_pos turned]
      show 2 * (bit (reversed s.high) _).toNat + (bit (reversed s.low) _).toNat = _
      rw [bit_reversed _ (by omega), bit_reversed _ (by omega), back]
    | false =>
      have straight : ¬ bit s.attributes 6 = true := Bool.eq_false_iff.mp flips
      rw [if_neg straight]
      rfl
  · rw [if_neg inside]
    dsimp only
    rw [if_neg inside]
    rfl

end SpriteSlot

/-! ## Slots and the scene -/

namespace Picture

variable {β : Type} [PictureBus β] (p : Picture) (board : β)

theorem spriteHeight_eq (c : Control) : c.spriteHeight = 8 ∧ c.tallSprites = false ∨
    c.spriteHeight = 16 ∧ c.tallSprites = true := by
  unfold Control.spriteHeight
  cases c.tallSprites <;> simp

theorem lineOf_eq (s : Sprite) {line : Nat} (reached : p.Reaches s.y (line + 1)) :
    s.lineOf p.control.spriteHeight line = p.spriteLine s (line + 1) := by
  have down : (line + 256 - s.y.toNat) % p.control.spriteHeight = line + 1 - 1 - s.y.toNat := by
    unfold Reaches at reached
    obtain ⟨height, _⟩ | ⟨height, _⟩ := spriteHeight_eq p.control <;>
    · rw [height] at reached ⊢
      omega
  unfold Sprite.lineOf spriteLine
  rw [down]
  rfl

theorem spriteLine_lt (s : Sprite) {y : Nat} (reached : p.Reaches s.y y) :
    p.spriteLine s y < p.control.spriteHeight := by
  unfold Reaches at reached
  unfold spriteLine
  dsimp only
  split <;> omega

/-- The pattern of a sprite is in pattern memory. -/
theorem spritePlace_lt (s : Sprite) {line : Nat} (h : line < p.control.spriteHeight) :
    p.spritePlace s line + 8 < 0x2000 := by
  have tile := s.tile.toNat_lt
  have table := Bool.toNat_lt p.control.spriteTable
  unfold spritePlace
  obtain ⟨height, small⟩ | ⟨height, tall⟩ := spriteHeight_eq p.control
  · rw [small, if_neg Bool.false_ne_true]
    omega
  · rw [tall, if_pos rfl]
    omega

theorem patternAddress_eq (s : Sprite) {line : Nat} (reached : p.Reaches s.y (line + 1)) :
    s.patternAddress p.control line = UInt16.ofNat (p.spritePlace s (p.spriteLine s (line + 1))) := by
  unfold Sprite.patternAddress spritePlace
  rw [p.lineOf_eq s reached]
  dsimp only
  split <;> rfl

section Slots

variable {line : Nat} {chosen : List (Fin 64)}

theorem spriteIn_of_used {k : Fin 8} (used : k.val < chosen.length) :
    p.setup.spriteIn chosen k = Sprite.get p.sprites chosen[k.val] := by
  unfold Setup.spriteIn
  rw [List.getElem?_eq_getElem used]
  rfl

theorem slotOf_attributes {k : Fin 8} (used : k.val < chosen.length) :
    (p.setup.slotOf board line chosen k).attributes =
      (Sprite.get p.sprites chosen[k.val]).attributes := by
  rw [← p.spriteIn_of_used used]
  unfold Setup.slotOf SpriteSlot.finish
  dsimp only
  split
  · rfl
  · split <;> rfl

/-- A filled slot shows what the scene has for its sprite. -/
theorem slotOf_pattern (list : chosen = p.spritesOn (line + 1)) {k : Fin 8}
    (used : k.val < chosen.length) (x : Nat) :
    ((p.setup.slotOf board line chosen k).pattern x).val =
      p.spritePattern board chosen[k.val] x (line + 1) := by
  have member : chosen[k.val] ∈ p.spritesOn (line + 1) := by
    rw [← list]
    exact List.getElem_mem used
  have reached := p.reaches_of_mem member
  have place := p.spritePlace_lt (Sprite.get p.sprites chosen[k.val]) (p.spriteLine_lt _ reached)
  have address := p.patternAddress_eq _ reached
  rw [← p.spriteIn_of_used used] at address
  unfold Setup.slotOf spritePattern
  dsimp only
  unfold Setup.addressIn
  rw [decide_eq_true used, SpriteSlot.finish_pattern, show p.setup.control = p.control from rfl,
    address, p.spriteIn_of_used used,
    show (8 : UInt16) = UInt16.ofNat 8 from rfl, ← UInt16.ofNat_add,
    VideoMemory.peek_pattern _ _ (by omega), VideoMemory.peek_pattern _ _ place]

end Slots

/-- The first slot of those in use and the first entry of the list are found alike. -/
theorem find_slot {l : List (Fin 64)} (few : l.length ≤ 8) {f : Fin 8 → Bool} {q : Fin 64 → Bool}
    (same : ∀ k : Fin 8, ∀ h : k.val < l.length, f k = q l[k.val]) :
    match (List.finRange 8).find? fun k => decide (k.val < l.length) && f k with
    | none => l.find? q = none
    | some k => ∃ h : k.val < l.length, l.find? q = some l[k.val] := by
  split
  · rename_i missing
    rw [List.find?_eq_none] at missing ⊢
    intro i member
    obtain ⟨k, used, rfl⟩ := List.getElem_of_mem member
    have slot := missing ⟨k, by omega⟩ (List.mem_finRange _)
    rw [decide_eq_true used, Bool.true_and, same _ used] at slot
    exact slot
  · rename_i k found
    obtain ⟨here, i, bound, number, before⟩ := List.find?_eq_some_iff_getElem.mp found
    obtain ⟨used, shown⟩ := Bool.and_eq_true_iff.mp here
    rw [List.getElem_finRange] at number
    have index : i = k.val := congrArg Fin.val number
    have used := of_decide_eq_true used
    refine ⟨used, List.find?_eq_some_iff_getElem.mpr ⟨same k used ▸ shown, k.val, used, rfl, ?_⟩⟩
    intro j earlier
    have bound : j < (List.finRange 8).length := by
      rw [List.length_finRange]
      omega
    have place : (List.finRange 8)[j] = ⟨j, by omega⟩ := by simp
    have other := before j (by omega)
    rw [place, decide_eq_true (by dsimp only; omega), Bool.true_and, same _ (by dsimp only; omega)]
      at other
    exact other

/-- The slots are ready for a line: they hold its sprites, which have been fetched on the line before. -/
structure SlotsReady (p : Picture) (board : β) (y : Nat) (chosen : List (Fin 64))
    (slots : Vector SpriteSlot 8) : Prop where
  list : chosen = p.spritesOn y
  filled : ∀ k : Fin 8, k.val < chosen.length →
    slots.get k = p.setup.slotOf board (y - 1) chosen k

namespace SlotsReady

variable {p : Picture} {board : β} {y : Nat} {chosen : List (Fin 64)} {slots : Vector SpriteSlot 8}
  (h : p.SlotsReady board y chosen slots)
include h

/-- On the first line there is no sprite, so each used slot has been fetched on a line before. -/
theorem line_pos {k : Fin 8} (used : k.val < chosen.length) : y - 1 + 1 = y := by
  have some : y ≠ 0 := by
    rintro rfl
    rw [h.list, spritesOn_zero] at used
    exact absurd used (Nat.not_lt_zero _)
  omega

theorem attributes {k : Fin 8} (used : k.val < chosen.length) :
    (slots.get k).attributes = (Sprite.get p.sprites chosen[k.val]).attributes := by
  rw [h.filled k used]
  exact p.slotOf_attributes board used

theorem pattern {k : Fin 8} (used : k.val < chosen.length) (x : Nat) :
    ((slots.get k).pattern x).val = p.spritePattern board chosen[k.val] x y := by
  have line := h.line_pos used
  have list : chosen = p.spritesOn (y - 1 + 1) := by
    rw [line]
    exact h.list
  rw [h.filled k used, p.slotOf_pattern board list used, line]

/-- The slot in front is that of the sprite in front. -/
theorem front (x : Nat) : match SpriteSlot.front? slots chosen.length x with
    | none => (chosen.find? fun i => p.spritePattern board i x y ≠ 0) = none
    | some k => ∃ used : k.val < chosen.length,
      (chosen.find? fun i => p.spritePattern board i x y ≠ 0) = some chosen[k.val] := by
  refine find_slot (f := fun k => (slots.get k).pattern x != 0) ?_ fun k used => ?_
  · rw [h.list]
    exact p.length_spritesOn_le y
  · have shown : ∀ v : Fin 4, (v != 0) = decide (v.val ≠ 0) := by decide
    rw [← h.pattern used x]
    exact shown _

/-- Sprite zero can only be the first of a line. -/
theorem eq_zero_iff {k : Fin 8} (used : k.val < chosen.length) :
    chosen[k.val] = 0 ↔ chosen.head? = some 0 ∧ k = 0 := by
  have order := p.spritesOn_pairwise y
  rw [← h.list] at order
  have some : 0 < chosen.length := by omega
  have head : chosen.head? = Option.some chosen[0] := by
    rw [List.head?_eq_getElem?, List.getElem?_eq_getElem]
  rw [head, Option.some_inj]
  constructor
  · intro zero
    by_cases first : k = 0
    · subst first
      exact ⟨zero, rfl⟩
    · have later : 0 < k.val := Nat.pos_of_ne_zero fun eq => first (Fin.ext eq)
      have less := List.pairwise_iff_getElem.mp order 0 k.val some used later
      rw [zero] at less
      exact absurd less (Fin.not_lt_zero _)
  · rintro ⟨zero, rfl⟩
    exact zero

end SlotsReady

end Picture

end Famiclone
