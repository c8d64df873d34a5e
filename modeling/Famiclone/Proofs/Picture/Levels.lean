import Famiclone.Proofs.Board.RiseFilter
import Famiclone.Proofs.Picture.Dot

/-!
# The levels of address line 12

The addresses of nametables have the line low, and those of patterns have it as their table says. So
what a board sees of the line in a dot depends on the dot and on the two tables, while sprites are
small. Neither the contents of any memory nor the scroll position have a part in it.
-/
namespace Famiclone

theorem line12_ofNat {n : Nat} (h : n < 0x4000) :
    line12 (UInt16.ofNat n) = decide (n / 4096 % 2 = 1) := by
  unfold line12
  rw [UInt16.toNat_ofNat', Nat.mod_eq_of_lt (by omega), Nat.testBit_eq_decide_div_mod_eq]

namespace Scroll

theorem line12_tileAddress (s : Scroll) : line12 s.tileAddress = false := by
  unfold tileAddress
  rw [line12_ofNat (by omega)]
  exact decide_eq_false (by omega)

theorem line12_attributeAddress (s : Scroll) : line12 s.attributeAddress = false := by
  have := s.column.isLt
  have := s.row.isLt
  have := Bool.toNat_lt s.right
  have := Bool.toNat_lt s.lower
  unfold attributeAddress
  rw [line12_ofNat (by omega)]
  exact decide_eq_false (by omega)

end Scroll

/-- A line of a tile lies within the half of pattern memory that its table names. -/
theorem line12_pattern (table : Bool) {offset : Nat} (h : offset < 0x1000) :
    line12 (UInt16.ofNat (4096 * table.toNat + offset)) = table := by
  have := Bool.toNat_lt table
  rw [line12_ofNat (by omega)]
  cases table
  · exact decide_eq_false (by rw [Bool.toNat_false]; omega)
  · exact decide_eq_true (by rw [Bool.toNat_true]; omega)

theorem line12_backgroundPattern (table : Bool) (tile : UInt8) (line : Fin 8) :
    line12 (Background.patternAddress table tile line) = table ∧
      line12 (Background.patternAddress table tile line + 8) = table := by
  have := tile.toNat_lt
  have := line.isLt
  unfold Background.patternAddress
  rw [show (8 : UInt16) = UInt16.ofNat 8 from rfl, ← UInt16.ofNat_add, Nat.add_assoc,
    Nat.add_assoc]
  exact ⟨line12_pattern table (by omega), line12_pattern table (by omega)⟩

theorem line12_spritePattern (s : Sprite) (control : Control) (line : Nat)
    (small : control.tallSprites = false) :
    line12 (s.patternAddress control line) = control.spriteTable ∧
      line12 (s.patternAddress control line + 8) = control.spriteTable := by
  have := s.tile.toNat_lt
  have down : s.lineOf control.spriteHeight line < 8 := by
    have height : control.spriteHeight = 8 := by
      unfold Control.spriteHeight
      rw [small]
      rfl
    unfold Sprite.lineOf
    rw [height]
    dsimp only
    split <;> omega
  unfold Sprite.patternAddress
  simp only [small, Bool.false_eq_true, if_false]
  rw [show (8 : UInt16) = UInt16.ofNat 8 from rfl, ← UInt16.ofNat_add, Nat.add_assoc,
    Nat.add_assoc]
  exact ⟨line12_pattern _ (by omega), line12_pattern _ (by omega)⟩

/-! ## Dots -/

/-- The levels of the line in the eight steps of a fetch. -/
def tileLevels (table : Bool) : (step : Nat) → List Bool
  | 0 | 2 => [false]
  | 4 | 6 => [table]
  | _ => []

namespace Picture

/-- The levels of the line in a dot of a line that is rendered, by the tables of background and
sprites. -/
def levels (background sprites : Bool) (dot : Nat) : List Bool :=
  (if fetchesBackground dot then tileLevels background ((dot - 1) % 8) else []) ++
    (if 257 ≤ dot ∧ dot ≤ 320 then tileLevels sprites ((dot - 257) % 8) else []) ++
    (if dot = 338 ∨ dot = 340 then [false] else [])

theorem backgroundAddresses_levels (s : Setup) (cursor : Scroll) (g : Background) :
    (s.backgroundAddresses cursor g).map line12 =
      if fetchesBackground s.beam.dot then
        tileLevels s.control.backgroundTable ((s.beam.dot - 1) % 8)
      else [] := by
  obtain ⟨low, high⟩ := line12_backgroundPattern s.control.backgroundTable g.tile cursor.line
  unfold Setup.backgroundAddresses
  dsimp only
  generalize (s.beam.dot - 1) % 8 = step
  by_cases fetches : fetchesBackground s.beam.dot = true
  · rw [if_pos fetches, if_pos fetches]
    match step with
    | 0 => simp only [List.map_cons, List.map_nil, cursor.line12_tileAddress, tileLevels]
    | 2 => simp only [List.map_cons, List.map_nil, cursor.line12_attributeAddress, tileLevels]
    | 4 => simp only [List.map_cons, List.map_nil, low, tileLevels]
    | 6 => simp only [List.map_cons, List.map_nil, high, tileLevels]
    | 1 | 3 | 5 | _ + 7 => rfl
  · rw [if_neg fetches, if_neg fetches, List.map_nil]

theorem spriteAddresses_levels (p : Picture) (small : p.control.tallSprites = false) :
    p.spriteAddresses.map line12 =
      if 257 ≤ p.beam.dot ∧ p.beam.dot ≤ 320 then
        tileLevels p.control.spriteTable ((p.beam.dot - 257) % 8)
      else [] := by
  unfold spriteAddresses
  dsimp only
  generalize p.spriteOf _ = sprite
  obtain ⟨low, high⟩ := line12_spritePattern sprite p.control p.beam.line small
  generalize (p.beam.dot - 257) % 8 = step
  by_cases fetches : 257 ≤ p.beam.dot ∧ p.beam.dot ≤ 320
  · rw [if_pos fetches, if_pos fetches]
    match step with
    | 0 => simp only [List.map_cons, List.map_nil, p.cursor.line12_tileAddress, tileLevels]
    | 2 => simp only [List.map_cons, List.map_nil, p.cursor.line12_tileAddress, tileLevels]
    | 4 => simp only [List.map_cons, List.map_nil, low, tileLevels]
    | 6 => simp only [List.map_cons, List.map_nil, high, tileLevels]
    | 1 | 3 | 5 | _ + 7 => rfl
  · rw [if_neg fetches, if_neg fetches, List.map_nil]

theorem idleAddresses_levels (s : Setup) (cursor : Scroll) :
    (s.idleAddresses cursor).map line12 =
      if s.beam.dot = 338 ∨ s.beam.dot = 340 then [false] else [] := by
  unfold Setup.idleAddresses
  by_cases idle : s.beam.dot = 338 ∨ s.beam.dot = 340
  · rw [if_pos idle, if_pos idle, List.map_cons, List.map_nil, cursor.line12_tileAddress]
  · rw [if_neg idle, if_neg idle, List.map_nil]

variable {β : Type} [PictureBus β]

theorem heard_of_not_rendering (p : Picture) (board : β) (h : p.rendering = false) :
    p.heard board = [] := by
  unfold heard
  rw [h]
  rfl

theorem heard_levels (p : Picture) (board : β) (h : p.rendering = true)
    (small : p.control.tallSprites = false) : (p.heard board).map line12 =
      levels p.control.backgroundTable p.control.spriteTable p.beam.dot := by
  unfold heard
  dsimp only
  have setup : (p.updateStatus.backgroundStage board).1.lineStage.setup = p.setup := by
    rw [lineStage_setup, backgroundStage_setup, updateStatus_setup]
  generalize (p.updateStatus.backgroundStage board).1.lineStage = q at setup ⊢
  have control : q.control = p.control := congrArg Setup.control setup
  have beam : q.beam = p.beam := congrArg Setup.beam setup
  rw [if_pos h, List.map_append, List.map_append, backgroundAddresses_levels,
    spriteAddresses_levels q (by rw [control]; exact small), idleAddresses_levels, setup, control,
    beam]
  rfl

end Picture

end Famiclone
