import Famiclone.Proofs.Console.PowerCycle

/-!
# The board in the slot

The label says what is in the slot. Cartridges come and go, and power, settings and saved memory come in
between, but the board in the slot is always one that the image of the label makes. So what a header
declares of the work RAM is what there is.
-/
namespace Famiclone

/-- Work RAM of the same size makes another board of the same cartridge. -/
theorem Board.Like.fillWork {fresh b : Board} (like : fresh.Like b) {filled : Array UInt8}
    (size : ∀ m, b.banks? = some m → filled.size = m.workRam.size) :
    fresh.Like (b.mapWorkRam fun _ => filled) := by
  have chips {banks m : Banks} (same : banks.SameChips m) (size : filled.size = m.workRam.size) :
      banks.SameChips { m with workRam := filled } :=
    { same with workSize := size.trans same.workSize }
  cases like with
  | latch h => exact .latch ⟨h.wiring, chips h.chips (size _ rfl), h.prg, h.chr, h.mirroring⟩
  | mmc1 h => exact .mmc1 (chips h (size _ rfl))
  | mmc3 h => exact .mmc3 (chips h (size _ rfl))

/-! ## Work RAM with a battery -/

namespace Board

/-- The board has a battery for its work RAM, which holds certain bytes. -/
def Keeps (b : Board) (ram : Array UInt8) : Prop :=
  ∃ m, b.banks? = some m ∧ m.battery = true ∧ m.workRam = ram ∧ ram ≠ #[]

variable {b : Board} {ram : Array UInt8}

theorem keeps_iff : b.Keeps ram ↔ b.hasBattery = true ∧ b.workRam? = some ram := by
  unfold Keeps hasBattery workRam?
  cases b.banks? with
  | none => simp
  | some m =>
    simp only [Option.some.injEq, exists_eq_left', Option.map_some, Option.filter_eq_some_iff,
      Bool.not_eq_true', Array.isEmpty_eq_false_iff]

theorem Keeps.mapWorkRam (h : b.Keeps ram) {filled : Array UInt8} (size : filled.size = ram.size) :
    (b.mapWorkRam fun _ => filled).Keeps filled := by
  obtain ⟨m, found, battery, -, some⟩ := h
  refine ⟨{ m with workRam := filled }, ?_, battery, rfl, fun empty => some ?_⟩
  · unfold Board.mapWorkRam
    rw [banks?_mapBanks, found]
    rfl
  · exact Array.eq_empty_of_size_eq_zero (by rw [← size, empty]; rfl)

theorem Keeps.mapWorkRam_self (h : b.Keeps ram) : (b.mapWorkRam fun _ => ram) = b := by
  obtain ⟨m, found, -, rfl, -⟩ := h
  cases b <;> cases found <;> rfl

theorem mapWorkRam_mapWorkRam (b : Board) (first second : Array UInt8) :
    ((b.mapWorkRam fun _ => first).mapWorkRam fun _ => second) = b.mapWorkRam fun _ => second := by
  cases b <;> rfl

end Board

/-! ## The label and the board -/

namespace Console

/-- The board in the slot is one of the cartridge that the label is of. -/
def Labelled (c : Console) : Prop :=
  ∀ label, c.label = some label → ∃ image cartridge, Cartridge.ofImage image = .ok cartridge ∧
    label = ⟨cartridge.header, cartridge.id⟩ ∧ cartridge.board.Like c.bus.board

variable {c d : Console} {ram : Array UInt8}

theorem batteryRam?_eq_some_iff : c.batteryRam? = some ram ↔ c.bus.board.Keeps ram := by
  unfold batteryRam?
  rw [Board.keeps_iff]
  split <;> simp_all

theorem labelled_of_none (empty : c.label = none) : c.Labelled := by
  intro label labelled
  rw [empty] at labelled
  contradiction

/-- The same label, and a board that the old one has turned into. -/
theorem Labelled.course (h : c.Labelled) (label : d.label = c.label)
    (course : c.bus.board.Course d.bus.board) : d.Labelled := by
  intro other labelled
  obtain ⟨image, cartridge, accepted, named, like⟩ := h other (label.symm.trans labelled)
  exact ⟨image, cartridge, accepted, named, like.course course⟩

theorem Labelled.powerOn (h : c.Labelled) : c.powerOn.Labelled := by
  have fixed : c.powerOn.label = c.label := by
    unfold Console.powerOn
    dsimp only
  have board := c.bus.board.started_course
  rw [← powerOn_board] at board
  exact h.course fixed board

theorem Labelled.playing {σ : Type} [Storage σ] (h : c.Labelled) {call : Call σ}
    (playing : call.Playing) : (c.perform call).Labelled := by
  have start : c.machine.Holds c.bus.board := .refl
  exact h.course (label_of_fixture (c.perform_fixture playing))
    ((Machine.Holds.kept c.bus.board).perform playing start)

theorem Labelled.load (h : c.Labelled) (image : Array UInt8) :
    (c.orKeep (c.load image)).Labelled := by
  cases accepted : Cartridge.ofImage image with
  | error e =>
    unfold Console.load orKeep
    rw [accepted]
    exact h
  | ok cartridge =>
    rw [load_eq accepted]
    refine powerOn ?_
    rintro label ⟨⟩
    exact ⟨image, cartridge, accepted, rfl, (Cartridge.ofImage_mounted accepted).like⟩

theorem switchRegion_board (c : Console) (region : Region) :
    (c.switchRegion region).bus.board = c.bus.board ∧
      (c.switchRegion region).label = c.label := by
  unfold switchRegion
  split <;> exact ⟨rfl, rfl⟩

theorem Labelled.apply (h : c.Labelled) (settings : Settings) : (c.apply settings).Labelled := by
  have adjusted : (c.adjusted settings).Labelled := h
  have switched (region : Region) : ((c.adjusted settings).switchRegion region).Labelled := by
    obtain ⟨board, label⟩ := (c.adjusted settings).switchRegion_board region
    refine adjusted.course label ?_
    rw [board]
  rw [apply_eq]
  dsimp only
  split
  · exact adjusted
  · split
    · exact (switched _).powerOn
    · exact switched _

theorem Labelled.restore {σ : Type} [Storage σ] (h : c.Labelled) (storage : σ) :
    (c.orKeep ((c.restore storage).map (·.2))).Labelled := by
  unfold Console.restore orKeep
  cases labelled : c.label with
  | none => exact h
  | some label =>
    cases battery : c.batteryRam? with
    | none => exact h
    | some ram =>
      dsimp only
      cases Storage.load storage label.id ram.toVector with
      | error e => exact h
      | ok answer =>
        intro other labelled
        obtain ⟨image, cartridge, accepted, named, like⟩ := h other labelled
        obtain ⟨kept, held, -, rfl, -⟩ := batteryRam?_eq_some_iff.mp battery
        refine ⟨image, cartridge, accepted, named, like.fillWork fun m found => ?_⟩
        have same : m = kept := Option.some_inj.mp (found.symm.trans held)
        rw [same]
        exact answer.2.size_toArray

/-- Every call of a host keeps the board and the label together. -/
theorem Labelled.perform {σ : Type} [Storage σ] (h : c.Labelled) (call : Call σ) :
    (c.perform call).Labelled := by
  cases call with
  | load image => exact h.load image
  | eject => exact labelled_of_none rfl
  | powerOn => exact h.powerOn
  | apply settings => exact h.apply settings
  | plug number kind =>
    show (c.orKeep (c.plugAt number kind)).Labelled
    unfold plugAt orKeep
    cases Port.ofNumber number with
    | error e => exact h
    | ok port => exact h
  | restore storage => exact h.restore storage
  | save storage => exact h
  | takeSamples => exact h
  | listen on => exact h
  | step | runFrame | await limit | reset | update port input => exact h.playing trivial

/-- The work RAM in the slot is what the header declares. -/
theorem Labelled.workRam (h : c.Labelled) {label : Label} (labelled : c.label = some label) :
    ∃ m, c.bus.board.banks? = some m ∧ m.workRam.size = label.header.workRamSize ∧
      m.battery = label.header.hasBattery := by
  obtain ⟨image, cartridge, accepted, rfl, like⟩ := h label labelled
  obtain ⟨m, found, chips⟩ := Cartridge.chips_of_like accepted like
  exact ⟨m, found, chips.workSize.trans Array.size_replicate, chips.battery⟩

end Console

end Famiclone
