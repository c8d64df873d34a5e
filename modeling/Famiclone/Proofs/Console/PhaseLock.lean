import Famiclone.Proofs.Cartridge.Image
import Famiclone.Proofs.Console.Clocks
import Famiclone.Proofs.Console.Configuration
import Famiclone.Storage.Memory

/-!
# All parts of the console keep step

The processor counts its cycles, and so do the mainboard and the sound unit; the picture unit passes a
fixed ratio of dots. The counters are bumped in different places, but each change of the machine moves
either all of them or none. A power cycle sets all of them back, and so does a change of the region
while a cartridge is in the slot.
-/
namespace Famiclone

namespace Machine

/-- The counters of the mainboard stand where the processor's cycles bring them. -/
def InStep (m : Machine Mainboard) : Prop := m.bus.clocks.InStep m.cpu.cycles

/-- Each change of a machine is a cycle for all parts, or for none. -/
theorem InStep.change {m n : Machine Mainboard} (change : Change m n) (h : m.InStep) :
    n.InStep := by
  cases change with
  | inner cpu cycles =>
    show m.bus.clocks.InStep cpu.cycles
    rw [cycles]
    exact h
  | read address =>
    show (m.bus.read address).2.clocks.InStep (m.cpu.cycles + 1)
    rw [Mainboard.read_clocks]
    exact h.advance
  | write address value =>
    show (m.bus.write address value).clocks.InStep (m.cpu.cycles + 1)
    rw [Mainboard.write_clocks]
    exact h.advance
  | take =>
    show m.bus.takeTransfer.2.clocks.InStep m.cpu.cycles
    rw [Mainboard.takeTransfer_clocks]
    exact h
  | deliver value => exact h

theorem takeFinished_clocks (m : Machine Mainboard) :
    (Console.takeFinished m).2.bus.clocks = m.bus.clocks := by
  unfold Console.takeFinished Mainboard.clocks
  dsimp only
  rw [PictureUnit.takeFinished_elapsed]

/-- Neither the machine nor its host brings the counters apart. -/
theorem inStep_kept : Kept InStep where
  change := InStep.change
  reset m h := by
    unfold InStep
    dsimp only
    rw [Mainboard.reset_clocks]
    exact h
  taken m h := by
    show (Console.takeFinished m).2.bus.clocks.InStep m.cpu.cycles
    rw [takeFinished_clocks]
    exact h
  heard _ h := h
  moved _ _ h := h

end Machine

namespace Console

/-- While there is a cartridge in the slot, the parts of the console keep step. -/
def Locked (c : Console) : Prop := c.label.isSome → c.machine.InStep

/-! ## Power and cartridges -/

theorem powerOn_inStep (c : Console) : c.powerOn.machine.InStep := by
  unfold powerOn
  dsimp only
  refine Machine.inStep_kept.course (Exec.powerOn_course _) ?_
  show Mainboard.clocks { c.machine.bus.powerOn with board := _ } |>.InStep 0
  have h := Clocks.inStep_zero c.machine.bus.ratio
  rw [← Mainboard.powerOn_clocks] at h
  exact h

theorem load_locked {c : Console} (image : Array UInt8) (h : c.Locked) :
    (c.orKeep (c.load image)).Locked := by
  unfold load orKeep
  cases Cartridge.ofImage image with
  | error e => exact h
  | ok cartridge => exact fun _ => powerOn_inStep _

theorem eject_locked (c : Console) : c.eject.Locked := by
  intro loaded
  exact absurd loaded Bool.false_ne_true

/-! ## Settings, devices and saved memory -/

/-- A change of the region without a cartridge may leave the counters apart; the next cartridge comes
with a power cycle. -/
theorem apply_locked {c : Console} (settings : Settings) (h : c.Locked) :
    (c.apply settings).Locked := by
  unfold apply
  dsimp only
  split
  · exact h
  · split
    · exact fun _ => powerOn_inStep _
    · intro loaded
      contradiction

theorem plugAt_locked {c : Console} (number : Nat) (kind : Option DeviceKind) (h : c.Locked) :
    (c.orKeep (c.plugAt number kind)).Locked := by
  unfold plugAt orKeep
  cases Port.ofNumber number <;> exact h

theorem restore_locked {σ : Type} [Storage σ] {c : Console} (storage : σ) (h : c.Locked) :
    (c.orKeep ((c.restore storage).map (·.2))).Locked := by
  unfold restore orKeep
  cases c.label with
  | none => exact h
  | some label =>
    cases c.batteryRam? with
    | none => exact h
    | some ram =>
      dsimp only
      cases Storage.load storage label.id ram.toVector with
      | error e => exact h
      | ok answer => exact h

/-! ## Every call -/

theorem play_locked {σ : Type} [Storage σ] {c : Console} {call : Call σ} (playing : call.Playing)
    (h : c.Locked) : (c.perform call).Locked := by
  intro loaded
  rw [label_of_fixture (c.perform_fixture playing)] at loaded
  exact Machine.inStep_kept.perform playing (h loaded)

theorem perform_locked {σ : Type} [Storage σ] {c : Console} (call : Call σ) (h : c.Locked) :
    (c.perform call).Locked := by
  cases call with
  | load image => exact load_locked image h
  | eject => exact eject_locked c
  | powerOn => exact fun _ => powerOn_inStep c
  | apply settings => exact apply_locked settings h
  | plug port kind => exact plugAt_locked port kind h
  | restore storage => exact restore_locked storage h
  | save storage => exact h
  | takeSamples => exact h
  | listen on => exact h
  | step => exact play_locked trivial h
  | runFrame => exact play_locked trivial h
  | await limit => exact play_locked trivial h
  | reset => exact play_locked trivial h
  | update port input => exact play_locked trivial h

/-- Whatever a host does with a console and whatever its program is, with a cartridge in the slot the
processor, the mainboard and the sound unit have counted the same number of cycles since power-on, the
picture unit has passed the whole dots of that many cycles, and the remainder is the rest. -/
theorem clocks_in_step {σ : Type} [Storage σ] (settings : Settings) (kind : PictureKind)
    (profile : MemoryProfile) (calls : List (Call σ))
    (loaded : ((build settings kind profile).performAll calls).label.isSome) :
    let c := (build settings kind profile).performAll calls
    let n := c.cpu.cycles
    c.bus.cycles = n ∧ c.bus.sound.chip.cycles = n ∧
      c.bus.remainder = n * c.region.dotsPerGroup % c.region.cyclesPerGroup ∧
      c.bus.picture.beam.elapsed = n * c.region.dotsPerGroup / c.region.cyclesPerGroup := by
  intro c n
  have start : (build settings kind profile).Locked := by
    intro cartridge
    exact absurd cartridge Bool.false_ne_true
  have locked := performAll_keeps (P := Locked) (fun _ : Call σ => True)
    (fun _ call _ h => perform_locked call h) calls (fun _ _ => trivial) _ start
  obtain ⟨cycles, sound, remainder, dots⟩ := locked loaded
  have tuned : c.bus.tuning = .standard c.region c.settings.audio :=
    (performAll_configured settings kind profile calls).tuning
  have ratio : c.bus.ratio = c.region.dotRatio := congrArg Tuning.clock tuned
  change c.bus.remainder = n * c.bus.ratio.dots % c.bus.ratio.cycles at remainder
  change c.bus.picture.beam.elapsed = n * c.bus.ratio.dots / c.bus.ratio.cycles at dots
  rw [ratio] at remainder dots
  exact ⟨cycles, sound, remainder, dots⟩

theorem isSome_label_behind_frame {σ : Type} [Storage σ] {c : Console} {image : Array UInt8}
    (accepted : ∃ cartridge, Cartridge.ofImage image = .ok cartridge) :
    (c.performAll ([.load image, .runFrame] : List (Call σ))).label.isSome := by
  obtain ⟨cartridge, accepted⟩ := accepted
  have run := label_of_fixture (runFrame_fixture (c.orKeep (c.load image)))
  have label := run.trans (load_label accepted)
  exact Option.isSome_iff_exists.mpr ⟨_, label⟩

/-- The console behind a frame of a loaded program. -/
theorem clocks_in_step_behind_frame :
    let c := (build {} .full .standard).performAll
      ([.load (Cartridge.imageOfProgram [0x4C, 0x00, 0x80] 0x8000), .runFrame] :
        List (Call MemoryStorage))
    let n := c.cpu.cycles
    c.label.isSome ∧ c.bus.cycles = n ∧ c.bus.sound.chip.cycles = n ∧
      c.bus.remainder = n * c.region.dotsPerGroup % c.region.cyclesPerGroup ∧
      c.bus.picture.beam.elapsed = n * c.region.dotsPerGroup / c.region.cyclesPerGroup := by
  have loaded := isSome_label_behind_frame (σ := MemoryStorage) (c := build {} .full .standard)
    (Cartridge.ofImage_imageOfProgram [0x4C, 0x00, 0x80] 0x8000)
  exact ⟨loaded, clocks_in_step {} .full .standard _ loaded⟩

end Console

end Famiclone
