import Famiclone.Proofs.Console.Calls
import Famiclone.Proofs.Processor.Course

/-!
# Playing

While a host plays it runs the console, presses the reset button and moves the devices. The machine
then goes through changes of its own, and between them the host takes pictures and sound out. A fact
about the machine that all of these keep is kept by every call that plays, and one that power, cartridges
and settings keep too is kept by every call.
-/
namespace Famiclone

/-- A fact about a machine that its host does not break. -/
structure Machine.HostKeeps (P : Machine Mainboard → Prop) : Prop where
  taken : ∀ m, P m → P (Console.takeFinished m).2
  heard : ∀ m, P m → P { m with bus := { m.bus with sound := m.bus.sound.takeSamples.2 } }
  moved : ∀ m ports, P m → P { m with bus := { m.bus with ports } }

/-- A fact about a machine that neither its steps nor its host break. It may fail within a step. -/
structure Machine.Enduring (P : Machine Mainboard → Prop) : Prop extends HostKeeps P where
  step : ∀ m, P m → P (Exec.step m).2
  reset : ∀ m, P m → P (Exec.reset { m with bus := m.bus.reset }).2

/-- A fact about a machine that neither its changes nor its host break. -/
structure Machine.Kept (P : Machine Mainboard → Prop) : Prop extends HostKeeps P where
  change : ∀ {m n}, Change m n → P m → P n
  reset : ∀ m, P m → P { m with bus := m.bus.reset }

/-- A fact about a machine that is kept whatever is done to the console. -/
structure Machine.Lasting (P : Machine Mainboard → Prop) : Prop extends Enduring P where
  slot : ∀ m board, P m → P { m with bus := { m.bus with board } }
  audio : ∀ m audio, P m → P { m with bus := { m.bus with sound := m.bus.sound.setSettings audio } }
  strict : ∀ m strict, P m → P { m with cpu := { m.cpu with strict } }
  region : ∀ m region, P m → P { m with bus := m.bus.setRegion region }
  power : ∀ c : Console, P c.machine → P c.powerOn.machine

/-- The calls that play the cartridge in the slot. -/
def Call.Playing {σ : Type} : Call σ → Prop
  | .step | .runFrame | .await _ | .reset | .update .. => True
  | _ => False

namespace Machine.Kept

variable {P : Machine Mainboard → Prop}

theorem course (kept : Kept P) {m n : Machine Mainboard} (course : m.Course n) (h : P m) : P n :=
  course.keeps (fun _ _ change => kept.change change) h

theorem enduring (kept : Kept P) : Enduring P where
  toHostKeeps := kept.toHostKeeps
  step m h := kept.course (Exec.step_stepwise m) h
  reset m h := kept.course (Exec.reset_stepwise _) (kept.reset m h)

end Machine.Kept

namespace Machine.Enduring

variable {P : Machine Mainboard → Prop} {c : Console}

theorem stepCall (enduring : Enduring P) (h : P c.machine) : P c.step.2.machine := by
  unfold Console.step
  split
  · exact h
  · exact enduring.step c.machine h

theorem resetButton (enduring : Enduring P) (h : P c.machine) : P c.reset.machine := by
  unfold Console.reset
  dsimp only
  exact enduring.reset c.machine h

theorem runSteps (enduring : Enduring P) (limit : Nat) {m : Machine Mainboard} (h : P m) :
    P (Console.runSteps limit m).2 := by
  induction limit generalizing m with
  | zero => exact h
  | succ limit ih =>
    have first := enduring.step m h
    unfold Console.runSteps
    generalize Exec.step m = answered at first
    obtain ⟨answer, next⟩ := answered
    cases answer with
    | error e => exact first
    | ok cycles =>
      have asked := enduring.taken _ first
      dsimp only
      split
      · exact asked
      · exact ih asked

theorem deliver (enduring : Enduring P) (h : P c.machine) : P c.deliver.machine := by
  unfold Console.deliver
  dsimp only
  split <;> exact enduring.heard _ h

theorem runFrame (enduring : Enduring P) (h : P c.machine) : P c.runFrame.2.machine := by
  unfold Console.runFrame
  split
  · exact h
  · have run := enduring.runSteps (Console.stepsPerFrame c.bus.picture.region) h
    generalize Console.runSteps (Console.stepsPerFrame c.bus.picture.region) c.machine = answered at run
    obtain ⟨answer, machine⟩ := answered
    cases answer with
    | error e => exact run
    | ok u => exact enduring.deliver (c := { c with machine }) run

theorem awaitFrom (enduring : Enduring P) (total delay left frame : Nat) (due : Option Nat)
    (h : P c.machine) : P (Console.awaitFrom total delay left frame due c).2.machine := by
  induction left generalizing frame due c with
  | zero => exact h
  | succ left ih =>
    have run := enduring.runFrame h
    unfold Console.awaitFrom
    generalize c.runFrame = answered at run
    obtain ⟨answer, next⟩ := answered
    cases answer with
    | error e => exact run
    | ok u =>
      dsimp only
      split
      · exact run
      · split
        · exact ih _ _ (enduring.resetButton run)
        · exact ih _ _ run
      · exact ih _ _ run
      · exact ih _ _ run

theorem updateAt (enduring : Enduring P) (number : Nat) (input : DeviceInput) (h : P c.machine) :
    P (c.orKeep (c.updateAt number input)).machine := by
  unfold Console.updateAt Console.orKeep
  cases Port.ofNumber number with
  | error e => exact h
  | ok port =>
    unfold Console.update
    simp only [Except.bind]
    cases c.bus.ports.update port input with
    | error e => exact h
    | ok ports => exact enduring.moved _ ports h

/-- Playing keeps what steps and the reset sequence keep. -/
theorem perform {σ : Type} [Storage σ] (enduring : Enduring P) {call : Call σ} (playing : call.Playing)
    (h : P c.machine) : P (c.perform call).machine := by
  cases call with
  | step => exact enduring.stepCall h
  | runFrame => exact enduring.runFrame h
  | await limit => exact enduring.awaitFrom limit _ limit 0 none h
  | reset => exact enduring.resetButton h
  | update port input => exact enduring.updateAt port input h
  | _ => exact playing.elim

end Machine.Enduring

/-- Playing keeps what the machine keeps. -/
theorem Machine.Kept.perform {σ : Type} [Storage σ] {P : Machine Mainboard → Prop} (kept : Kept P)
    {c : Console} {call : Call σ} (playing : call.Playing) (h : P c.machine) :
    P (c.perform call).machine :=
  kept.enduring.perform playing h

namespace Machine.Lasting

variable {P : Machine Mainboard → Prop} (lasting : Lasting P) {c : Console}
include lasting

theorem switchRegion (region : Region) (h : P c.machine) : P (c.switchRegion region).machine := by
  unfold Console.switchRegion
  split
  · exact h
  · exact lasting.region c.machine region h

theorem load (image : Array UInt8) (h : P c.machine) : P (c.orKeep (c.load image)).machine := by
  unfold Console.load Console.orKeep
  cases Cartridge.ofImage image with
  | error e => exact h
  | ok cartridge =>
    have switched := lasting.switchRegion (c.settings.region.resolve cartridge.header.regionHint) h
    show P (c.insert cartridge).machine
    unfold Console.insert
    exact lasting.power _ (lasting.slot _ cartridge.board switched)

theorem apply (settings : Settings) (h : P c.machine) : P (c.apply settings).machine := by
  have changed (ports : Ports) := lasting.moved _ ports
    (lasting.audio _ settings.audio (lasting.strict _ settings.strictOpcodes h))
  unfold Console.apply
  dsimp only
  split
  · exact changed _
  · have switched (d : Console) (same : P d.machine) :=
      lasting.switchRegion (settings.region.resolve (c.label.bind fun l => l.header.regionHint)) same
    split
    · exact lasting.power _ (switched _ (changed _))
    · exact switched _ (changed _)

theorem plugAt (number : Nat) (kind : Option DeviceKind) (h : P c.machine) :
    P (c.orKeep (c.plugAt number kind)).machine := by
  unfold Console.plugAt Console.orKeep
  cases Port.ofNumber number with
  | error e => exact h
  | ok port => exact lasting.moved c.machine _ h

theorem restore {σ : Type} [Storage σ] (storage : σ) (h : P c.machine) :
    P (c.orKeep ((c.restore storage).map (·.2))).machine := by
  unfold Console.restore Console.orKeep
  cases c.label with
  | none => exact h
  | some label =>
    cases c.batteryRam? with
    | none => exact h
    | some ram =>
      dsimp only
      cases Storage.load storage label.id ram.toVector with
      | error e => exact h
      | ok answer => exact lasting.slot c.machine _ h

/-- Every call of a host keeps what lasts. -/
theorem perform {σ : Type} [Storage σ] (call : Call σ) (h : P c.machine) :
    P (c.perform call).machine := by
  cases call with
  | load image => exact lasting.load image h
  | eject => exact lasting.slot c.machine .empty h
  | powerOn => exact lasting.power c h
  | apply settings => exact lasting.apply settings h
  | plug port kind => exact lasting.plugAt port kind h
  | restore storage => exact lasting.restore storage h
  | save storage => exact h
  | takeSamples => exact h
  | listen on => exact h
  | step => exact lasting.stepCall h
  | runFrame => exact lasting.runFrame h
  | await limit => exact lasting.awaitFrom limit _ limit 0 none h
  | reset => exact lasting.resetButton h
  | update port input => exact lasting.updateAt port input h

/-- What lasts holds of a console from its building on. -/
theorem performAll {σ : Type} [Storage σ] (calls : List (Call σ)) (h : P c.machine) :
    P (c.performAll calls).machine :=
  Console.performAll_keeps (P := fun c => P c.machine) (fun _ : Call σ => True)
    (fun _ call _ kept => lasting.perform call kept) calls (fun _ _ => trivial) c h

end Machine.Lasting

/-! ## Settings, region and label -/

namespace Console

@[simp] theorem awaitFrom_fixture (total delay left frame : Nat) (due : Option Nat) (c : Console) :
    (awaitFrom total delay left frame due c).2.fixture = c.fixture := by
  induction left generalizing frame due c with
  | zero => rfl
  | succ left ih =>
    have run := c.runFrame_fixture
    unfold awaitFrom
    generalize c.runFrame = answered at run
    obtain ⟨answer, next⟩ := answered
    cases answer with
    | error e => exact run
    | ok u =>
      dsimp only
      split
      · exact run
      · split
        · rw [ih, reset_fixture]
          exact run
        · rw [ih]
          exact run
      · rw [ih]
        exact run
      · rw [ih]
        exact run

@[simp] theorem updateAt_fixture (c : Console) (number : Nat) (input : DeviceInput) :
    (c.orKeep (c.updateAt number input)).fixture = c.fixture := by
  unfold updateAt orKeep
  cases Port.ofNumber number with
  | error e => rfl
  | ok port =>
    unfold update
    simp only [Except.bind]
    cases c.bus.ports.update port input <;> rfl

theorem perform_fixture {σ : Type} [Storage σ] (c : Console) {call : Call σ}
    (playing : call.Playing) : (c.perform call).fixture = c.fixture := by
  cases call with
  | step => exact c.step_fixture
  | runFrame => exact c.runFrame_fixture
  | await limit => exact awaitFrom_fixture limit _ limit 0 none c
  | reset => exact c.reset_fixture
  | update port input => exact c.updateAt_fixture port input
  | _ => exact playing.elim

end Console

end Famiclone
