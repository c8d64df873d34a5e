import Famiclone.Console.Battery
import Famiclone.Console.TestProgram

/-!
# The calls of a host

A host uses a console through a fixed set of calls, in any order. A call that is refused leaves the
console as it is, but for the step that met the refused opcode.
-/
namespace Famiclone

/-- What a host can ask of a console. Saved memory is kept in a storage of any kind. -/
inductive Call (σ : Type) where
  | load (image : Array UInt8)
  | eject
  | powerOn
  | reset
  | step
  | runFrame
  | await (limit : Nat)
  | apply (settings : Settings)
  | plug (port : Nat) (kind : Option DeviceKind)
  | update (port : Nat) (input : DeviceInput)
  | restore (storage : σ)
  | save (storage : σ)
  | takeSamples
  | listen (on : Bool)

namespace Console

variable {σ : Type} [Storage σ]

/-- Plug a device into the port with a number, if there is such a port. -/
def plugAt (c : Console) (number : Nat) (kind : Option DeviceKind) : Except PortError Console :=
  (Port.ofNumber number).map fun port => c.plug port kind

/-- Make a change to the device in the port with a number. -/
def updateAt (c : Console) (number : Nat) (input : DeviceInput) : Except PortError Console :=
  (Port.ofNumber number).bind fun port => c.update port input

/-- The console behind a call that may be refused. -/
def orKeep {ε : Type} (c : Console) (answer : Except ε Console) : Console :=
  match answer with
  | .ok changed => changed
  | .error _ => c

def perform (c : Console) : Call σ → Console
  | .load image => c.orKeep (c.load image)
  | .eject => c.eject
  | .powerOn => c.powerOn
  | .reset => c.reset
  | .step => c.step.2
  | .runFrame => c.runFrame.2
  | .await limit => (c.await limit).2
  | .apply settings => c.apply settings
  | .plug port kind => c.orKeep (c.plugAt port kind)
  | .update port input => c.orKeep (c.updateAt port input)
  | .restore storage => c.orKeep ((c.restore storage).map (·.2))
  -- What is written to the storage is of no concern to the console.
  | .save _ => c
  | .takeSamples => c.takeSamples.2
  | .listen on => c.listen on

/-- What a call tells the host about its work. -/
inductive Answer (σ : Type) where
  | done
  | load (answer : Except LoadError Unit)
  | step (answer : Except ConsoleError Nat)
  | frame (answer : Except ConsoleError Unit)
  | report (answer : Except ConsoleError Outcome)
  | port (answer : Except PortError Unit)
  | restored (answer : Except BatteryError Bool)
  | saved (answer : Except BatteryError Bool) (storage : σ)

def answer (c : Console) : Call σ → Answer σ
  | .load image => .load ((c.load image).map fun _ => ())
  | .step => .step c.step.1
  | .runFrame => .frame c.runFrame.1
  | .await limit => .report (c.await limit).1
  | .plug port kind => .port ((c.plugAt port kind).map fun _ => ())
  | .update port input => .port ((c.updateAt port input).map fun _ => ())
  | .restore storage => .restored ((c.restore storage).map (·.1))
  | .save storage => .saved (c.save storage).1 (c.save storage).2
  | .eject | .powerOn | .reset | .apply _ | .takeSamples | .listen _ => .done

/-! ## Settings, region and label -/

/-- What running leaves alone in a console beside its machine. -/
def fixture (c : Console) : Settings × Region × Option Label := (c.settings, c.region, c.label)

theorem fixture_eq_iff {c : Console} {settings : Settings} {region : Region} {label : Option Label} :
    c.fixture = (settings, region, label) ↔
      c.settings = settings ∧ c.region = region ∧ c.label = label := by
  simp only [fixture, Prod.mk.injEq]

theorem label_of_fixture {c d : Console} (same : d.fixture = c.fixture) : d.label = c.label :=
  (fixture_eq_iff.mp same).2.2

theorem load_label {c : Console} {image : Array UInt8} {cartridge : Cartridge}
    (accepted : Cartridge.ofImage image = .ok cartridge) :
    (c.orKeep (c.load image)).label = some ⟨cartridge.header, cartridge.id⟩ := by
  unfold load orKeep
  rw [accepted]
  rfl

@[simp] theorem reset_fixture (c : Console) : c.reset.fixture = c.fixture := by
  unfold reset fixture
  dsimp only

@[simp] theorem powerOn_fixture (c : Console) : c.powerOn.fixture = c.fixture := by
  unfold powerOn fixture
  dsimp only

@[simp] theorem step_fixture (c : Console) : c.step.2.fixture = c.fixture := by
  unfold step
  split
  · rfl
  · generalize Exec.step c.machine = answered
    rfl

theorem not_isNone_of_loaded {c : Console} (loaded : c.label.isSome) : ¬ c.label.isNone := by
  rw [Option.isSome_iff_exists] at loaded
  obtain ⟨label, found⟩ := loaded
  simp [found]

theorem step_machine {c : Console} (loaded : c.label.isSome) :
    c.step.2.machine = (Exec.step c.machine).2 := by
  unfold step
  rw [if_neg (not_isNone_of_loaded loaded)]
  rfl

@[simp] theorem deliver_fixture (c : Console) : c.deliver.fixture = c.fixture := by
  unfold deliver fixture
  dsimp only
  split <;> rfl

@[simp] theorem runFrame_fixture (c : Console) : c.runFrame.2.fixture = c.fixture := by
  unfold runFrame
  split
  · rfl
  · split
    · unfold fixture
      dsimp only
    · exact deliver_fixture _

/-- A console with new settings in the region it has. -/
def adjusted (c : Console) (settings : Settings) : Console :=
  { ((c.mapCpu fun cpu => { cpu with strict := settings.strictOpcodes }).mapBus fun m =>
      { m with sound := m.sound.setSettings settings.audio }).mapPorts fun p =>
        ensure .two settings.devices.port2 (ensure .one settings.devices.port1 p) with settings }

theorem apply_eq (c : Console) (settings : Settings) :
    c.apply settings =
      let region := settings.region.resolve (c.label.bind fun l => l.header.regionHint)
      let switched := (c.adjusted settings).switchRegion region
      if region = (c.adjusted settings).region then c.adjusted settings
      else if switched.label.isSome then switched.powerOn else switched := rfl

/-! ## Rows of calls -/

def performAll (c : Console) (calls : List (Call σ)) : Console := calls.foldl perform c

theorem performAll_nil (c : Console) : c.performAll ([] : List (Call σ)) = c := rfl

theorem performAll_load (c : Console) (image : Array UInt8) (calls : List (Call σ)) :
    c.performAll (.load image :: calls) = (c.orKeep (c.load image)).performAll calls := rfl

def answers (c : Console) : List (Call σ) → List (Answer σ)
  | [] => []
  | call :: calls => c.answer call :: (c.perform call).answers calls

/-- What every call keeps, every row of calls keeps. -/
theorem performAll_keeps {P : Console → Prop} (allowed : Call σ → Prop)
    (step : ∀ c call, allowed call → P c → P (c.perform call)) (calls : List (Call σ))
    (ok : ∀ call ∈ calls, allowed call) (c : Console) (h : P c) : P (c.performAll calls) := by
  induction calls generalizing c with
  | nil => exact h
  | cons call calls ih =>
    have first := step c call (ok call (List.mem_cons_self ..)) h
    exact ih (fun next mem => ok next (List.mem_cons_of_mem _ mem)) _ first

end Console

end Famiclone
