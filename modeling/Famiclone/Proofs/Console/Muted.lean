import Famiclone.Proofs.Console.PowerCycle
import Famiclone.Proofs.Processor.Unseen

/-!
# Consoles without their sound output

The sampler listens to the channels, and nothing listens to the sampler. Muting a console switches its
output off and forgets the samples in it. A muted console goes on as the console does, and muting what it
becomes gives the same again, for every call of a host. So consoles that are the same once muted stay so
for ever.
-/
namespace Famiclone

/-! ## The mainboard -/

def AudioSettings.off : AudioSettings := { enabled := false }

def Sound.muted (s : Sound) : Sound := { s with sampler := .initial s.region .off }

theorem Sound.tick_muted (s : Sound) : s.muted.tick = s.tick.muted := by
  have off : s.muted.sampler.settings.enabled = false := rfl
  unfold tick
  dsimp only
  rw [off, if_neg Bool.false_ne_true]
  split <;> rfl

def Mainboard.muted (m : Mainboard) : Mainboard := { m with sound := m.sound.muted }

namespace Mainboard

@[simp] theorem muted_profile (m : Mainboard) : m.muted.profile = m.profile := rfl

@[simp] theorem muted_lines (m : Mainboard) : m.muted.lines = m.lines := rfl

theorem clock_muted (m : Mainboard) : m.muted.clock = m.clock.muted := by
  unfold clock muted
  dsimp only
  rw [Sound.tick_muted]
  rfl

theorem access_muted (m : Mainboard) (address : UInt16) :
    m.muted.access address = ((m.access address).1, (m.access address).2.muted) := by
  unfold access
  rw [muted_profile]
  cases Place.of m.profile address <;> rfl

theorem store_muted (m : Mainboard) (address : UInt16) (value : UInt8) :
    m.muted.store address value = (m.store address value).muted := by
  unfold store
  rw [muted_profile]
  cases Place.of m.profile address with
  | port p => cases p <;> rfl
  | register => dsimp only; split <;> rfl
  | workRam cell =>
    show m.muted.writeWork cell value = (m.writeWork cell value).muted
    unfold writeWork
    show (if m.board.workRam?.isSome then _ else _) = _
    split <;> rfl
  | _ => rfl

theorem peek_muted (m : Mainboard) (address : UInt16) : m.muted.peek address = m.peek address := by
  unfold peek
  rw [muted_profile]
  cases Place.of m.profile address <;> rfl

theorem read_muted (m : Mainboard) (address : UInt16) :
    m.muted.read address = ((m.read address).1, (m.read address).2.muted) := by
  unfold read
  rw [access_muted]
  dsimp only
  rw [← clock_muted]
  split <;> rfl

theorem write_muted (m : Mainboard) (address : UInt16) (value : UInt8) :
    m.muted.write address value = (m.write address value).muted := by
  unfold write
  dsimp only
  rw [store_muted, ← clock_muted]
  rfl

theorem muted_eq_iff (m n : Mainboard) :
    n.muted = m.muted ↔ ∃ sampler, n = { m with sound := { m.sound with sampler } } := by
  refine ⟨fun same => ⟨n.sound.sampler, ?_⟩, ?_⟩
  · exact congrArg
      (fun m : Mainboard => { m with sound := { m.sound with sampler := n.sound.sampler } }) same
  · rintro ⟨sampler, rfl⟩
    rfl

/-- The processor does not see whether the output is on. -/
theorem muted_unseen : ProcessorBus.Unseen muted where
  read := read_muted
  write := write_muted
  lines := muted_lines
  takeTransfer m := by
    show m.muted.takeTransfer = (m.takeTransfer.1, m.takeTransfer.2.muted)
    have page : m.muted.spritePage = m.spritePage := rfl
    unfold takeTransfer
    rw [page]
    cases m.spritePage <;> rfl
  deliver _ _ := rfl
  transferLimit _ := rfl

end Mainboard

/-! ## Running a console -/

def Settings.muted (s : Settings) : Settings := { s with audio := .off }

theorem Settings.muted_eq_iff (s t : Settings) :
    t.muted = s.muted ↔ ∃ audio, t = { s with audio } := by
  refine ⟨fun same => ⟨t.audio, ?_⟩, ?_⟩
  · exact congrArg (fun s : Settings => { s with audio := t.audio }) same
  · rintro ⟨audio, rfl⟩
    rfl

/-- A call without settings of the sound. -/
def Call.muted {σ : Type} : Call σ → Call σ
  | apply settings => apply settings.muted
  | call => call

/-- A finished frame without its sound. -/
def Delivery.muted (d : Delivery) : Delivery := { d with samples := #[] }

namespace Console

open Mainboard (muted_unseen)

/-- A console with its sound output switched off and no samples. -/
def muted (c : Console) : Console :=
  { c with
    settings := c.settings.muted
    machine := c.machine.onBus Mainboard.muted
    samples := #[]
    listener := c.listener.map fun heard => heard.map Delivery.muted }

@[simp] theorem muted_label (c : Console) : c.muted.label = c.label := rfl

@[simp] theorem muted_region (c : Console) : c.muted.region = c.region := rfl

theorem step_muted (c : Console) : c.muted.step = (c.step.1, c.step.2.muted) := by
  have ran : Exec.step c.muted.machine =
      ((Exec.step c.machine).1, (Exec.step c.machine).2.onBus Mainboard.muted) :=
    muted_unseen.step c.machine
  unfold step
  rw [muted_label, ran]
  split <;> rfl

theorem takeFinished_muted (m : Machine Mainboard) :
    takeFinished (m.onBus Mainboard.muted) =
      ((takeFinished m).1, (takeFinished m).2.onBus Mainboard.muted) := rfl

theorem runSteps_muted (limit : Nat) (m : Machine Mainboard) :
    runSteps limit (m.onBus Mainboard.muted) =
      ((runSteps limit m).1, (runSteps limit m).2.onBus Mainboard.muted) := by
  induction limit generalizing m with
  | zero => rfl
  | succ limit ih =>
    unfold runSteps
    rw [muted_unseen.step]
    rcases Exec.step m with ⟨_ | _, n⟩
    · rfl
    · dsimp only
      rw [takeFinished_muted]
      dsimp only
      split
      · rfl
      · exact ih _

theorem deliver_muted (c : Console) : c.muted.deliver = c.deliver.muted := by
  rcases c with ⟨settings, region, label, machine, samples, frames, _ | heard⟩
  · rfl
  · let taken := machine.bus.sound.takeSamples
    let behind : Machine Mainboard := { machine with bus := { machine.bus with sound := taken.2 } }
    let last : Delivery := ⟨machine.bus.picture.screen, taken.1⟩
    have pushed : (heard.map Delivery.muted).push last.muted =
        (heard.push last).map Delivery.muted := Array.map_push.symm
    exact congrArg (fun heard => Console.mk settings.muted region label
      (behind.onBus Mainboard.muted) #[] (frames + 1) (some heard)) pushed

theorem runFrame_muted (c : Console) : c.muted.runFrame = (c.runFrame.1, c.runFrame.2.muted) := by
  have ran : runSteps (stepsPerFrame c.muted.bus.picture.region) c.muted.machine =
      ((runSteps (stepsPerFrame c.bus.picture.region) c.machine).1,
        (runSteps (stepsPerFrame c.bus.picture.region) c.machine).2.onBus Mainboard.muted) :=
    runSteps_muted _ c.machine
  unfold runFrame
  rw [muted_label, ran]
  split
  · rfl
  · rcases runSteps (stepsPerFrame c.bus.picture.region) c.machine with ⟨_ | _, m⟩
    · rfl
    · exact congrArg (Prod.mk _) (deliver_muted { c with machine := m })

theorem reset_muted (c : Console) : c.muted.reset = c.reset.muted := by
  have start : ({ c.muted.machine with bus := c.muted.machine.bus.reset } : Machine Mainboard) =
      ({ c.machine with bus := c.machine.bus.reset } : Machine Mainboard).onBus Mainboard.muted := rfl
  unfold reset
  dsimp only at start ⊢
  rw [start, muted_unseen.reset]
  generalize Exec.reset (_ : Machine Mainboard) = ran
  rfl

theorem verdict_muted (c : Console) : c.muted.verdict = c.verdict :=
  congrArg Verdict.ofMemory (funext fun address => c.bus.peek_muted address)

/-- A reset by a test program and the report at its end are the same for a muted console. -/
theorem awaitFrom_muted (total delay left frame : Nat) (due : Option Nat) (c : Console) :
    awaitFrom total delay left frame due c.muted =
      ((awaitFrom total delay left frame due c).1,
        (awaitFrom total delay left frame due c).2.muted) := by
  induction left generalizing frame due c with
  | zero => rfl
  | succ left ih =>
    unfold awaitFrom
    rw [runFrame_muted]
    rcases c.runFrame with ⟨_ | _, ran⟩
    · rfl
    · dsimp only
      rw [verdict_muted, reset_muted]
      cases ran.verdict with
      | done outcome => rfl
      | resetRequested =>
        dsimp only
        split
        · exact ih _ _ _
        · exact ih _ _ _
      | running | absent => exact ih _ _ _

theorem await_muted (c : Console) (limit : Nat) :
    c.muted.await limit = ((c.await limit).1, (c.await limit).2.muted) :=
  awaitFrom_muted _ _ _ _ _ c

/-! ## Cartridges, settings and ports -/

theorem switchRegion_muted (c : Console) (region : Region) :
    c.muted.switchRegion region = (c.switchRegion region).muted := by
  unfold switchRegion
  rw [muted_region]
  split <;> rfl

theorem powerOn_muted (c : Console) : c.muted.powerOn = c.powerOn.muted := by
  let started (c : Console) : Machine Mainboard :=
    ⟨{ Processor.initial with strict := c.settings.strictOpcodes },
      { c.machine.bus.powerOn with board := c.machine.bus.powerOn.board.reset }⟩
  have start : started c.muted = (started c).onBus Mainboard.muted := rfl
  have ran := muted_unseen.powerOn (started c)
  rw [← start] at ran
  unfold powerOn
  dsimp only [started] at ran ⊢
  rw [ran]
  generalize Exec.powerOn (_ : Machine Mainboard) = ran
  rfl

theorem fill_muted (c : Console) (cartridge : Cartridge) :
    c.muted.fill cartridge = (c.fill cartridge).muted := by
  have region : c.muted.regionFor cartridge = c.regionFor cartridge := rfl
  unfold fill
  rw [region, switchRegion_muted]
  rfl

theorem insert_muted (c : Console) (cartridge : Cartridge) :
    c.muted.insert cartridge = (c.insert cartridge).muted := by
  rw [insert_eq, insert_eq, fill_muted, powerOn_muted]

theorem load_muted (c : Console) (image : Array UInt8) :
    c.muted.load image = (c.load image).map muted := by
  unfold load
  cases Cartridge.ofImage image with
  | error e => rfl
  | ok cartridge => exact congrArg Except.ok (c.insert_muted cartridge)

theorem adjusted_muted (c : Console) (settings : Settings) :
    c.muted.adjusted settings.muted = (c.adjusted settings).muted := rfl

theorem apply_muted (c : Console) (settings : Settings) :
    c.muted.apply settings.muted = (c.apply settings).muted := by
  have choice : settings.muted.region = settings.region := rfl
  rw [apply_eq, apply_eq, muted_label, choice, adjusted_muted]
  dsimp only
  rw [switchRegion_muted, powerOn_muted, muted_region, muted_label]
  split
  · rfl
  · split <;> rfl

theorem plug_muted (c : Console) (port : Port) (kind : Option DeviceKind) :
    c.muted.plug port kind = (c.plug port kind).muted := rfl

theorem plugAt_muted (c : Console) (number : Nat) (kind : Option DeviceKind) :
    c.muted.plugAt number kind = (c.plugAt number kind).map muted := by
  unfold plugAt
  cases Port.ofNumber number with
  | error e => rfl
  | ok port => exact congrArg Except.ok (c.plug_muted port kind)

theorem updateAt_muted (c : Console) (number : Nat) (input : DeviceInput) :
    c.muted.updateAt number input = (c.updateAt number input).map muted := by
  unfold updateAt
  cases Port.ofNumber number with
  | error e => rfl
  | ok port =>
    have ports : c.muted.bus.ports = c.bus.ports := rfl
    show c.muted.update port input = (c.update port input).map muted
    unfold update
    rw [ports]
    cases c.bus.ports.update port input <;> rfl

/-! ## Saved memory -/

variable {σ : Type} [Storage σ]

theorem restore_muted (c : Console) (storage : σ) :
    c.muted.restore storage = (c.restore storage).map fun r => (r.1, r.2.muted) := by
  have ram : c.muted.batteryRam? = c.batteryRam? := rfl
  unfold restore
  rw [muted_label, ram]
  cases c.label with
  | none => rfl
  | some label =>
    cases c.batteryRam? with
    | none => rfl
    | some ram =>
      dsimp only
      cases Storage.load storage label.id ram.toVector <;> rfl

/-! ## Every call -/

theorem orKeep_muted {ε : Type} (c : Console) (answer : Except ε Console) :
    c.muted.orKeep (answer.map muted) = (c.orKeep answer).muted := by
  cases answer <;> rfl

/-- A call does the same to a muted console. -/
theorem perform_muted (c : Console) (call : Call σ) :
    c.muted.perform call.muted = (c.perform call).muted := by
  cases call with
  | load image =>
    show c.muted.orKeep (c.muted.load image) = (c.orKeep (c.load image)).muted
    rw [load_muted, orKeep_muted]
  | eject => rfl
  | powerOn => exact c.powerOn_muted
  | reset => exact c.reset_muted
  | step => exact congrArg Prod.snd c.step_muted
  | runFrame => exact congrArg Prod.snd c.runFrame_muted
  | await limit => exact congrArg Prod.snd (c.await_muted limit)
  | apply settings => exact c.apply_muted settings
  | plug port kind =>
    show c.muted.orKeep (c.muted.plugAt port kind) = (c.orKeep (c.plugAt port kind)).muted
    rw [plugAt_muted, orKeep_muted]
  | update port input =>
    show c.muted.orKeep (c.muted.updateAt port input) = (c.orKeep (c.updateAt port input)).muted
    rw [updateAt_muted, orKeep_muted]
  | restore storage =>
    show c.muted.orKeep ((c.muted.restore storage).map (·.2)) =
      (c.orKeep ((c.restore storage).map (·.2))).muted
    rw [restore_muted, ← orKeep_muted]
    cases c.restore storage <;> rfl
  | save storage => rfl
  | takeSamples => rfl
  | listen on =>
    cases on with
    | false => rfl
    | true =>
      have nothing : (#[] : Array Delivery).map Delivery.muted = #[] := Array.map_empty
      exact congrArg (fun heard => { c.muted with listener := some heard }) nothing.symm

/-- A call tells the same of a muted console. -/
theorem answer_muted (c : Console) (call : Call σ) :
    c.muted.answer call.muted = c.answer call := by
  have forgets {ε α γ : Type} (answer : Except ε α) (f : α → γ) :
      ((answer.map f).map fun _ => ()) = answer.map fun _ => () := by
    cases answer <;> rfl
  cases call with
  | load image =>
    show Answer.load ((c.muted.load image).map fun _ => ()) = .load ((c.load image).map fun _ => ())
    rw [load_muted, forgets]
  | step =>
    show Answer.step c.muted.step.1 = .step c.step.1
    rw [step_muted]
  | runFrame =>
    show Answer.frame c.muted.runFrame.1 = .frame c.runFrame.1
    rw [runFrame_muted]
  | await limit =>
    show Answer.report (c.muted.await limit).1 = .report (c.await limit).1
    rw [await_muted]
  | plug port kind =>
    show Answer.port ((c.muted.plugAt port kind).map fun _ => ()) =
      .port ((c.plugAt port kind).map fun _ => ())
    rw [plugAt_muted, forgets]
  | update port input =>
    show Answer.port ((c.muted.updateAt port input).map fun _ => ()) =
      .port ((c.updateAt port input).map fun _ => ())
    rw [updateAt_muted, forgets]
  | restore storage =>
    show Answer.restored ((c.muted.restore storage).map (·.1)) =
      .restored ((c.restore storage).map (·.1))
    rw [restore_muted]
    cases c.restore storage <;> rfl
  | save storage => rfl
  | eject | powerOn | reset | apply _ | takeSamples | listen _ => rfl

theorem performAll_muted (c : Console) (calls : List (Call σ)) :
    c.muted.performAll (calls.map Call.muted) = (c.performAll calls).muted := by
  induction calls generalizing c with
  | nil => rfl
  | cons call calls ih =>
    show (c.muted.perform call.muted).performAll (calls.map Call.muted) = _
    rw [perform_muted, ih]
    rfl

theorem answers_muted (c : Console) (calls : List (Call σ)) :
    c.muted.answers (calls.map Call.muted) = c.answers calls := by
  induction calls generalizing c with
  | nil => rfl
  | cons call calls ih =>
    show c.muted.answer call.muted ::
      (c.muted.perform call.muted).answers (calls.map Call.muted) = _
    rw [answer_muted, perform_muted, ih]
    rfl

/-! ## Consoles that differ in their sound output -/

/-- Two consoles that are the same but for the settings of the sound, the sampler and the samples. -/
structure SameButSound (c d : Console) : Prop where
  settings : ∃ audio, d.settings = { c.settings with audio }
  region : d.region = c.region
  label : d.label = c.label
  cpu : d.cpu = c.cpu
  bus : ∃ sampler, d.bus = { c.bus with sound := { c.bus.sound with sampler } }
  frames : d.frames = c.frames
  /-- The same pictures have been handed to a listener. -/
  screens : d.listener.map (·.map Delivery.screen) = c.listener.map (·.map Delivery.screen)

/-- What a listener has heard, muted, is what it has seen. -/
theorem screens_eq_iff (heard heard' : Option (Array Delivery)) :
    heard'.map (·.map Delivery.screen) = heard.map (·.map Delivery.screen) ↔
      heard'.map (·.map Delivery.muted) = heard.map (·.map Delivery.muted) := by
  have muted (heard : Option (Array Delivery)) : heard.map (·.map Delivery.muted) =
      (heard.map (·.map Delivery.screen)).map (·.map fun screen => ⟨screen, #[]⟩) := by
    cases heard with
    | none => rfl
    | some all =>
      have twice : (all.map Delivery.screen).map (fun screen => (⟨screen, #[]⟩ : Delivery)) =
          all.map Delivery.muted := Array.map_map
      exact congrArg some twice.symm
  have seen (heard : Option (Array Delivery)) : heard.map (·.map Delivery.screen) =
      (heard.map (·.map Delivery.muted)).map (·.map Delivery.screen) := by
    cases heard with
    | none => rfl
    | some all =>
      have twice : (all.map Delivery.muted).map Delivery.screen = all.map Delivery.screen :=
        Array.map_map
      exact congrArg some twice.symm
  refine ⟨fun same => ?_, fun same => ?_⟩
  · rw [muted heard', muted heard, same]
  · rw [seen heard', seen heard, same]

/-- Consoles are the same but for their sound if they are the same once muted. -/
theorem sameButSound_iff (c d : Console) : c.SameButSound d ↔ d.muted = c.muted := by
  refine ⟨fun same => ?_, fun same => ?_⟩
  · have settings := (Settings.muted_eq_iff c.settings d.settings).mpr same.settings
    have bus := (Mainboard.muted_eq_iff c.bus d.bus).mpr same.bus
    have heard := (screens_eq_iff c.listener d.listener).mp same.screens
    show Console.mk d.settings.muted d.region d.label ⟨d.cpu, d.bus.muted⟩ #[] d.frames
      (d.listener.map (·.map Delivery.muted)) = _
    rw [settings, same.region, same.label, same.cpu, bus, same.frames, heard]
    rfl
  · have settings : d.settings.muted = c.settings.muted := congrArg Console.settings same
    have region : d.muted.region = c.muted.region := congrArg Console.region same
    have label : d.muted.label = c.muted.label := congrArg Console.label same
    have cpu : d.muted.cpu = c.muted.cpu := congrArg Console.cpu same
    have bus : d.bus.muted = c.bus.muted := congrArg Console.bus same
    have frames : d.muted.frames = c.muted.frames := congrArg Console.frames same
    have heard : d.listener.map (·.map Delivery.muted) = c.listener.map (·.map Delivery.muted) :=
      congrArg Console.listener same
    exact ⟨(Settings.muted_eq_iff c.settings d.settings).mp settings, region, label, cpu,
      (Mainboard.muted_eq_iff c.bus d.bus).mp bus, frames,
      (screens_eq_iff c.listener d.listener).mpr heard⟩

/-- Consoles built alike but for the settings of the sound. -/
theorem build_sameButSound (settings : Settings) (audio : AudioSettings) (kind : PictureKind)
    (profile : MemoryProfile) :
    (build settings kind profile).SameButSound (build { settings with audio } kind profile) where
  settings := ⟨audio, rfl⟩
  region := rfl
  label := rfl
  cpu := rfl
  bus := ⟨.initial _ audio, rfl⟩
  frames := rfl
  screens := rfl

/-- Whatever a host does to two consoles that differ in their sound output, with settings of the sound of
its choice for each of them, they differ in nothing else behind it. Every call has told the same of both,
and the processor reads the same at every address and sees the same interrupts. -/
theorem sound_is_unseen {c d : Console} (same : c.SameButSound d) {calls calls' : List (Call σ)}
    (asked : calls'.map Call.muted = calls.map Call.muted) :
    (c.performAll calls).SameButSound (d.performAll calls') ∧ d.answers calls' = c.answers calls ∧
      (∀ address, ((d.performAll calls').bus.read address).1 =
        ((c.performAll calls).bus.read address).1) ∧
      (d.performAll calls').bus.lines = (c.performAll calls).bus.lines := by
  have muted := (sameButSound_iff c d).mp same
  have behind : (d.performAll calls').muted = (c.performAll calls).muted := by
    rw [← performAll_muted, ← performAll_muted, muted, asked]
  have bus : (d.performAll calls').bus.muted = (c.performAll calls).bus.muted :=
    congrArg Console.bus behind
  refine ⟨(sameButSound_iff _ _).mpr behind, ?_, fun address => ?_, ?_⟩
  · rw [← answers_muted, ← answers_muted c, muted, asked]
  · have read (m : Mainboard) : (m.read address).1 = (m.muted.read address).1 :=
      (congrArg Prod.fst (m.read_muted address)).symm
    rw [read, read (c.performAll calls).bus, bus]
  · rw [← Mainboard.muted_lines, bus, Mainboard.muted_lines]

/-- A session with a program that reads the status of the sound unit over and over again. -/
def listening (audio : AudioSettings) : List (Call MemoryStorage) :=
  let image := Cartridge.imageOfProgram [0xAD, 0x15, 0x40, 0x4C, 0x00, 0x80] 0x8000
  [.load image, .step, .apply { audio }, .runFrame, .powerOn, .runFrame, .takeSamples]

/-- A console that produces samples and one that does not, with a change of the volume in one of them and
of the rate in the other. -/
theorem sound_is_unseen_by_listening :
    let c := build {} .full .standard
    let d := build { audio := .off } .full .standard
    let calls := listening { volume := 0.5 }
    let calls' := listening { sampleRate := 8000 }
    c.SameButSound d ∧ calls'.map Call.muted = calls.map Call.muted ∧
      (c.performAll calls).SameButSound (d.performAll calls') ∧
      d.answers calls' = c.answers calls ∧
      (∀ address, ((d.performAll calls').bus.read address).1 =
        ((c.performAll calls).bus.read address).1) ∧
      (d.performAll calls').bus.lines = (c.performAll calls).bus.lines := by
  intro c d calls calls'
  have same : c.SameButSound d := build_sameButSound {} .off .full .standard
  have asked : calls'.map Call.muted = calls.map Call.muted := rfl
  exact ⟨same, asked, sound_is_unseen same asked⟩

end Console

end Famiclone
