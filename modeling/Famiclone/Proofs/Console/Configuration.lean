import Famiclone.Proofs.Console.PowerCycle
import Famiclone.Proofs.Sound.Supply

/-!
# A console runs with the settings it reports

The settings are copied into the processor, the sampler and the ports, and the region into every part
whose timing depends on it. Power, cartridges and settings each renew some of the copies, the others stay
as they are. What all calls together keep is that the copies agree with the settings and the region, so
settings that a console already runs with change nothing when they are applied.
-/
namespace Famiclone

/-! ## What the parts are built for -/

/-- What the parts of a mainboard are tuned to: the copies of the region and of the settings for
sound. -/
structure Tuning where
  /-- The dots and cycles that the mainboard counts. -/
  clock : DotRatio
  picture : Region
  sound : Region
  /-- The regions of the tables in the sound unit. -/
  noise : Region
  delta : Region
  sequencer : Region
  audio : AudioSettings
  /-- Cycles for each sample. -/
  samplePeriod : Float

/-- Everything belongs to one region and to the same settings. -/
def Tuning.standard (region : Region) (audio : AudioSettings) : Tuning :=
  ⟨region.dotRatio, region, region, region, region, region, audio, Sampler.periodOf region audio⟩

namespace SoundChip

/-- The regions of the tables. -/
def regions (c : SoundChip) : Region × Region × Region :=
  (c.noise.region, c.delta.region, c.sequencer.region)

theorem write_regions (c : SoundChip) (address : UInt16) (value : UInt8) :
    (c.write address value).regions = c.regions := by
  have delta (register : Fin 4) : (c.delta.write register value).region = c.delta.region := by
    match register with
    | 0 | 1 | 2 | 3 => rfl
  have noise (register : Fin 4) : (c.noise.write register value).region = c.noise.region := by
    match register with
    | 0 | 1 | 2 | 3 => rfl
  have enabled (on : Bool) : (c.delta.setEnabled on).region = c.delta.region := by
    unfold Delta.setEnabled
    split_ifs <;> rfl
  unfold write writeStatus regions
  dsimp only
  split
  · split
    · rfl
    · rfl
    · rfl
    · rw [noise]
    · rw [delta]
  · split
    · rw [enabled]
    · split <;> rfl

theorem tick_regions (c : SoundChip) : c.tick.regions = c.regions := by
  have noise (n : Noise) : n.clockTimer.region = n.region := by
    unfold Noise.clockTimer
    split <;> rfl
  have sequencer (s : Sequencer) : s.tick.2.region = s.region := by
    unfold Sequencer.tick
    split <;> rfl
  have timers (c : SoundChip) : c.clockTimers.regions = c.regions := by
    unfold clockTimers regions
    dsimp only
    rw [noise, Delta.clockTimer_region]
  have sequenced (s : Sequencer) (region : s.region = c.sequencer.region) :
      regions { c with cycles := c.cycles + 1, sequencer := s } = c.regions := by
    unfold regions
    rw [region]
  unfold tick
  dsimp only
  rw [timers]
  split <;> split <;> exact sequenced _ (sequencer _)

theorem reset_regions (c : SoundChip) : c.reset.regions = c.regions := rfl

end SoundChip

theorem PictureUnit.ticks_region {β : Type} [PictureBus β] (n : Nat) (u : PictureUnit) (board : β) :
    (ticks n u board).1.region = u.region := by
  induction n generalizing u board with
  | zero => rfl
  | succ n ih =>
    obtain ⟨rendering, moved⟩ := u.tick_timing board
    unfold ticks
    dsimp only
    rw [ih]
    exact congrArg Prod.fst moved

namespace Mainboard

def tuning (m : Mainboard) : Tuning where
  clock := m.ratio
  picture := m.picture.region
  sound := m.sound.region
  noise := m.sound.chip.noise.region
  delta := m.sound.chip.delta.region
  sequencer := m.sound.chip.sequencer.region
  audio := m.sound.sampler.settings
  samplePeriod := m.sound.sampler.period

theorem tuning_congr {m n : Mainboard} (ratio : n.ratio = m.ratio)
    (picture : n.picture.region = m.picture.region) (sound : n.sound.region = m.sound.region)
    (chip : n.sound.chip.regions = m.sound.chip.regions)
    (audio : n.sound.sampler.settings = m.sound.sampler.settings)
    (period : n.sound.sampler.period = m.sound.sampler.period) : n.tuning = m.tuning := by
  simp only [SoundChip.regions, Prod.mk.injEq] at chip
  obtain ⟨noise, delta, sequencer⟩ := chip
  unfold tuning
  rw [ratio, picture, sound, noise, delta, sequencer, audio, period]

theorem clock_tuning (m : Mainboard) : m.clock.tuning = m.tuning := by
  have chip : m.sound.tick.chip = m.sound.chip.tick := by
    unfold Sound.tick
    dsimp only
    split <;> rfl
  have absorbed (levels : Levels) : (m.sound.sampler.absorb levels).settings =
      m.sound.sampler.settings ∧ (m.sound.sampler.absorb levels).period = m.sound.sampler.period := by
    unfold Sampler.absorb
    dsimp only
    split <;> exact ⟨rfl, rfl⟩
  have sampler : m.sound.tick.sampler.settings = m.sound.sampler.settings ∧
      m.sound.tick.sampler.period = m.sound.sampler.period ∧
        m.sound.tick.region = m.sound.region := by
    unfold Sound.tick
    dsimp only
    split
    · exact ⟨(absorbed _).1, (absorbed _).2, rfl⟩
    · exact ⟨rfl, rfl, rfl⟩
  refine tuning_congr rfl (PictureUnit.ticks_region _ _ _) sampler.2.2 ?_ sampler.1 sampler.2.1
  show m.sound.tick.chip.regions = _
  rw [chip, SoundChip.tick_regions]

theorem access_tuning (m : Mainboard) (address : UInt16) :
    (m.access address).2.tuning = m.tuning := by
  unfold access
  cases Place.of m.profile address with
  | picture register =>
    have read := congrArg Prod.fst (PictureUnit.read_timing m.picture m.board register)
    exact tuning_congr rfl read rfl rfl rfl rfl
  | _ => rfl

theorem store_tuning (m : Mainboard) (address : UInt16) (value : UInt8) :
    (m.store address value).tuning = m.tuning := by
  have sound (supply : Supply) : tuning { m with sound := m.sound.write address value, supply } =
      m.tuning := tuning_congr rfl rfl rfl (SoundChip.write_regions _ _ _) rfl rfl
  unfold store
  cases Place.of m.profile address with
  | picture register =>
    have written := congrArg Prod.fst (PictureUnit.write_timing m.picture m.board register value)
    exact tuning_congr rfl written rfl rfl rfl rfl
  | workRam cell =>
    dsimp only [writeWork]
    split <;> rfl
  | soundStatus => exact sound _
  | register =>
    dsimp only
    split
    · rfl
    · exact sound m.supply
  | port port =>
    cases port with
    | one => rfl
    | two => exact sound _
  | ram cell => rfl
  | nothing => rfl
  | cartridge => rfl

theorem read_tuning (m : Mainboard) (address : UInt16) : (m.read address).2.tuning = m.tuning := by
  have found := m.access_tuning address
  unfold read
  dsimp only
  rw [clock_tuning]
  split <;> exact found

theorem write_tuning (m : Mainboard) (address : UInt16) (value : UInt8) :
    (m.write address value).tuning = m.tuning :=
  (clock_tuning _).trans (m.store_tuning address value)

theorem takeTransfer_tuning (m : Mainboard) : m.takeTransfer.2.tuning = m.tuning := by
  unfold takeTransfer
  split <;> rfl

theorem reset_tuning (m : Mainboard) : m.reset.tuning = m.tuning := by
  refine tuning_congr rfl ?_ rfl (SoundChip.reset_regions _) rfl rfl
  show m.picture.reset.region = _
  cases m.picture <;> rfl

end Mainboard

namespace Machine

/-- Nothing that the processor does touches the tuning. -/
theorem Change.tuning {m n : Machine Mainboard} (change : Change m n) :
    n.bus.tuning = m.bus.tuning := by
  cases change with
  | inner cpu cycles => rfl
  | read address => exact Mainboard.read_tuning m.bus address
  | write address value => exact Mainboard.write_tuning m.bus address value
  | take => exact Mainboard.takeTransfer_tuning m.bus
  | deliver value =>
    refine Mainboard.tuning_congr rfl rfl rfl ?_ rfl rfl
    show (m.bus.sound.chip.noise.region, (m.bus.sound.chip.delta.fill value).region,
      m.bus.sound.chip.sequencer.region) = _
    rw [Delta.fill_region]
    rfl

theorem Course.tuning {m n : Machine Mainboard} (course : m.Course n) : n.bus.tuning = m.bus.tuning :=
  course.keeps (P := fun k => k.bus.tuning = m.bus.tuning) (fun _ _ change h => change.tuning.trans h) rfl

/-- Neither does a host that plays, and the processor stays as strict as it is. -/
theorem tuned_enduring (strict : Bool) (tuning : Tuning) :
    Enduring fun m => m.cpu.strict = strict ∧ m.bus.tuning = tuning where
  step m h := ⟨(Exec.step_strict m).trans h.1, (Course.tuning (Exec.step_stepwise m)).trans h.2⟩
  reset m h := by
    refine ⟨?_, ?_⟩
    · exact (Exec.strict_metered.reset_at { m with bus := m.bus.reset }).trans h.1
    · rw [Course.tuning (Exec.reset_stepwise _)]
      exact m.bus.reset_tuning.trans h.2
  taken m h := by
    refine ⟨h.1, Eq.trans ?_ h.2⟩
    exact Mainboard.tuning_congr (m := m.bus) rfl m.bus.picture.takeFinished_region rfl rfl rfl rfl
  heard _ h := h
  moved _ _ h := h

end Machine

/-! ## What renews the copies -/

namespace Mainboard

variable {m : Mainboard} {region : Region} {audio : AudioSettings}

theorem initial_tuning (region : Region) (kind : PictureKind) (audio : AudioSettings)
    (profile : MemoryProfile) : (initial region kind audio profile).tuning = .standard region audio := by
  cases kind <;> rfl

theorem setRegion_tuning (m : Mainboard) (region : Region) :
    (m.setRegion region).tuning = .standard region m.sound.sampler.settings := by
  unfold setRegion
  cases m.picture <;> rfl

/-- At power-on each part keeps its own region. -/
theorem powerOn_tuning (h : m.tuning = .standard region audio) :
    m.powerOn.tuning = .standard region audio := by
  have ratio : m.ratio = region.dotRatio := congrArg Tuning.clock h
  have picture : m.picture.region = region := congrArg Tuning.picture h
  have sound : m.sound.region = region := congrArg Tuning.sound h
  have settings : m.sound.sampler.settings = audio := congrArg Tuning.audio h
  have started : m.picture.powerOn.region = region := by
    rw [← picture]
    exact congrArg Prod.fst (PictureUnit.initial_timing m.picture.kind m.picture.region)
  unfold powerOn tuning Sound.powerOn
  dsimp only
  rw [started, sound, settings, ratio]
  rfl

theorem setSettings_tuning (h : m.tuning = .standard region audio) (new : AudioSettings) :
    tuning { m with sound := m.sound.setSettings new } = .standard region new := by
  unfold tuning Tuning.standard at h ⊢
  simp only [Tuning.mk.injEq] at h
  obtain ⟨ratio, picture, sound, noise, delta, sequencer, -, -⟩ := h
  unfold Sound.setSettings Sampler.setSettings
  dsimp only
  rw [ratio, picture, sound, noise, delta, sequencer]

/-- Settings that the sound unit already has change nothing in it. -/
theorem setSettings_self (h : m.tuning = .standard region audio) :
    m.sound.setSettings audio = m.sound := by
  have sound : m.sound.region = region := congrArg Tuning.sound h
  have settings : m.sound.sampler.settings = audio := congrArg Tuning.audio h
  have period : m.sound.sampler.period = Sampler.periodOf region audio :=
    congrArg Tuning.samplePeriod h
  unfold Sound.setSettings Sampler.setSettings
  rw [sound, ← period, ← settings, ← sound]

end Mainboard

def DeviceSettings.get (d : DeviceSettings) : Port → Option DeviceKind
  | .one => d.port1
  | .two => d.port2

namespace Console

/-! ## The settings in force -/

/-- The sound unit has the settings that the console reports, all parts belong to its region, and that is
the one which the settings choose for the cartridge in the slot. -/
structure Tuned (c : Console) : Prop where
  tuning : c.bus.tuning = .standard c.region c.settings.audio
  loaded : ∀ label ∈ c.label, c.region = c.settings.region.resolve label.header.regionHint

/-- The processor agrees with the settings as well. -/
structure Configured (c : Console) : Prop extends Tuned c where
  strict : c.cpu.strict = c.settings.strictOpcodes

/-- The region that settings choose for the slot as it is. -/
def chosenRegion (c : Console) (settings : Settings) : Region :=
  settings.region.resolve (c.label.bind fun l => l.header.regionHint)

theorem chosenRegion_of_label {c : Console} {label : Label} (held : label ∈ c.label)
    (settings : Settings) :
    c.chosenRegion settings = settings.region.resolve label.header.regionHint := by
  unfold chosenRegion
  rw [Option.mem_def.mp held]
  rfl

theorem build_configured (settings : Settings) (kind : PictureKind) (profile : MemoryProfile) :
    (build settings kind profile).Configured where
  strict := rfl
  tuning := Mainboard.initial_tuning (settings.region.resolve none) kind settings.audio profile
  loaded := nofun

/-- What leaves settings, region, label and copies alone leaves them in agreement. -/
theorem Configured.of_fixture {c d : Console} (h : c.Configured) (fixture : d.fixture = c.fixture)
    (strict : d.cpu.strict = c.cpu.strict) (tuning : d.bus.tuning = c.bus.tuning) :
    d.Configured := by
  obtain ⟨settings, region, label⟩ := fixture_eq_iff.mp fixture
  refine ⟨⟨?_, ?_⟩, ?_⟩
  · rw [tuning, region, settings]
    exact h.tuning
  · rw [label, region, settings]
    exact h.loaded
  · rw [strict, settings]
    exact h.strict

/-! ### Power and regions -/

/-- Power-on hands the settings to the processor; the other parts keep theirs. -/
theorem Tuned.powerOn {c : Console} (h : c.Tuned) : c.powerOn.Configured := by
  obtain ⟨settings, region, label⟩ := fixture_eq_iff.mp c.powerOn_fixture
  have strict : c.powerOn.cpu.strict = c.settings.strictOpcodes := by
    unfold cpu
    rw [powerOn_machine, Exec.powerOn_strict]
    rfl
  have tuning : c.powerOn.bus.tuning = .standard c.region c.settings.audio := by
    unfold bus
    rw [powerOn_machine, Machine.Course.tuning (Exec.powerOn_course _)]
    exact Mainboard.powerOn_tuning h.tuning
  refine ⟨⟨?_, ?_⟩, ?_⟩
  · rw [region, settings]
    exact tuning
  · rw [region, settings, label]
    exact h.loaded
  · rw [settings]
    exact strict

theorem switchRegion_tuning {c : Console} {audio : AudioSettings}
    (tuning : c.bus.tuning = .standard c.region audio) (region : Region) :
    (c.switchRegion region).bus.tuning = .standard region audio := by
  unfold switchRegion
  split
  next same =>
    rw [same]
    exact tuning
  next =>
    have settings : c.bus.sound.sampler.settings = audio := congrArg Tuning.audio tuning
    show (c.bus.setRegion region).tuning = _
    rw [Mainboard.setRegion_tuning, settings]

theorem switchRegion_tuned {c : Console} (tuning : c.bus.tuning = .standard c.region c.settings.audio)
    {region : Region}
    (chosen : ∀ label ∈ c.label, region = c.settings.region.resolve label.header.regionHint) :
    (c.switchRegion region).Tuned := by
  obtain ⟨settings, there, label⟩ := fixture_eq_iff.mp (c.switchRegion_fixture region)
  refine ⟨?_, ?_⟩
  · rw [there, settings]
    exact switchRegion_tuning tuning region
  · rw [there, settings, label]
    exact chosen

theorem insert_configured {c : Console} (h : c.Tuned) (cartridge : Cartridge) :
    (c.insert cartridge).Configured := by
  have there : (c.fill cartridge).region = c.regionFor cartridge := c.switchRegion_region _
  have same : (c.fill cartridge).settings = c.settings := c.switchRegion_settings _
  rw [insert_eq]
  refine Tuned.powerOn ⟨?_, fun label held => ?_⟩
  · rw [there, same]
    exact switchRegion_tuning h.tuning (c.regionFor cartridge)
  · obtain rfl : (⟨cartridge.header, cartridge.id⟩ : Label) = label := Option.some_inj.mp held
    rw [there, same]
    rfl

/-! ### New settings -/

/-- The console with new settings, in the region that they choose. -/
def retuned (c : Console) (settings : Settings) : Console :=
  (c.adjusted settings).switchRegion (c.chosenRegion settings)

/-- New settings retune the console, and cycle the power if the region changes with a cartridge in the
slot. -/
theorem apply_retuned (c : Console) (settings : Settings) :
    c.apply settings =
      if c.chosenRegion settings ≠ c.region ∧ c.label.isSome then (c.retuned settings).powerOn
      else c.retuned settings := by
  have label : (c.retuned settings).label = c.label :=
    (fixture_eq_iff.mp (switchRegion_fixture _ _)).2.2
  have kept (same : c.chosenRegion settings = (c.adjusted settings).region) :
      c.retuned settings = c.adjusted settings := if_pos same
  rw [apply_eq]
  dsimp only
  change (if c.chosenRegion settings = c.region then c.adjusted settings
    else if (c.retuned settings).label.isSome then (c.retuned settings).powerOn
      else c.retuned settings) = _
  rw [label]
  split
  next same => rw [if_neg (fun both => both.1 same), kept same]
  next other =>
    split
    next held => rw [if_pos ⟨other, held⟩]
    next missing => rw [if_neg fun both => missing both.2]

theorem retuned_fixture (c : Console) (settings : Settings) :
    (c.retuned settings).fixture = (settings, c.chosenRegion settings, c.label) :=
  switchRegion_fixture _ _

theorem retuned_configured {c : Console} (h : c.Configured) (settings : Settings) :
    (c.retuned settings).Configured where
  toTuned := switchRegion_tuned (Mainboard.setSettings_tuning h.tuning settings.audio)
    fun _ held => chosenRegion_of_label held settings
  strict := by
    unfold retuned switchRegion
    split <;> rfl

theorem apply_configured {c : Console} (h : c.Configured) (settings : Settings) :
    (c.apply settings).Configured := by
  have retuned := retuned_configured h settings
  rw [apply_retuned]
  split
  · exact retuned.powerOn
  · exact retuned

theorem apply_fixture (c : Console) (settings : Settings) :
    (c.apply settings).fixture = (settings, c.chosenRegion settings, c.label) := by
  rw [apply_retuned]
  split
  · rw [powerOn_fixture, retuned_fixture]
  · exact retuned_fixture c settings

/-! ### Devices -/

theorem ensure_get (port : Port) (kind : Option DeviceKind) (p : Ports) :
    (ensure port kind p).get port =
      if p.kind port = kind then p.get port else kind.map Device.plugged := by
  unfold ensure
  split
  · rfl
  · exact p.get_set port _

theorem ensure_get_of_ne {a b : Port} (other : a ≠ b) (kind : Option DeviceKind) (p : Ports) :
    (ensure a kind p).get b = p.get b := by
  unfold ensure
  split
  · rfl
  · exact p.get_set_of_ne _ other

theorem apply_ports (c : Console) (settings : Settings) :
    (c.apply settings).bus.ports =
      ensure .two settings.devices.port2 (ensure .one settings.devices.port1 c.bus.ports) := by
  have retuned : (c.retuned settings).bus.ports =
      ensure .two settings.devices.port2 (ensure .one settings.devices.port1 c.bus.ports) := by
    unfold retuned switchRegion
    split <;> rfl
  rw [apply_retuned]
  split
  · rw [powerOn_ports, retuned]
  · exact retuned

/-- A device of the kind that is asked for stays as it is. Any other is replaced by a fresh one, or
taken away. -/
theorem apply_device (c : Console) (settings : Settings) (port : Port) :
    (c.apply settings).bus.ports.get port =
      if c.bus.ports.kind port = settings.devices.get port then c.bus.ports.get port
      else (settings.devices.get port).map Device.plugged := by
  rw [apply_ports]
  cases port with
  | one =>
    rw [ensure_get_of_ne (by decide), ensure_get]
    rfl
  | two =>
    have untouched := ensure_get_of_ne (a := .one) (b := .two) (by decide) settings.devices.port1
      c.bus.ports
    rw [ensure_get, Ports.kind, untouched]
    rfl

theorem apply_kind (c : Console) (settings : Settings) (port : Port) :
    (c.apply settings).bus.ports.kind port = settings.devices.get port := by
  have fresh (kind : Option DeviceKind) : (kind.map Device.plugged).map Device.kind = kind := by
    rcases kind with _ | _ | _ <;> rfl
  unfold Ports.kind
  rw [apply_device]
  split
  next same => exact same
  next => exact fresh _

/-! ### Settings that are in force already -/

theorem adjusted_self {c : Console} (h : c.Configured)
    (devices : ∀ port, c.bus.ports.kind port = c.settings.devices.get port) :
    c.adjusted c.settings = c := by
  have one : ensure .one c.settings.devices.port1 c.bus.ports = c.bus.ports := if_pos (devices .one)
  have two : ensure .two c.settings.devices.port2 c.bus.ports = c.bus.ports := if_pos (devices .two)
  have sound : c.bus.sound.setSettings c.settings.audio = c.bus.sound :=
    Mainboard.setSettings_self h.tuning
  have strict := h.strict
  obtain ⟨settings, region, label, ⟨cpu, bus⟩, samples, frames, listener⟩ := c
  show Console.mk settings region label ⟨{ cpu with strict := settings.strictOpcodes },
    { bus with
      sound := bus.sound.setSettings settings.audio
      ports := ensure .two settings.devices.port2 (ensure .one settings.devices.port1 bus.ports) }⟩
    samples frames listener = _
  rw [show ensure .one settings.devices.port1 bus.ports = bus.ports from one,
    show ensure .two settings.devices.port2 bus.ports = bus.ports from two,
    show bus.sound.setSettings settings.audio = bus.sound from sound,
    ← show cpu.strict = settings.strictOpcodes from strict]

/-- Settings that a console already runs with change nothing. -/
theorem apply_self {c : Console} (h : c.Configured) (region : c.chosenRegion c.settings = c.region)
    (devices : ∀ port, c.bus.ports.kind port = c.settings.devices.get port) :
    c.apply c.settings = c := by
  rw [apply_retuned, if_neg fun both => both.1 region, retuned, adjusted_self h devices, region]
  exact c.switchRegion_self

theorem apply_apply {c : Console} (h : c.Configured) (settings : Settings) :
    (c.apply settings).apply settings = c.apply settings := by
  obtain ⟨new, there, label⟩ := fixture_eq_iff.mp (c.apply_fixture settings)
  have region : (c.apply settings).chosenRegion (c.apply settings).settings =
      (c.apply settings).region := by
    unfold chosenRegion
    rw [new, label, there]
    rfl
  have devices (port : Port) : (c.apply settings).bus.ports.kind port =
      (c.apply settings).settings.devices.get port := by
    rw [new]
    exact c.apply_kind settings port
  have again := apply_self (apply_configured h settings) region devices
  rwa [new] at again

/-- What only a power cycle renews: the run of the program goes on. -/
structure GoesOn (c d : Console) : Prop where
  /-- All of the processor but how it takes unofficial opcodes. -/
  processor : { d.cpu with strict := c.cpu.strict } = c.cpu
  ram : d.bus.ram = c.bus.ram
  spareRam : d.bus.spareRam = c.bus.spareRam
  board : d.bus.board = c.bus.board
  openBus : d.bus.openBus = c.bus.openBus
  spritePage : d.bus.spritePage = c.bus.spritePage
  cycles : d.bus.cycles = c.bus.cycles
  samples : d.samples = c.samples
  frames : d.frames = c.frames

theorem retuned_goesOn (c : Console) (settings : Settings) : c.GoesOn (c.retuned settings) := by
  unfold retuned switchRegion
  split <;> exact ⟨rfl, rfl, rfl, rfl, rfl, rfl, rfl, rfl, rfl⟩

/-! ## All calls -/

section Calls

variable {σ : Type} [Storage σ] {c : Console}

theorem Configured.load (h : c.Configured) (image : Array UInt8) :
    (c.orKeep (c.load image)).Configured := by
  unfold Console.load orKeep
  cases Cartridge.ofImage image with
  | error e => exact h
  | ok cartridge => exact insert_configured h.toTuned cartridge

theorem Configured.plugAt (h : c.Configured) (number : Nat) (kind : Option DeviceKind) :
    (c.orKeep (c.plugAt number kind)).Configured := by
  unfold Console.plugAt orKeep
  cases Port.ofNumber number with
  | error e => exact h
  | ok port => exact h.of_fixture rfl rfl rfl

theorem Configured.restore (h : c.Configured) (storage : σ) :
    (c.orKeep ((c.restore storage).map (·.2))).Configured := by
  unfold Console.restore orKeep
  cases c.label with
  | none => exact h
  | some label =>
    cases c.batteryRam? with
    | none => exact h
    | some ram =>
      dsimp only
      cases Storage.load storage label.id ram.toVector with
      | error e => exact h
      | ok answer => exact h.of_fixture rfl rfl rfl

theorem Configured.play (h : c.Configured) {call : Call σ} (playing : call.Playing) :
    (c.perform call).Configured := by
  have kept := (Machine.tuned_enduring c.cpu.strict c.bus.tuning).perform playing ⟨rfl, rfl⟩
  exact h.of_fixture (c.perform_fixture playing) kept.1 kept.2

/-- Every call of a host leaves the copies in agreement. -/
theorem Configured.perform (h : c.Configured) (call : Call σ) : (c.perform call).Configured := by
  cases call with
  | load image => exact h.load image
  | eject => exact ⟨⟨h.tuning, nofun⟩, h.strict⟩
  | powerOn => exact h.toTuned.powerOn
  | apply settings => exact apply_configured h settings
  | plug port kind => exact h.plugAt port kind
  | restore storage => exact h.restore storage
  | save storage => exact h
  | takeSamples => exact h.of_fixture rfl rfl rfl
  | listen on => exact h.of_fixture rfl rfl rfl
  | reset => exact h.play trivial
  | step => exact h.play trivial
  | runFrame => exact h.play trivial
  | await limit => exact h.play trivial
  | update port input => exact h.play trivial

theorem performAll_configured (settings : Settings) (kind : PictureKind) (profile : MemoryProfile)
    (calls : List (Call σ)) : ((build settings kind profile).performAll calls).Configured :=
  performAll_keeps (P := Configured) (fun _ => True) (fun _ call _ h => h.perform call) calls
    (fun _ _ => trivial) _ (build_configured settings kind profile)

/-- A console always runs with the settings that it reports. New settings keep the devices that they ask
for and renew the others. They cycle the power exactly if the region changes with a cartridge in the
slot, and to apply them again changes nothing. -/
theorem runs_as_configured (settings : Settings) (kind : PictureKind) (profile : MemoryProfile)
    (calls : List (Call σ)) :
    let c := (build settings kind profile).performAll calls
    c.Configured ∧ ∀ new : Settings,
      (∀ port, (c.apply new).bus.ports.get port =
        if c.bus.ports.kind port = new.devices.get port then c.bus.ports.get port
        else (new.devices.get port).map Device.plugged) ∧
      (c.chosenRegion new ≠ c.region ∧ c.label.isSome →
        c.apply new = (c.retuned new).powerOn) ∧
      (¬ (c.chosenRegion new ≠ c.region ∧ c.label.isSome) → c.GoesOn (c.apply new)) ∧
      (c.apply new).apply new = c.apply new := by
  intro c
  have configured : c.Configured := performAll_configured settings kind profile calls
  refine ⟨configured, fun new => ⟨c.apply_device new, fun cycled => ?_, fun kept => ?_,
    apply_apply configured new⟩⟩
  · rw [apply_retuned, if_pos cycled]
  · rw [apply_retuned, if_neg kept]
    exact c.retuned_goesOn new

end Calls

end Console

end Famiclone
