import Famiclone.Cartridge
import Famiclone.Mainboard
import Famiclone.Processor.Step
import Famiclone.Settings

/-!
# The console

A processor on its mainboard, with the settings of the user and the label of the cartridge in the
slot. A host runs it by single steps or by frames and takes pictures and sound out.
-/
namespace Famiclone

/-- What is known of the cartridge in the slot beside its board. -/
structure Label where
  header : Header
  id : String

/-- A finished frame and the sound that was made with it. -/
structure Delivery where
  screen : Screen
  samples : Array Float32

structure Console where
  settings : Settings
  region : Region
  label : Option Label
  machine : Machine Mainboard
  /-- Sound that the host has not taken yet. -/
  samples : Array Float32
  /-- Frames finished since power-on. -/
  frames : Nat
  /-- The frames handed to a listener, if there is one. -/
  listener : Option (Array Delivery)

/-- Why a console does not do what it is asked. -/
inductive ConsoleError where
  | load (error : LoadError)
  | opcode (error : IllegalOpcode)
  | noCartridge
  /-- A test program has not reported within a number of frames. -/
  | noReport (frames : Nat)
  deriving DecidableEq, Repr

def ConsoleError.message : ConsoleError → String
  | load e => e.message
  | opcode e => e.message
  | noCartridge => "no cartridge loaded"
  | noReport frames => "no test result after " ++ toString frames ++ " frames"

namespace Console

def bus (c : Console) : Mainboard := c.machine.bus

def cpu (c : Console) : Processor := c.machine.cpu

def mapBus (f : Mainboard → Mainboard) (c : Console) : Console :=
  { c with machine := { c.machine with bus := f c.machine.bus } }

def mapCpu (f : Processor → Processor) (c : Console) : Console :=
  { c with machine := { c.machine with cpu := f c.machine.cpu } }

/-- A console without a cartridge. It has not been powered on. -/
def build (settings : Settings) (kind : PictureKind) (profile : MemoryProfile) : Console :=
  let region := settings.region.resolve none
  let bus := Mainboard.initial region kind settings.audio profile
  let ports := (bus.ports.plug .one settings.devices.port1).plug .two settings.devices.port2
  { settings
    region
    label := none
    machine := {
      cpu := { Processor.initial with strict := settings.strictOpcodes }
      bus := { bus with ports } }
    samples := #[]
    frames := 0
    listener := none }

/-- Go to another region, if it is another. -/
def switchRegion (c : Console) (region : Region) : Console :=
  if region = c.region then c else { c with region }.mapBus fun m => m.setRegion region

/-- Switch the power off and on. The cartridge keeps its memory. -/
def powerOn (c : Console) : Console :=
  let bus := c.machine.bus.powerOn
  let cpu := { Processor.initial with strict := c.settings.strictOpcodes }
  let started : Machine Mainboard := ⟨cpu, { bus with board := bus.board.reset }⟩
  { c with machine := (Exec.powerOn started).2, samples := #[], frames := 0 }

def reset (c : Console) : Console :=
  let m := c.machine
  { c with machine := (Exec.reset { m with bus := m.bus.reset }).2 }

/-- Put a cartridge into the slot and power on. -/
def insert (c : Console) (cartridge : Cartridge) : Console :=
  let c := c.switchRegion (c.settings.region.resolve cartridge.header.regionHint)
  let c := c.mapBus fun m => { m with board := cartridge.board }
  { c with label := some ⟨cartridge.header, cartridge.id⟩ }.powerOn

def load (c : Console) (image : Array UInt8) : Except LoadError Console :=
  (Cartridge.ofImage image).map c.insert

def eject (c : Console) : Console :=
  { c with label := none }.mapBus fun m => { m with board := .empty }

/-! ## Running -/

/-- Execute one instruction. The answer is the number of cycles that it took. -/
def step (c : Console) : Except ConsoleError Nat × Console :=
  if c.label.isNone then (.error .noCartridge, c)
  else
    let (answer, machine) := Exec.step c.machine
    (answer.mapError .opcode, { c with machine })

/-- Forget that a frame has been finished, and tell whether one has. -/
def takeFinished (m : Machine Mainboard) : Bool × Machine Mainboard :=
  let (finished, picture) := m.bus.picture.takeFinished
  (finished, { m with bus := { m.bus with picture } })

/-- Step until a frame is finished, at most `limit` times. -/
def runSteps : (limit : Nat) → Machine Mainboard → Except IllegalOpcode Unit × Machine Mainboard
  | 0, m => (.ok (), m)
  | limit + 1, m =>
    match Exec.step m with
    | (.error e, m) => (.error e, m)
    | (.ok _, m) =>
      let (finished, m) := takeFinished m
      if finished then (.ok (), m) else runSteps limit m

/-- A bound on the steps of a frame: each of them takes a dot at least. -/
def stepsPerFrame (region : Region) : Nat := dotsPerLine * region.scanlines

/-- Hand a finished frame and its sound to the listener; without one the sound is kept. -/
def deliver (c : Console) : Console :=
  let (samples, sound) := c.machine.bus.sound.takeSamples
  let c := { c with frames := c.frames + 1 }.mapBus fun m => { m with sound }
  match c.listener with
  | some heard => { c with listener := some (heard.push ⟨c.bus.picture.screen, samples⟩) }
  | none => { c with samples := c.samples ++ samples }

/-- Run until the visible part of a frame is finished. -/
def runFrame (c : Console) : Except ConsoleError Unit × Console :=
  if c.label.isNone then (.error .noCartridge, c)
  else
    match runSteps (stepsPerFrame c.bus.picture.region) c.machine with
    | (.error e, machine) => (.error (.opcode e), { c with machine })
    | (.ok (), machine) => (.ok (), { c with machine }.deliver)

def takeSamples (c : Console) : Array Float32 × Console := (c.samples, { c with samples := #[] })

/-- Begin or stop to hand frames to a listener. -/
def listen (c : Console) (on : Bool) : Console := { c with listener := if on then some #[] else none }

/-! ## Ports and settings -/

def mapPorts (f : Ports → Ports) (c : Console) : Console :=
  c.mapBus fun m => { m with ports := f m.ports }

/-- Plug a device into a port, or empty the port. -/
def plug (c : Console) (port : Port) (kind : Option DeviceKind) : Console :=
  c.mapPorts fun p => p.plug port kind

def update (c : Console) (port : Port) (input : DeviceInput) : Except PortError Console :=
  (c.bus.ports.update port input).map fun ports => c.mapPorts fun _ => ports

/-- Have a kind of device in a port. A device of that kind stays as it is. -/
def ensure (port : Port) (kind : Option DeviceKind) (p : Ports) : Ports :=
  if p.kind port = kind then p else p.plug port kind

/-- Take new settings. A change of the region is a power cycle. -/
def apply (c : Console) (settings : Settings) : Console :=
  let region := settings.region.resolve (c.label.bind fun l => l.header.regionHint)
  let c := c.mapCpu fun cpu => { cpu with strict := settings.strictOpcodes }
  let c := c.mapBus fun m => { m with sound := m.sound.setSettings settings.audio }
  let c := c.mapPorts fun p =>
    ensure .two settings.devices.port2 (ensure .one settings.devices.port1 p)
  let c := { c with settings }
  if region = c.region then c
  else
    let c := c.switchRegion region
    if c.label.isSome then c.powerOn else c

end Console

end Famiclone
