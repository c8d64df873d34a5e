import Famiclone.Picture.Unit
import Famiclone.Port
import Famiclone.Processor.Bus
import Famiclone.Sound
import Famiclone.Sound.Supply

/-!
# The mainboard

All that the processor reaches: internal RAM, the picture unit, the sound unit, the controller ports
and the cartridge slot. Each access is one processor cycle. After it the picture unit moves on by the
dots of the region, then the sound unit and the cartridge by one cycle, so that all parts keep step
with the processor.
-/
namespace Famiclone

/-- Who answers at `$6000-$7FFF`. -/
inductive MemoryProfile where
  /-- The cartridge. -/
  | standard
  /-- Plain RAM, whatever the cartridge enables or protects. -/
  | ramEnabled
  deriving DecidableEq, Repr

structure Mainboard where
  ratio : DotRatio
  ram : Vector UInt8 2048
  picture : PictureUnit
  sound : Sound
  board : Board
  ports : Ports
  profile : MemoryProfile
  /-- The plain RAM of the second profile, for cartridges without work RAM. -/
  spareRam : Vector UInt8 8192
  /-- The part of a dot that is left over, in the units of the ratio. -/
  remainder : Nat
  /-- The last value on the bus, which is read where nothing answers. -/
  openBus : UInt8
  /-- The page of a sprite transfer that waits. -/
  spritePage : Option UInt8
  cycles : Nat
  /-- How the sample channel has been supplied with bytes. -/
  supply : Supply

/-- Where a processor address leads. -/
inductive Place where
  | ram (cell : Fin 2048)
  | picture (register : Fin 8)
  /-- The sound unit's status, which is read as well as written. -/
  | soundStatus
  | port (port : Port)
  /-- A register that can only be written. -/
  | register
  | nothing
  | workRam (cell : Fin 8192)
  | cartridge
  deriving DecidableEq, Repr

/-- Where a processor address leads under a memory profile. -/
def Place.of (profile : MemoryProfile) (address : UInt16) : Place :=
  let a := address.toNat
  if a < 0x2000 then ram (.ofNat 2048 a)
  else if a < 0x4000 then picture (.ofNat 8 a)
  else if a = 0x4015 then soundStatus
  else if a = 0x4016 then port .one
  else if a = 0x4017 then port .two
  else if a < 0x4018 then register
  else if a < 0x4020 then nothing
  else if 0x6000 ≤ a ∧ a < 0x8000 ∧ profile = .ramEnabled then workRam (.ofNat 8192 a)
  else cartridge

namespace Mainboard

/-- A mainboard without cartridge or devices. -/
def initial (region : Region) (kind : PictureKind) (audio : AudioSettings)
    (profile : MemoryProfile) : Mainboard where
  ratio := region.dotRatio
  ram := .replicate 2048 0
  picture := .initial kind region
  sound := .initial region audio
  board := .empty
  ports := .empty
  profile
  spareRam := .replicate 8192 0
  remainder := 0
  openBus := 0
  spritePage := none
  cycles := 0
  supply := .initial

def setRegion (m : Mainboard) (region : Region) : Mainboard :=
  { m with
    ratio := region.dotRatio
    picture := .initial m.picture.kind region
    sound := .initial region m.sound.sampler.settings
    remainder := 0
    supply := .initial }

/-- Everything but the cartridge and the devices goes to its state at power-on. -/
def powerOn (m : Mainboard) : Mainboard :=
  { m with
    ram := .replicate 2048 0
    spareRam := .replicate 8192 0
    picture := m.picture.powerOn
    sound := m.sound.powerOn
    remainder := 0
    openBus := 0
    spritePage := none
    cycles := 0
    supply := .initial }

/-- The reset line. RAM keeps its contents. -/
def reset (m : Mainboard) : Mainboard :=
  { m with
    picture := m.picture.reset
    sound := m.sound.reset
    board := m.board.reset
    spritePage := none }

/-- Read the RAM of the second profile, which is the cartridge's if it has any. -/
def readWork (m : Mainboard) (cell : Fin 8192) : UInt8 :=
  match m.board.workRam? with
  | some ram => ram.getD (cell.val % ram.size) 0
  | none => m.spareRam.get cell

def writeWork (m : Mainboard) (cell : Fin 8192) (value : UInt8) : Mainboard :=
  if m.board.workRam?.isSome then
    { m with
      board := m.board.mapWorkRam fun ram => ram.setIfInBounds (cell.val % ram.size) value }
  else { m with spareRam := put m.spareRam cell value }

/-- The value at an address, without any effect. Registers are not looked at. -/
def peek (m : Mainboard) (address : UInt16) : UInt8 :=
  match Place.of m.profile address with
  | .ram cell => m.ram.get cell
  | .workRam cell => m.readWork cell
  | .cartridge => (m.board.readPrg address).getD m.openBus
  | _ => m.openBus

/-- One processor cycle for all parts. -/
def clock (m : Mainboard) : Mainboard :=
  let due := m.remainder + m.ratio.dots
  let (picture, board) := PictureUnit.ticks (due / m.ratio.cycles) m.picture m.board
  { m with
    cycles := m.cycles + 1
    remainder := due % m.ratio.cycles
    picture
    sound := m.sound.tick
    board := board.clock
    supply := m.supply.clock m.sound.chip.delta }

def readPicture (m : Mainboard) (register : Fin 8) : UInt8 × Mainboard :=
  let (value, picture, board) := m.picture.read m.board register
  (value, { m with picture, board })

def writePicture (m : Mainboard) (register : Fin 8) (value : UInt8) : Mainboard :=
  let (picture, board) := m.picture.write m.board register value
  { m with picture, board }

/-- Read the sound unit's status, which does not drive bit 5. -/
def readSoundStatus (m : Mainboard) : UInt8 × Mainboard :=
  let (status, sound) := m.sound.readStatus
  ((status &&& 0xDF) ||| (m.openBus &&& 0x20), { m with sound })

/-- Read a controller port, which drives the lower five bits. -/
def readPort (m : Mainboard) (port : Port) : UInt8 × Mainboard :=
  let (bits, ports) := m.ports.read port m.picture.litAt
  (bits ||| (m.openBus &&& 0xE0), { m with ports })

/-- What a read finds, and what it does at once. -/
def access (m : Mainboard) (address : UInt16) : UInt8 × Mainboard :=
  match Place.of m.profile address with
  | .ram cell => (m.ram.get cell, m)
  | .picture register => m.readPicture register
  | .soundStatus => m.readSoundStatus
  | .port port => m.readPort port
  | .workRam cell => (m.readWork cell, m)
  | .cartridge => ((m.board.readPrg address).getD m.openBus, m)
  | .register | .nothing => (m.openBus, m)

/-- A read cycle. The sound unit's status is read inside the processor and stays off the bus. -/
def read (m : Mainboard) (address : UInt16) : UInt8 × Mainboard :=
  let (value, m) := m.access address
  let m := if address = 0x4015 then m else { m with openBus := value }
  (value, m.clock)

/-- The address where a write asks for a sprite transfer. -/
def spriteTransferAddress : UInt16 := 0x4014

def store (m : Mainboard) (address : UInt16) (value : UInt8) : Mainboard :=
  match Place.of m.profile address with
  | .ram cell => { m with ram := put m.ram cell value }
  | .picture register => m.writePicture register value
  | .port .one => { m with ports := m.ports.setStrobe (bit value 0) }
  | .workRam cell => m.writeWork cell value
  | .cartridge => { m with board := m.board.writePrg address value }
  | .nothing => m
  | .soundStatus | .port .two =>
    { m with
      sound := m.sound.write address value
      supply := m.supply.write m.sound.chip.delta address value }
  | .register =>
    if address = spriteTransferAddress then { m with spritePage := some value }
    else { m with sound := m.sound.write address value }

def write (m : Mainboard) (address : UInt16) (value : UInt8) : Mainboard :=
  let m := m.store address value
  { m with openBus := value }.clock

def lines (m : Mainboard) : Lines where
  nmi := m.picture.nmi
  frame := m.sound.chip.sequencer.irqFlag
  sample := m.sound.chip.delta.irqFlag
  board := m.board.irq
  external := false

/-- Take the transfer that waits. Sprites go before samples. -/
def takeTransfer (m : Mainboard) : Option Transfer × Mainboard :=
  match m.spritePage with
  | some page => (some (.sprites page), { m with spritePage := none, supply := m.supply.transfer })
  | none => (m.sound.chip.delta.request.map .sample, m)

def deliver (m : Mainboard) (value : UInt8) : Mainboard := { m with sound := m.sound.deliver value }

end Mainboard

/-- Before one read there can be a sprite transfer and a sample transfer: neither asks for a
transfer again. -/
instance : ProcessorBus Mainboard where
  read := Mainboard.read
  write := Mainboard.write
  lines := Mainboard.lines
  takeTransfer := Mainboard.takeTransfer
  deliver := Mainboard.deliver
  transferLimit _ := 2

end Famiclone
