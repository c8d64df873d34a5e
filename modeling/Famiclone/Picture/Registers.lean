import Famiclone.Picture

/-!
# The registers of the picture unit

The processor sees eight registers. Each byte that goes through one of them stays on the unit's
inner bus, from which the bits that a register does not drive are read.
-/
namespace Famiclone.Picture

variable {β : Type} [PictureBus β]

/-- Move the data port on. While the unit renders, both directions of the cursor move. -/
def moveOn (p : Picture) (board : β) : Picture × β :=
  if p.rendering then ({ p with cursor := p.cursor.nextTile.nextLine }, board)
  else
    let cursor := p.cursor.add p.control.stride
    ({ p with cursor }, PictureBus.observe board cursor.address)

/-- Read the status register. This ends the report of the vertical blank, or prevents it just before
it comes. -/
def readStatus (p : Picture) : UInt8 × Picture :=
  let early := p.beam.line = p.region.vblankLine ∧ p.beam.dot = 1
  (p.status.toByte ||| (p.latch &&& 0x1F),
    { p with
      suppressVblank := p.suppressVblank || early
      status := { p.status with vblank := false }
      secondWrite := false })

/-- Read sprite memory. Three bits of the attributes do not exist. -/
def readSprites (p : Picture) : UInt8 :=
  let value := p.sprites.get ⟨p.spriteAddress.toNat, p.spriteAddress.toNat_lt⟩
  if p.spriteAddress.toNat % 4 = 2 then value &&& 0xE3 else value

/-- Read the data port. Palette bytes come at once; others come one access late. -/
def readData (p : Picture) (board : β) : UInt8 × Picture × β :=
  let address := p.cursor.address
  if 0x3F00 ≤ address then
    let value := (p.memory.peek board address &&& 0x3F) ||| (p.latch &&& 0xC0)
    let beneath := p.memory.peek board (address - 0x1000)
    (value, { p with readBuffer := beneath }.moveOn board)
  else
    let (next, board) := p.memory.fetch board address
    (p.readBuffer, { p with readBuffer := next }.moveOn board)

def read (p : Picture) (board : β) (register : Fin 8) : UInt8 × Picture × β :=
  let (value, p, board) :=
    match register with
    | 2 => let (value, p) := p.readStatus; (value, p, board)
    | 4 => (p.readSprites, p, board)
    | 7 => p.readData board
    | _ => (p.latch, p, board)
  (value, { p with latch := value }, board)

/-- Write sprite memory. While the unit renders the byte is dropped. -/
def writeSprites (p : Picture) (value : UInt8) : Picture :=
  if p.rendering then { p with spriteAddress := p.spriteAddress + 4 }
  else
    { p with
      sprites := p.sprites.set p.spriteAddress.toNat value p.spriteAddress.toNat_lt
      spriteAddress := p.spriteAddress + 1 }

/-- Write the scroll register: first the column of the corner, then the line. -/
def writeScroll (p : Picture) (value : UInt8) : Picture :=
  let tile : Fin 32 := .ofNat 32 (value.toNat / 8)
  let fine : Fin 8 := .ofNat 8 value.toNat
  if p.secondWrite then
    { p with origin := { p.origin with row := tile, line := fine }, secondWrite := false }
  else { p with origin := { p.origin with column := tile }, fineX := fine, secondWrite := true }

/-- Write the address register: first the high byte, of which six bits count, then the low byte. -/
def writeAddress (p : Picture) (board : β) (value : UInt8) : Picture × β :=
  if p.secondWrite then
    let cursor := Scroll.ofWord (word (highByte p.origin.toWord) value)
    ({ p with origin := cursor, cursor, secondWrite := false },
      PictureBus.observe board cursor.address)
  else
    let origin := Scroll.ofWord (word (value &&& 0x3F) (lowByte p.origin.toWord))
    ({ p with origin, secondWrite := true }, board)

def writeData (p : Picture) (board : β) (value : UInt8) : Picture × β :=
  let address := p.cursor.address
  let board := if address < 0x2000 then PictureBus.observe board address else board
  let (memory, board) := p.memory.store board address value
  { p with memory }.moveOn board

def write (p : Picture) (board : β) (register : Fin 8) (value : UInt8) : Picture × β :=
  let p := { p with latch := value }
  match register with
  | 0 =>
    ({ p with
      control := ⟨value⟩
      origin := { p.origin with right := bit value 0, lower := bit value 1 } }, board)
  | 1 => ({ p with mask := ⟨value⟩ }, board)
  | 3 => ({ p with spriteAddress := value }, board)
  | 4 => (p.writeSprites value, board)
  | 5 => (p.writeScroll value, board)
  | 6 => p.writeAddress board value
  | 7 => p.writeData board value
  | _ => (p, board)

end Famiclone.Picture
