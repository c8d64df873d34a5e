import Famiclone.Picture.Blank
import Famiclone.Picture.Registers

/-!
# Picture units of a console

A console has the full picture unit, or one that only keeps time. The latter draws nothing, has
no registers and never interrupts.
-/
namespace Famiclone

inductive PictureKind where
  | full
  | blank
  deriving DecidableEq, Repr

/-- The picture unit of a console. -/
inductive PictureUnit where
  | full (picture : Picture)
  | blank (picture : BlankPicture)

namespace PictureUnit

def initial : PictureKind → Region → PictureUnit
  | .full, region => full (.initial region)
  | .blank, region => blank (.initial region)

def kind : PictureUnit → PictureKind
  | full _ => .full
  | blank .. => .blank

def region : PictureUnit → Region
  | full p => p.region
  | blank p => p.region

/-- Back to the state at power-on. -/
def powerOn (u : PictureUnit) : PictureUnit := initial u.kind u.region

def reset : PictureUnit → PictureUnit
  | full p => full p.reset
  | blank p => blank p

def beam : PictureUnit → Beam
  | full p => p.beam
  | blank p => p.beam

def nmi : PictureUnit → Bool
  | full p => p.nmi
  | blank .. => false

def screen : PictureUnit → Screen
  | full p => p.screen
  | blank .. => .blank

/-- Whether a light sensor sees the screen at a place. -/
def litAt : PictureUnit → Point → Bool
  | full p, place => p.litAt place
  | blank .., _ => false

/-- Whether a frame has been finished since the last time this was asked. -/
def takeFinished : PictureUnit → Bool × PictureUnit
  | full p => (p.beam.finished, full { p with beam := { p.beam with finished := false } })
  | blank p => (p.finished, blank { p with finished := false })

variable {β : Type} [PictureBus β]

def tick (u : PictureUnit) (board : β) : PictureUnit × β :=
  match u with
  | full p => let (p, board) := p.tick board; (full p, board)
  | blank p => (blank p.tick, board)

/-- Let some dots pass. -/
def ticks : (n : Nat) → PictureUnit → β → PictureUnit × β
  | 0, u, board => (u, board)
  | n + 1, u, board =>
    let (u, board) := u.tick board
    ticks n u board

def read (u : PictureUnit) (board : β) (register : Fin 8) : UInt8 × PictureUnit × β :=
  match u with
  | full p => let (value, p, board) := p.read board register; (value, full p, board)
  | blank p => (0, blank p, board)

def write (u : PictureUnit) (board : β) (register : Fin 8) (value : UInt8) : PictureUnit × β :=
  match u with
  | full p => let (p, board) := p.write board register value; (full p, board)
  | blank p => (blank p, board)

end PictureUnit

end Famiclone
