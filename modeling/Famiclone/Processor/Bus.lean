/-!
# The processor's bus

What the processor needs of the machine around it. Every `read` and every `write` is one cycle, in
which a machine may move all of its parts on.
-/
namespace Famiclone

/-- The interrupt lines. The first is sensitive to edges, the others to levels. -/
structure Lines where
  nmi : Bool
  /-- The frame sequencer of the sound unit. -/
  frame : Bool
  /-- The sample channel of the sound unit. -/
  sample : Bool
  /-- The board in the cartridge slot. -/
  board : Bool
  external : Bool
  deriving DecidableEq, Repr

namespace Lines

def none : Lines := ⟨false, false, false, false, false⟩

def union (l m : Lines) : Lines where
  nmi := l.nmi || m.nmi
  frame := l.frame || m.frame
  sample := l.sample || m.sample
  board := l.board || m.board
  external := l.external || m.external

/-- The lines of the first that the second does not name. -/
def diff (l m : Lines) : Lines where
  nmi := l.nmi && !m.nmi
  frame := l.frame && !m.frame
  sample := l.sample && !m.sample
  board := l.board && !m.board
  external := l.external && !m.external

/-- Whether one of the level-sensitive lines is asserted. -/
def irq (l : Lines) : Bool := l.frame || l.sample || l.board || l.external

def levels (l : Lines) : Lines := { l with nmi := false }

end Lines

/-- A transfer that halts the processor before it reads. -/
inductive Transfer where
  /-- A page of memory goes to the sprites of the picture unit. -/
  | sprites (page : UInt8)
  /-- A byte goes to the sample channel of the sound unit. -/
  | sample (address : UInt16)
  deriving DecidableEq, Repr

/-- A machine as its processor sees it. -/
class ProcessorBus (β : Type) where
  read : β → UInt16 → UInt8 × β
  write : β → UInt16 → UInt8 → β
  lines : β → Lines
  takeTransfer : β → Option Transfer × β
  /-- Hand over the byte of a sample transfer. -/
  deliver : β → UInt8 → β
  /-- A bound on the transfers that can go before one read. -/
  transferLimit : β → Nat

end Famiclone
