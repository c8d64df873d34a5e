/-!
# Television regions

The two television systems differ in the processor clock, in the number of scanlines and in how
many picture dots pass in one processor cycle. All that depends on the region is read here.
-/
namespace Famiclone

/-- The television system a console is built for. -/
inductive Region where
  | ntsc
  | pal
  deriving DecidableEq, Repr, Inhabited

/-- How many picture dots pass in how many processor cycles. -/
structure DotRatio where
  dots : Nat
  cycles : Nat
  cycles_pos : 0 < cycles
  deriving DecidableEq, Repr

namespace Region

def clockRate : Region → Nat
  | ntsc => 1789773
  | pal => 1662607

/-- Picture dots that pass in `cyclesPerGroup` processor cycles. -/
def dotsPerGroup : Region → Nat
  | ntsc => 3
  | pal => 16

/-- Processor cycles that take a whole number of dots, `dotsPerGroup` of them. -/
def cyclesPerGroup : Region → Nat
  | ntsc => 1
  | pal => 5

/-- Scanlines of a frame, the pre-render line included. -/
def scanlines : Region → Nat
  | ntsc => 262
  | pal => 312

/-- The scanline on which vertical blank begins. -/
def vblankLine (_ : Region) : Nat := 241

/-- The last scanline, which prepares the first visible one. -/
def preRenderLine (r : Region) : Nat := r.scanlines - 1

/-- Whether odd frames leave out the last dot of the pre-render line. -/
def skipsOddDot : Region → Bool
  | ntsc => true
  | pal => false

def framesPer10000s : Region → Nat
  | ntsc => 600988
  | pal => 500070

def frameRate (r : Region) : Float := Float.ofNat r.framesPer10000s / 10000

/-- The fewest whole frames that last at least a tenth of a second. -/
def framesPerTenth (r : Region) : Nat := (r.framesPer10000s + 99999) / 100000

theorem cyclesPerGroup_pos (r : Region) : 0 < r.cyclesPerGroup := by cases r <;> decide

def dotRatio (r : Region) : DotRatio := ⟨r.dotsPerGroup, r.cyclesPerGroup, r.cyclesPerGroup_pos⟩

end Region

/-- The region a user asks for: a fixed one, or the one that the cartridge names. -/
inductive RegionChoice where
  | auto
  | ntsc
  | pal
  deriving DecidableEq, Repr, Inhabited

/-- The region to run in, given the hint of the cartridge; without a hint it is NTSC. -/
def RegionChoice.resolve (hint : Option Region) : RegionChoice → Region
  | auto => hint.getD .ntsc
  | ntsc => .ntsc
  | pal => .pal

end Famiclone
