import Famiclone.Region

/-!
# The beam

The picture is drawn in lines of dots. The lines of a frame are the visible ones, one of rest, the
vertical blank and a last one that prepares the next frame.
-/
namespace Famiclone

def screenWidth : Nat := 256

def screenHeight : Nat := 240

def dotsPerLine : Nat := 341

/-- Where the picture unit is in its frame. -/
structure Beam where
  line : Nat
  dot : Nat
  /-- Frames begun since power-on. -/
  frame : Nat
  /-- Whether the frame is odd, counted from power-on or the last reset. -/
  odd : Bool
  /-- Whether a frame has been finished that nobody has asked for yet. -/
  finished : Bool
  /-- Dots that have passed since power-on. -/
  elapsed : Nat
  deriving DecidableEq, Repr

namespace Beam

def start : Beam := ⟨0, 0, 0, false, false, 0⟩

def visible (b : Beam) : Bool := b.line < screenHeight

/-- Whether the last dot of the line is left out: so it is at the end of odd frames that are
rendered, in a region that does so. -/
def skips (b : Beam) (region : Region) (rendering : Bool) : Bool :=
  b.line == region.preRenderLine && b.dot == 339 && b.odd && rendering && region.skipsOddDot

/-- Go to the next line. The frame is finished when the line of rest is over. -/
def nextLine (b : Beam) (region : Region) : Beam :=
  if b.line = screenHeight then { b with line := b.line + 1, dot := 0, finished := true }
  else if b.line < region.preRenderLine then { b with line := b.line + 1, dot := 0 }
  else { b with line := 0, dot := 0, frame := b.frame + 1, odd := !b.odd }

def advance (b : Beam) (region : Region) (rendering : Bool) : Beam :=
  let b := { b with elapsed := b.elapsed + 1 }
  if b.skips region rendering then b.nextLine region
  else if b.dot + 1 < dotsPerLine then { b with dot := b.dot + 1 }
  else b.nextLine region

@[simp] theorem nextLine_elapsed (b : Beam) (region : Region) :
    (b.nextLine region).elapsed = b.elapsed := by
  simp only [nextLine]
  split
  · rfl
  · split <;> rfl

/-- Each step of the beam is one dot, also where a dot is left out. -/
@[simp] theorem advance_elapsed (b : Beam) (region : Region) (rendering : Bool) :
    (b.advance region rendering).elapsed = b.elapsed + 1 := by
  simp only [advance]
  split
  · simp
  · split <;> simp

end Beam

end Famiclone
