import Famiclone.Picture.Beam

/-!
# A picture unit that only keeps time

It counts dots, lines and frames, and knows nothing of rendering: there are no odd frames, and no dot is
ever left out.
-/
namespace Famiclone

/-- A picture unit that only keeps time. -/
structure BlankPicture where
  region : Region
  line : Nat
  dot : Nat
  /-- Frames begun since power-on. -/
  frame : Nat
  finished : Bool
  /-- Dots that have passed since power-on. -/
  elapsed : Nat
  deriving DecidableEq, Repr

namespace BlankPicture

def initial (region : Region) : BlankPicture := ⟨region, 0, 0, 0, false, 0⟩

def tick (p : BlankPicture) : BlankPicture :=
  let p := { p with dot := p.dot + 1, elapsed := p.elapsed + 1 }
  if p.dot < dotsPerLine then p
  else
    let p := { p with dot := 0, line := p.line + 1 }
    if p.line = screenHeight + 1 then { p with finished := true }
    else if p.region.preRenderLine < p.line then { p with line := 0, frame := p.frame + 1 }
    else p

/-- The time of the unit as that of a beam. Its frames are odd and even in turn, though it does not keep
which they are. -/
def beam (p : BlankPicture) : Beam :=
  ⟨p.line, p.dot, p.frame, decide (p.frame % 2 = 1), p.finished, p.elapsed⟩

end BlankPicture

end Famiclone
