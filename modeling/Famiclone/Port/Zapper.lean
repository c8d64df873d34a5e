/-!
# The light gun

It has a trigger, and a sensor that sees whether the screen is bright where it points.
-/
namespace Famiclone

/-- A place on the screen. -/
structure Point where
  x : Nat
  y : Nat
  deriving DecidableEq, Repr

structure Zapper where
  /-- Where it points, if it points at the screen. -/
  position : Option Point
  trigger : Bool
  deriving DecidableEq, Repr

namespace Zapper

/-- A gun that has just been plugged in. -/
def plugged : Zapper := ⟨none, false⟩

/-- Read the gun: bit 3 tells that the sensor is dark, bit 4 that the trigger is pulled. -/
def read (z : Zapper) (light : Point → Bool) : UInt8 :=
  let lit := match z.position with
    | some p => light p
    | none => false
  (if lit then 0 else 0x08) + if z.trigger then 0x10 else 0

end Zapper

end Famiclone
