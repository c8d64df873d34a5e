import Famiclone.Word

/-!
# The joypad

Eight buttons behind a shift register. While the strobe is high the register follows the buttons;
after it has fallen each read takes one button out, and after the eighth there are only ones.
-/
namespace Famiclone

/-- The names of the buttons, in the order in which they are read. -/
def buttonNames : List String := ["A", "B", "SELECT", "START", "UP", "DOWN", "LEFT", "RIGHT"]

/-- A set of buttons: bit `i` stands for the button that is read as number `i`. -/
structure Buttons where
  mask : UInt8
  deriving DecidableEq, Repr

namespace Buttons

def none : Buttons := ⟨0⟩

/-- Whether each button is in the set, in the order in which they are read. -/
def toList (b : Buttons) : List Bool := (List.range 8).map (bit b.mask)

/-- Add buttons to a set or take them out. -/
def set (b changed : Buttons) (pressed : Bool) : Buttons :=
  ⟨if pressed then b.mask ||| changed.mask else b.mask &&& ~~~changed.mask⟩

def text (b : Buttons) : String :=
  let names := (buttonNames.zip b.toList).filterMap fun (name, held) =>
    if held then some name else Option.none
  "Buttons(" ++ (if names.isEmpty then "0x0" else " | ".intercalate names) ++ ")"

end Buttons

structure Joypad where
  buttons : Buttons
  strobe : Bool
  /-- The bits that the next reads give; when they are used up there are only ones. -/
  pending : List Bool
  deriving DecidableEq, Repr

namespace Joypad

/-- A joypad that has just been plugged in. -/
def plugged : Joypad := ⟨.none, false, Buttons.none.toList⟩

/-- Hold exactly the given buttons. -/
def setButtons (j : Joypad) (buttons : Buttons) : Joypad :=
  { j with buttons, pending := if j.strobe then buttons.toList else j.pending }

def setStrobe (j : Joypad) (high : Bool) : Joypad :=
  { j with strobe := high, pending := if high then j.buttons.toList else j.pending }

def read (j : Joypad) : Bool × Joypad :=
  if j.strobe then (bit j.buttons.mask 0, j)
  else
    match j.pending with
    | [] => (true, j)
    | b :: rest => (b, { j with pending := rest })

end Joypad

end Famiclone
