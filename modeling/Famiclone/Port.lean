import Famiclone.Port.Joypad
import Famiclone.Port.Zapper

/-!
# Controller ports

Two ports, each of which is empty or holds a joypad or a light gun.
-/
namespace Famiclone

/-- One of the two ports. -/
inductive Port where
  | one
  | two
  deriving DecidableEq, Repr

inductive DeviceKind where
  | joypad
  | zapper
  deriving DecidableEq, Repr

def DeviceKind.name : DeviceKind → String
  | joypad => "joypad"
  | zapper => "zapper"

inductive Device where
  | joypad (pad : Joypad)
  | zapper (gun : Zapper)
  deriving DecidableEq, Repr

namespace Device

/-- A device that has just been plugged in. -/
def plugged : DeviceKind → Device
  | .joypad => joypad .plugged
  | .zapper => zapper .plugged

def kind : Device → DeviceKind
  | joypad _ => .joypad
  | zapper _ => .zapper

end Device

/-- A change that a player makes to a device. -/
inductive DeviceInput where
  /-- Hold exactly these buttons. -/
  | buttons (held : Buttons)
  /-- Press or release buttons. -/
  | button (changed : Buttons) (pressed : Bool)
  /-- Point somewhere on the screen, or away from it. -/
  | pointer (target : Option Point)
  | trigger (pulled : Bool)
  deriving DecidableEq, Repr

/-- The text of a change in error messages. -/
def DeviceInput.text : DeviceInput → String
  | buttons held => "Buttons(" ++ held.text ++ ")"
  | button changed pressed =>
    "Button \x7b button: " ++ changed.text ++ ", pressed: " ++ toString pressed ++ " \x7d"
  | pointer none => "Pointer(None)"
  | pointer (some p) => "Pointer(Some((" ++ toString p.x ++ ", " ++ toString p.y ++ ")))"
  | trigger pulled => "Trigger(" ++ toString pulled ++ ")"

/-- Why a request about the ports is refused. -/
inductive PortError where
  | noSuchPort (number : Nat)
  | unknownDevice (name : String)
  | emptyPort (port : Port)
  /-- The device does not take that kind of change. -/
  | refused (kind : DeviceKind) (input : DeviceInput)
  deriving DecidableEq, Repr

/-- Whether the fault lies in the number of the port, and not in the device. -/
def PortError.isPortFault : PortError → Bool
  | .noSuchPort _ => true
  | _ => false

/-- The text shown for an error. -/
def PortError.message : PortError → String
  | noSuchPort number => "invalid port " ++ toString number ++ ", expected 1 or 2"
  | unknownDevice name => "invalid device: " ++ name
  | emptyPort .one => "invalid device: no device on One"
  | emptyPort .two => "invalid device: no device on Two"
  | refused kind input =>
    "invalid device: " ++ kind.name ++ " does not accept " ++ input.text

/-- The kind of device that a name stands for, in upper or lower case. -/
def DeviceKind.parse (text : String) : Except PortError DeviceKind :=
  let name := text.map Char.toLower
  if ["joypad", "pad", "standard"].contains name then .ok joypad
  else if ["zapper", "pointer"].contains name then .ok zapper
  else .error (.unknownDevice name)

def Port.ofNumber : Nat → Except PortError Port
  | 1 => .ok one
  | 2 => .ok two
  | n => .error (.noSuchPort n)

def Device.update : Device → DeviceInput → Except PortError Device
  | joypad pad, .buttons held => .ok (joypad (pad.setButtons held))
  | joypad pad, .button changed pressed =>
    .ok (joypad (pad.setButtons (pad.buttons.set changed pressed)))
  | zapper gun, .pointer target => .ok (zapper { gun with position := target })
  | zapper gun, .trigger pulled => .ok (zapper { gun with trigger := pulled })
  | device, input => .error (.refused device.kind input)

structure Ports where
  one : Option Device
  two : Option Device
  deriving DecidableEq, Repr

namespace Ports

def empty : Ports := ⟨none, none⟩

def get (p : Ports) : Port → Option Device
  | .one => p.one
  | .two => p.two

def set (p : Ports) (port : Port) (device : Option Device) : Ports :=
  match port with
  | .one => { p with one := device }
  | .two => { p with two := device }

@[simp] theorem get_set (p : Ports) (port : Port) (device : Option Device) :
    (p.set port device).get port = device := by
  cases port <;> rfl

theorem get_set_of_ne (p : Ports) {a b : Port} (device : Option Device) (h : a ≠ b) :
    (p.set a device).get b = p.get b := by
  cases a <;> cases b <;> simp_all [get, set]

/-- Plug a fresh device into a port, or empty it. -/
def plug (p : Ports) (port : Port) (kind : Option DeviceKind) : Ports :=
  p.set port (kind.map Device.plugged)

def kind (p : Ports) (port : Port) : Option DeviceKind := (p.get port).map Device.kind

def update (p : Ports) (port : Port) (input : DeviceInput) : Except PortError Ports :=
  match p.get port with
  | none => .error (.emptyPort port)
  | some device => (fun d => p.set port (some d)) <$> device.update input

/-- The strobe line reaches the joypads in both ports. -/
def setStrobe (p : Ports) (high : Bool) : Ports :=
  let strobe : Device → Device
    | .joypad pad => .joypad (pad.setStrobe high)
    | .zapper gun => .zapper gun
  ⟨p.one.map strobe, p.two.map strobe⟩

/-- Read a port; of a light gun, `light` tells what its sensor sees. -/
def read (p : Ports) (port : Port) (light : Point → Bool) : UInt8 × Ports :=
  match p.get port with
  | some (.joypad pad) =>
    let (b, pad) := pad.read
    (b.toUInt8, p.set port (some (.joypad pad)))
  | some (.zapper gun) => (gun.read light, p)
  | none => (0, p)

/-- Where the light gun in a port points. -/
def pointer (p : Ports) (port : Port) : Option Point :=
  match p.get port with
  | some (.zapper gun) => gun.position
  | _ => none

end Ports

end Famiclone
