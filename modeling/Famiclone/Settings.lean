import Famiclone.Port
import Famiclone.Region
import Famiclone.Sound.Sampler

/-!
# Settings

What a user can choose about a console.
-/
namespace Famiclone

/-- What is plugged into the ports at power-on. -/
structure DeviceSettings where
  port1 : Option DeviceKind := some .joypad
  port2 : Option DeviceKind := some .zapper
  deriving DecidableEq, Repr

structure Settings where
  region : RegionChoice := .auto
  /-- Whether unofficial opcodes are refused. -/
  strictOpcodes : Bool := false
  audio : AudioSettings := {}
  devices : DeviceSettings := {}
  deriving BEq

end Famiclone
