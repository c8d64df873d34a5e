import Famiclone.Hex
import Famiclone.Picture

/-!
# The picture unit as text

One line that shows the state of the unit to someone who looks for a fault.
-/
namespace Famiclone

def Region.name : Region → String
  | ntsc => "Ntsc"
  | pal => "Pal"

/-- Named values in braces. -/
def fieldsText (title : String) (fields : List (String × String)) : String :=
  title ++ " \x7b " ++ ", ".intercalate (fields.map fun (name, value) => name ++ ": " ++ value) ++
    " \x7d"

def Picture.text (p : Picture) : String :=
  fieldsText "Ppu" [
    ("region", p.region.name),
    ("ctrl", flagText "PpuCtrl" Control.names p.control.byte),
    ("mask", flagText "PpuMask" Mask.names p.mask.byte),
    ("status", flagText "PpuStatus" PictureStatus.names p.status.toByte),
    ("v", Hex.paddedUpper 4 p.cursor.toNat),
    ("t", Hex.paddedUpper 4 p.origin.toNat),
    ("scanline", toString p.beam.line),
    ("dot", toString p.beam.dot),
    ("frame", toString p.beam.frame)]

end Famiclone
