import Famiclone.Word

/-!
# Sets of flags as text

A register of flags is shown by the names of the bits that are set, lowest first.
-/
namespace Famiclone

def flagNames (names : List String) (byte : UInt8) : List String :=
  (names.zipIdx.filter fun e => bit byte e.2).map Prod.fst

/-- The text of a set of flags; one without flags is shown by its number. -/
def flagText (title : String) (names : List String) (byte : UInt8) : String :=
  let set := flagNames names byte
  title ++ "(" ++ (if set.isEmpty then "0x0" else " | ".intercalate set) ++ ")"

end Famiclone
