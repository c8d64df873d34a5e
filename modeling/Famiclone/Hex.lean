/-!
# Hexadecimal text

Fixed-width hexadecimal numerals, as identifiers, addresses and opcodes are written.
-/
namespace Famiclone.Hex

/-- The numeral of `n` in base sixteen with lower-case digits, at least `width` of them. -/
def padded (width n : Nat) : String :=
  String.ofList ((Nat.toDigits 16 n).leftpad width '0')

def paddedUpper (width n : Nat) : String :=
  String.ofList (((Nat.toDigits 16 n).leftpad width '0').map Char.toUpper)

example : padded 2 10 = "0a" := by decide +kernel
example : paddedUpper 4 0x8fe = "08FE" := by decide +kernel

end Famiclone.Hex
