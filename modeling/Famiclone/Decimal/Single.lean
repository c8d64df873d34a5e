import Famiclone.Decimal.Shortest

/-!
# Single-precision numbers as text

A number is written with the fewest digits that read back: positionally while its first digit stands
between the sixth place after the point and the thirteenth before it, and with an exponent beyond.
-/
namespace Famiclone.Decimal

/-- The parts of a finite single-precision number other than zero. -/
def ofSingleBits (bits : Nat) : Binary :=
  let fraction : Nat := bits % 0x800000
  let exponent : Nat := bits / 0x800000 % 256
  if exponent = 0 then ⟨fraction, -149, false⟩
  else ⟨fraction + 0x800000, (exponent : Int) - 150, fraction == 0 && exponent != 1⟩

/-- The smallest and the largest place of the first digit in positional notation. -/
def positionalPlaces : Int × Int := (-6, 12)

def zeros (n : Nat) : String := "".pushn '0' n

/-- A decimal in positional notation, which always has digits after the point. -/
def positional (d : Decimal) (place : Int) : String :=
  let ds := toString d.digits
  if 0 ≤ d.exponent then ds ++ zeros d.exponent.toNat ++ ".0"
  else if 0 ≤ place then
    let whole := ds.toList.take (place.toNat + 1)
    let rest := ds.toList.drop (place.toNat + 1)
    String.ofList whole ++ "." ++ String.ofList rest
  else "0." ++ zeros ((-place).toNat - 1) ++ ds

/-- A decimal with an exponent, whose sign is always written. -/
def scientific (d : Decimal) (place : Int) : String :=
  let ds := (toString d.digits).toList
  let rest := ds.drop 1
  String.ofList (ds.take 1) ++ (if rest.isEmpty then "" else "." ++ String.ofList rest) ++ "e" ++
    (if 0 ≤ place then "+" else "-") ++ toString place.natAbs

def text (d : Decimal) : String :=
  let place := (Window.length d.digits : Int) + d.exponent - 1
  if positionalPlaces.1 ≤ place ∧ place ≤ positionalPlaces.2 then d.positional place
  else d.scientific place

def singleText? (x : Float32) : Option String :=
  let bits := x.toBits.toNat
  let sign := if bits / 0x80000000 = 1 then "-" else ""
  let size := bits % 0x80000000
  if size / 0x800000 = 255 then none
  else if size = 0 then some (sign ++ "0.0")
  else some (sign ++ (shortest 9 (ofSingleBits size)).text)

example : singleText? (Float32.ofBits 0x3F800000) = some "1.0" := by decide +kernel
example : singleText? (Float32.ofBits 0x3DCCCCCD) = some "0.1" := by decide +kernel
example : singleText? (Float32.ofBits 0x5A0E1BCA) = some "1e+16" := by decide +kernel
example : singleText? (Float32.ofBits 0x80000000) = some "-0.0" := by decide +kernel
example : singleText? (Float32.ofBits 0x00000001) = some "1e-45" := by decide +kernel
example : singleText? (Float32.ofBits 0x7F800000) = none := by decide +kernel

open Float.Model in
/-- Of the patterns of the exponent one is left for what is not finite. -/
theorem isFinite_iff (x : Float32) : x.isFinite = true ↔ x.toBits.toNat / 0x800000 % 256 ≠ 255 := by
  let exponent := @UnpackedFloat.unpackExponent Format.binary32 x.toBits.toBitVec
  have hexponent : exponent.toNat = x.toBits.toNat / 0x800000 % 256 := by
    simp [exponent, UnpackedFloat.unpackExponent, Nat.shiftRight_eq_div_pow]
  have hpattern : exponent = -1#8 ↔ x.toBits.toNat / 0x800000 % 256 = 255 := by
    rw [← hexponent, BitVec.toNat_eq]
    rfl
  rw [ne_eq, ← hpattern]
  unfold Float32.isFinite Float32.Model.isFinite Float32.Model.unpack UnpackedFloat.unpack
  dsimp only
  -- Infinity and what is no number are the ones with the pattern, zero and the rest the ones without.
  rw [apply_ite UnpackedFloat.isFinite, apply_ite UnpackedFloat.isFinite,
    apply_ite UnpackedFloat.isFinite, apply_dite UnpackedFloat.isFinite]
  show (if exponent = -1#8 then if _ then false else false
    else if _ then if _ : _ then true else true else true) = true ↔ _
  rw [ite_self, dite_eq_ite, ite_self, ite_self]
  simp

/-- A number has a text exactly if it is finite. -/
theorem singleText?_isSome (x : Float32) : (singleText? x).isSome = x.isFinite := by
  have hsize : x.toBits.toNat % 0x80000000 / 0x800000 = x.toBits.toNat / 0x800000 % 256 := by omega
  rw [Bool.eq_iff_iff, isFinite_iff, ← hsize, singleText?]
  by_cases h : x.toBits.toNat % 0x80000000 / 0x800000 = 255
  · simp [h]
  · simp only [h, if_false]
    split <;> simp [h]

end Famiclone.Decimal
