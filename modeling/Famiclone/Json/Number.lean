import Famiclone.Json.Reader

/-!
# Numbers in JSON text

Whole numbers of at most 64 bits stay whole. All others become double-precision numbers in this way:
the digits make a whole number, from which those that no longer fit in 64 bits are left out, and
that number is scaled by one power of ten. A number that scaling takes to infinity is malformed.
-/
namespace Famiclone.Json

inductive Number where
  | natural (n : Nat)
  /-- A whole number below zero, without its sign. -/
  | negative (n : Nat)
  | real (x : Float)

structure Scientific where
  significand : Nat
  exponent : Int

namespace Scientific

/-- Take the digits before the point. Those that do not fit count as zeros. -/
def takeWhole (s : Scientific) : List UInt8 → Scientific
  | [] => s
  | d :: rest =>
    let next := s.significand * 10 + (d.toNat - 48)
    if next < UInt64.size then takeWhole { s with significand := next } rest
    else { s with exponent := s.exponent + (rest.length + 1) }

/-- Take the digits after the point. Those that do not fit are left out. -/
def takeFraction (s : Scientific) : List UInt8 → Scientific
  | [] => s
  | d :: rest =>
    let next := s.significand * 10 + (d.toNat - 48)
    if next < UInt64.size then takeFraction ⟨next, s.exponent - 1⟩ rest else s

def power (n : Nat) : Float := Float.ofScientific 1 false n

/-- The double-precision number, unless it is infinite. Ten to the power of 308 is the largest
power there is, so a smaller scale takes two steps; beyond those nothing is left. -/
def toFloat? (s : Scientific) : Option Float :=
  let f := s.significand.toUInt64.toFloat
  if s.significand = 0 then some 0
  else if 0 ≤ s.exponent then
    if s.exponent ≤ 308 then
      let x := f * power s.exponent.toNat
      if x.isInf then none else some x
    else none
  else
    let n := (-s.exponent).toNat
    if n ≤ 308 then some (f / power n)
    else if n ≤ 616 then some (f / power 308 / power (n - 308))
    else some 0

end Scientific

open Float.Model in
/-- The single-precision number next to a double-precision one, the even one of two equally near. One
that is too large becomes infinite. -/
def toSingle (x : Float) : Float32 :=
  match UnpackedFloat.unpack Format.binary64 x.toBits.toBitVec with
  | .finite sign mantissa exponent _ =>
    .ofModel (.pack (.round Format.binary32 sign mantissa exponent))
  | other => .ofModel (.pack other)

example : toSingle 1e39 = Float32.ofBits 0x7F800000 := by decide +kernel

def digits : Reader (List UInt8) := modifyGet fun bytes => bytes.span isDigit

/-- The digits of the whole part: a leading zero stands alone. -/
def wholeDigits : Reader (List UInt8) := do
  match ← digits with
  | [] => if (← peek).isNone then throw .endsEarly else throw .malformed
  | ds => if ds.length > 1 ∧ ds.head? = some (ascii '0') then throw .malformed else return ds

/-- Digits of which there has to be at least one. -/
def someDigits : Reader (List UInt8) := do
  match ← digits with
  | [] => if (← peek).isNone then throw .endsEarly else throw .malformed
  | ds => return ds

def exponent : Reader Int := do
  let sign ← peek
  if sign = some (ascii '+') ∨ sign = some (ascii '-') then pass
  let ds ← someDigits
  let n : Nat := ds.foldl (fun n d => n * 10 + (d.toNat - 48)) 0
  return if sign = some (ascii '-') then -(n : Int) else n

def isExponentMark (b : Option UInt8) : Bool := b == some (ascii 'e') || b == some (ascii 'E')

/-- A number whose sign has been passed. -/
def number (below : Bool) : Reader Number := do
  let whole := Scientific.takeWhole ⟨0, 0⟩ (← wholeDigits)
  let point := (← peek) == some (ascii '.')
  let s ← if point then do
      pass
      pure (Scientific.takeFraction whole (← someDigits))
    else pure whole
  let scaled := isExponentMark (← peek)
  let s ← if scaled then do
      pass
      pure { s with exponent := s.exponent + (← exponent) }
    else pure s
  if !point && !scaled && s.exponent == 0 then
    if !below then return .natural s.significand
    else if s.significand ≠ 0 ∧ s.significand ≤ 0x8000000000000000 then return .negative s.significand
  match s.toFloat? with
  | none => throw .malformed
  | some x => return .real (if below then -x else x)

end Famiclone.Json
