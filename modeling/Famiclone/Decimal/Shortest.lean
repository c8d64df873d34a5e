/-!
# Shortest decimals

The decimal with the fewest digits that still reads back as a given binary number, and of those the
nearest one. All arithmetic is exact: the numbers are fractions of natural numbers.
-/
namespace Famiclone

structure Decimal where
  digits : Nat
  exponent : Int
  deriving DecidableEq, Repr

namespace Decimal

/-- A positive binary number, and how near a decimal has to be to read back as it. -/
structure Binary where
  significand : Nat
  exponent : Int
  /-- Whether the next smaller number is only half as far away as the next larger one. -/
  narrowBelow : Bool
  deriving DecidableEq, Repr

/-- A fraction with its bounds over one denominator. The bounds are half-way to the neighbours and
read back when the binary significand is even. -/
structure Window where
  low : Nat
  value : Nat
  high : Nat
  denominator : Nat
  closed : Bool
  deriving DecidableEq, Repr

namespace Binary

def window (b : Binary) : Window :=
  let e := b.exponent - 2
  let scale := Nat.pow 2 e.toNat
  let low := 4 * b.significand - if b.narrowBelow then 1 else 2
  { low := low * scale
    value := 4 * b.significand * scale
    high := (4 * b.significand + 2) * scale
    denominator := Nat.pow 2 (-e).toNat
    closed := b.significand % 2 == 0 }

end Binary

namespace Window

def length (n : Nat) : Nat := (Nat.toDigits 10 n).length

/-- The place of the first digit: the largest power of ten that is not above the value. -/
def place (w : Window) : Int :=
  if w.denominator ≤ w.value then (length (w.value / w.denominator) : Int) - 1
  else -(length ((w.denominator + w.value - 1) / w.value - 1) : Int)

/-- The same fractions counted in units of a power of ten. -/
def scale (w : Window) (unit : Int) : Window :=
  let up := Nat.pow 10 (-unit).toNat
  { w with
    low := w.low * up
    value := w.value * up
    high := w.high * up
    denominator := w.denominator * Nat.pow 10 unit.toNat }

def contains (w : Window) (n : Nat) : Bool :=
  let x := n * w.denominator
  if w.closed then w.low ≤ x && x ≤ w.high else w.low < x && x < w.high

/-- The whole number in the window next to the value, the even one of two equally near. -/
def nearest? (w : Window) : Option Nat :=
  let below := w.value / w.denominator
  let above := below + 1
  match w.contains below, w.contains above with
  | false, false => none
  | true, false => some below
  | false, true => some above
  | true, true =>
    let down := w.value - below * w.denominator
    let up := above * w.denominator - w.value
    some (if down < up ∨ (down = up ∧ below % 2 = 0) then below else above)

def withDigits? (w : Window) (count : Nat) : Option Decimal :=
  let unit := w.place - count + 1
  (w.scale unit).nearest?.map fun n => ⟨n, unit⟩

end Window

/-- Take zeros off the end of the digits. -/
def strip : (fuel : Nat) → Decimal → Decimal
  | 0, d => d
  | fuel + 1, d =>
    if d.digits % 10 = 0 ∧ d.digits ≠ 0 then strip fuel ⟨d.digits / 10, d.exponent + 1⟩ else d

/-- The shortest decimal of at most `most` digits. -/
def shortest (most : Nat) (b : Binary) : Decimal :=
  let w := b.window
  let found := (List.range most).findSome? fun n => w.withDigits? (n + 1)
  (found.getD ⟨b.significand, 0⟩).strip most

end Decimal

end Famiclone
