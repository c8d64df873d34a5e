/-!
# Text from bytes

Bytes are read as UTF-8. Where they are not, the longest start of a character that they hold is
replaced by one mark, and reading goes on behind it.
-/
namespace Famiclone.Utf8

/-- Stands where bytes are not a character. -/
def replacement : Char := '\uFFFD'

/-- What follows a first byte: its share of the character, and the ranges in which the bytes after
it have to lie. Some bytes do not begin a character. -/
def leading (b : UInt8) : Option (Nat × List (UInt8 × UInt8)) :=
  let rest : UInt8 × UInt8 := (0x80, 0xBF)
  if b < 0x80 then some (b.toNat, [])
  else if b < 0xC2 then none
  else if b < 0xE0 then some (b.toNat % 32, [rest])
  else if b = 0xE0 then some (b.toNat % 16, [(0xA0, 0xBF), rest])
  else if b = 0xED then some (b.toNat % 16, [(0x80, 0x9F), rest])
  else if b < 0xF0 then some (b.toNat % 16, [rest, rest])
  else if b = 0xF0 then some (b.toNat % 8, [(0x90, 0xBF), rest, rest])
  else if b < 0xF4 then some (b.toNat % 8, [rest, rest, rest])
  else if b = 0xF4 then some (b.toNat % 8, [(0x80, 0x8F), rest, rest])
  else none

/-- Read the bytes after a first one, as many as lie in their ranges. -/
def trailing (value : Nat) : List (UInt8 × UInt8) → List UInt8 → Char × List UInt8
  | [], bytes => (Char.ofNat value, bytes)
  | _ :: _, [] => (replacement, [])
  | (low, high) :: ranges, b :: bytes =>
    if low ≤ b ∧ b ≤ high then trailing (value * 64 + b.toNat % 64) ranges bytes
    else (replacement, b :: bytes)

theorem trailing_length_le (value : Nat) (ranges : List (UInt8 × UInt8)) (bytes : List UInt8) :
    (trailing value ranges bytes).2.length ≤ bytes.length := by
  induction ranges generalizing value bytes with
  | nil => simp [trailing]
  | cons r ranges ih =>
    cases bytes with
    | nil => simp [trailing]
    | cons b bytes =>
      simp only [trailing]
      split
      · exact Nat.le_succ_of_le (ih _ _)
      · exact Nat.le_refl _

def chars : List UInt8 → List Char
  | [] => []
  | b :: bytes =>
    match leading b with
    | none => replacement :: chars bytes
    | some (value, ranges) =>
      let next := trailing value ranges bytes
      next.1 :: chars next.2
  termination_by bytes => bytes.length
  decreasing_by
    · simp
    · exact Nat.lt_succ_of_le (trailing_length_le value ranges bytes)

example : chars [0x41, 0xC3, 0xA9, 0xE2, 0x82, 0x42, 0xFF] =
    ['A', 'é', '\uFFFD', 'B', '\uFFFD'] := by decide +kernel

/-- The characters that count as blank: those with the property `White_Space`. -/
def isBlank (c : Char) : Bool :=
  let n := c.toNat
  0x09 ≤ n && n ≤ 0x0D || n == 0x20 || n == 0x85 || n == 0xA0 || n == 0x1680 ||
    0x2000 ≤ n && n ≤ 0x200A || n == 0x2028 || n == 0x2029 || n == 0x202F || n == 0x205F ||
    n == 0x3000

def trimmedEnd (cs : List Char) : List Char := (cs.reverse.dropWhile isBlank).reverse

end Famiclone.Utf8
