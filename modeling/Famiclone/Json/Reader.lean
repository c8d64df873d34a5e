/-!
# Reading JSON text

A reader takes what it needs from the front of a text in UTF-8 bytes, or fails with the first fault
in reading order. A value is read for a purpose: a text may be well-formed and still hold a value of
the wrong kind.
-/
namespace Famiclone.Json

inductive Fault where
  /-- A byte stands where the grammar has no place for it. -/
  | malformed
  /-- The text ends before the value does. -/
  | endsEarly
  /-- A well-formed value is not one that is asked for. -/
  | mismatch
  deriving DecidableEq, Repr

/-- An action that takes bytes from the front of a text. -/
abbrev Reader := StateT (List UInt8) (Except Fault)

/-- The code of a character that takes one byte. -/
abbrev ascii (c : Char) : UInt8 := c.toUInt8

/-- The bytes of a word of such characters. -/
def asciiBytes (word : String) : List UInt8 := word.toList.map ascii

def isBlank (b : UInt8) : Bool :=
  b == ascii ' ' || b == ascii '\n' || b == ascii '\t' || b == ascii '\r'

def isDigit (b : UInt8) : Bool := ascii '0' ≤ b && b ≤ ascii '9'

def hexDigit? (b : UInt8) : Option Nat :=
  if isDigit b then some (b.toNat - 48)
  else if ascii 'a' ≤ b ∧ b ≤ ascii 'f' then some (b.toNat - 87)
  else if ascii 'A' ≤ b ∧ b ≤ ascii 'F' then some (b.toNat - 55)
  else none

/-- The next byte, which stays. -/
def peek : Reader (Option UInt8) := return (← get).head?

def pass : Reader Unit := modify List.tail

/-- Pass over blanks, and look at the byte after them. -/
def token : Reader (Option UInt8) := do
  modify (List.dropWhile isBlank)
  peek

/-- Pass over blanks; a text that ends here ends early. -/
def expectToken : Reader UInt8 := do
  match ← token with
  | none => throw .endsEarly
  | some b => return b

def literal : List UInt8 → Reader Unit
  | [] => pure ()
  | b :: rest => do
    match ← peek with
    | none => throw .endsEarly
    | some c =>
      if c = b then
        pass
        literal rest
      else throw .malformed

def keyword (word : String) : Reader Unit := literal (asciiBytes word)

/-- The number in four hexadecimal digits. Fewer than four bytes mean that the text ends early,
whatever they are. -/
def hexWord : List UInt8 → Except Fault (Nat × List UInt8)
  | a :: b :: c :: d :: rest =>
    match hexDigit? a, hexDigit? b, hexDigit? c, hexDigit? d with
    | some a, some b, some c, some d => .ok (((a * 16 + b) * 16 + c) * 16 + d, rest)
    | _, _, _, _ => .error .malformed
  | _ => .error .endsEarly

/-- The second half of a character that is written as two escapes, the first of which is given. -/
def lowSurrogate (high : Nat) : List UInt8 → Except Fault (Char × List UInt8)
  | [] => .error .endsEarly
  | [b] => .error (if b = ascii '\\' then .endsEarly else .malformed)
  | b :: c :: rest =>
    if b = ascii '\\' ∧ c = ascii 'u' then do
      let (low, rest) ← hexWord rest
      if 0xDC00 ≤ low ∧ low ≤ 0xDFFF then
        .ok (Char.ofNat (0x10000 + (high - 0xD800) * 0x400 + (low - 0xDC00)), rest)
      else .error .malformed
    else .error .malformed

/-- A character that is written by its number. -/
def numberedChar (bytes : List UInt8) : Except Fault (Char × List UInt8) := do
  let (n, rest) ← hexWord bytes
  if 0xD800 ≤ n ∧ n ≤ 0xDBFF then lowSurrogate n rest
  else if 0xDC00 ≤ n ∧ n ≤ 0xDFFF then .error .malformed
  else .ok (Char.ofNat n, rest)

/-- The character that an escape of one letter stands for. -/
def letterEscape? (b : UInt8) : Option UInt8 :=
  if b = ascii '"' ∨ b = ascii '\\' ∨ b = ascii '/' then some b
  else if b = ascii 'b' then some 0x08
  else if b = ascii 'f' then some 0x0C
  else if b = ascii 'n' then some 0x0A
  else if b = ascii 'r' then some 0x0D
  else if b = ascii 't' then some 0x09
  else none

/-- What an escape stands for. When it is only skipped, a numbered character is not looked at. -/
def escaped (skipping : Bool) : List UInt8 → Except Fault (List UInt8 × List UInt8)
  | [] => .error .endsEarly
  | b :: rest =>
    if b = ascii 'u' then
      if skipping then do
        let (_, rest) ← hexWord rest
        .ok ([], rest)
      else do
        let (c, rest) ← numberedChar rest
        .ok (String.utf8EncodeChar c, rest)
    else
      match letterEscape? b with
      | some c => .ok ([c], rest)
      | none => .error .malformed

/-- The bytes of a string up to its closing quote. `fuel` is a bound on the bytes left. -/
def quotedFrom (skipping : Bool) :
    (fuel : Nat) → List UInt8 → List UInt8 → Except Fault (List UInt8 × List UInt8)
  | 0, _, _ => .error .endsEarly
  | _ + 1, _, [] => .error .endsEarly
  | fuel + 1, sofar, b :: rest =>
    if b = ascii '"' then .ok (sofar.reverse, rest)
    else if b < 0x20 then .error .malformed
    else if b = ascii '\\' then do
      let (bytes, rest) ← escaped skipping rest
      quotedFrom skipping fuel (bytes.reverse ++ sofar) rest
    else quotedFrom skipping fuel (b :: sofar) rest

/-- The bytes of a string whose opening quote has been passed. -/
def quoted (skipping : Bool) : Reader (List UInt8) := fun bytes =>
  quotedFrom skipping (bytes.length + 1) [] bytes

def colon : Reader Unit := do
  if (← expectToken) = ascii ':' then pass else throw .malformed

/-- Read a whole text; after the value there may be blanks only. -/
def readAll {α : Type} (r : Reader α) (text : List UInt8) : Except Fault α := do
  let (a, rest) ← r text
  if (rest.dropWhile isBlank).isEmpty then return a else throw .malformed

end Famiclone.Json
