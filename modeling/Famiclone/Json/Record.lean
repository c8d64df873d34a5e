import Famiclone.Json.Number

/-!
# Records and choices in JSON text

A record is read from an object, or from an array of its fields in order. Fields that are missing
keep the value they have; unknown members of an object are passed over but have to be well-formed.
-/
namespace Famiclone.Json

inductive Bracket where
  | array
  | object
  deriving DecidableEq

def Bracket.closes (b : Bracket) (c : UInt8) : Bool :=
  match b with
  | array => c == ascii ']'
  | object => c == ascii '\x7d'

/-- Pass over digits of which there has to be at least one. A text that ends instead of a number is
malformed here, where the number is not wanted. -/
def skipDigits : Reader Unit := do
  if (← digits).isEmpty then throw .malformed

def skipNumber : Reader Unit := do
  match ← digits with
  | [] => throw .malformed
  | ds =>
    if ds.length > 1 ∧ ds.head? = some (ascii '0') then throw .malformed
    if (← peek) = some (ascii '.') then
      pass
      skipDigits
    if isExponentMark (← peek) then
      pass
      let sign ← peek
      if sign = some (ascii '+') ∨ sign = some (ascii '-') then pass
      skipDigits

def skipKey : Reader Unit := do
  if (← expectToken) = ascii '"' then
    pass
    let _ ← quoted true
    colon
  else throw .malformed

/-- Pass over the front of a value: all of it, or the bracket that opens it. -/
def skipFront : Reader (Option Bracket) := do
  let c ← expectToken
  if c = ascii '[' then
    pass
    return some .array
  else if c = ascii '\x7b' then
    pass
    return some .object
  else if c = ascii '"' then
    pass
    let _ ← quoted true
  else if c = ascii 'n' then keyword "null"
  else if c = ascii 't' then keyword "true"
  else if c = ascii 'f' then keyword "false"
  else if c = ascii '-' then
    pass
    skipNumber
  else if isDigit c then skipNumber
  else throw .malformed
  return none

/-- After a value or an opening bracket inside the open brackets: close brackets as long as they
close, then go to the start of the next value. The result is the brackets still open, none when the
outermost value is complete. -/
def skipToNext (fresh : Bool) : List Bracket → Reader (List Bracket)
  | [] => pure []
  | b :: outer => do
    let c ← expectToken
    if b.closes c then
      pass
      skipToNext false outer
    else if fresh then
      if b = .object then skipKey
      return b :: outer
    else if c = ascii ',' then
      pass
      if b = .object then skipKey
      return b :: outer
    else throw .malformed

/-- Pass over a value inside open brackets, and over all that follows it there. `fuel` is a bound on
the bytes left. -/
def skipWithin : (fuel : Nat) → List Bracket → Reader Unit
  | 0, _ => throw .endsEarly
  | fuel + 1, opened => do
    let opened ← match ← skipFront with
      | some b => skipToNext true (b :: opened)
      | none => skipToNext false opened
    if opened.isEmpty then pure () else skipWithin fuel opened

def skipValue : Reader Unit := do skipWithin ((← get).length + 1) []

/-- Refuse a value of another kind than the one asked for. A fault in its first token comes
first. -/
def mismatch {α : Type} : Reader α := do
  let c ← peek
  if c = some (ascii 'n') then keyword "null"
  else if c = some (ascii 't') then keyword "true"
  else if c = some (ascii 'f') then keyword "false"
  else if c = some (ascii '-') then
    pass
    let _ ← number true
  else if (c.map isDigit).getD false then
    let _ ← number false
  else if c = some (ascii '"') then
    pass
    let _ ← quoted false
  else if c ≠ some (ascii '[') ∧ c ≠ some (ascii '\x7b') then throw .malformed
  throw .mismatch

def bool : Reader Bool := do
  let c ← expectToken
  if c = ascii 't' then
    keyword "true"
    return true
  else if c = ascii 'f' then
    keyword "false"
    return false
  else mismatch

/-- Read nothing but the word for nothing. -/
def null : Reader Unit := do
  if (← expectToken) = ascii 'n' then keyword "null" else mismatch

def anyNumber : Reader Number := do
  let c ← expectToken
  if c = ascii '-' then
    pass
    number true
  else if isDigit c then number false
  else mismatch

def natBelow (limit : Nat) : Reader Nat := do
  match ← anyNumber with
  | .natural n => if n < limit then return n else throw .mismatch
  | _ => throw .mismatch

def single : Reader Float32 := do
  match ← anyNumber with
  | .natural n => return n.toUInt64.toFloat32
  | .negative n => return -n.toUInt64.toFloat32
  | .real x => return toSingle x

/-- Read a value that may be absent. -/
def optional {α : Type} (r : Reader α) : Reader (Option α) := do
  if (← token) = some (ascii 'n') then
    keyword "null"
    return none
  else
    return some (← r)

def chosen {α : Type} (choices : List (String × α)) (name : List UInt8) : Reader α :=
  match choices.find? fun c => asciiBytes c.1 == name with
  | some c => pure c.2
  | none => throw .mismatch

/-- Read one of a few words. The word may also be the only key of an object, with nothing as its
value. Where the word has to stand, all but a string is malformed. -/
def choice {α : Type} (choices : List (String × α)) : Reader α := do
  let c ← expectToken
  if c = ascii '"' then
    pass
    chosen choices (← quoted false)
  else if c = ascii '\x7b' then
    pass
    if (← expectToken) = ascii '"' then
      pass
      let a ← chosen choices (← quoted false)
      colon
      null
      if (← expectToken) = ascii '\x7d' then
        pass
        return a
      else throw .malformed
    else throw .malformed
  else throw .malformed

/-- A field of a record: its name, and how its value is read into the record. -/
structure Field (σ : Type) where
  name : String
  read : σ → Reader σ

/-- Read the fields of a record from the items of an array whose bracket has been passed. -/
def recordItems {σ : Type} : List (Field σ) → (first : Bool) → σ → Reader σ
  | [], _, s => do
    if (← expectToken) = ascii ']' then
      pass
      return s
    else throw .malformed
  | f :: rest, first, s => do
    let c ← expectToken
    if c = ascii ']' then
      pass
      return s
    else if first then
      recordItems rest false (← f.read s)
    else if c = ascii ',' then
      pass
      if (← expectToken) = ascii ']' then throw .malformed
      recordItems rest false (← f.read s)
    else throw .malformed

/-- Read a member of an object whose opening quote has been passed. A field may be given once. -/
def member {σ : Type} (fields : List (Field σ)) (seen : List String) (s : σ) :
    Reader (List String × σ) := do
  let key ← quoted false
  match fields.find? fun f => asciiBytes f.name == key with
  | none =>
    colon
    skipValue
    return (seen, s)
  | some f =>
    if seen.contains f.name then throw .mismatch
    colon
    return (f.name :: seen, ← f.read s)

/-- Read the fields of a record from the members of an object whose bracket has been passed. `fuel`
is a bound on the bytes left. -/
def recordMembers {σ : Type} (fields : List (Field σ)) :
    (fuel : Nat) → (first : Bool) → List String → σ → Reader σ
  | 0, _, _, _ => throw .endsEarly
  | fuel + 1, first, seen, s => do
    let c ← expectToken
    if c = ascii '\x7d' then
      pass
      return s
    if !first then
      if c = ascii ',' then pass else throw .malformed
    if (← expectToken) = ascii '"' then
      pass
      let (seen, s) ← member fields seen s
      recordMembers fields fuel false seen s
    else throw .malformed

/-- Read a record, starting from given values. -/
def record {σ : Type} (fields : List (Field σ)) (start : σ) : Reader σ := do
  let c ← expectToken
  if c = ascii '[' then
    pass
    recordItems fields true start
  else if c = ascii '\x7b' then
    pass
    recordMembers fields ((← get).length + 1) true [] start
  else mismatch

end Famiclone.Json
