import Famiclone.Utf8
import Famiclone.Word

/-!
# Verdicts of test programs

A test program reports in work RAM: three bytes of signature at `$6001`, a status at `$6000`, and a
text that ends with a zero byte at `$6004`.
-/
namespace Famiclone

/-- The report of a test program that has ended. -/
structure Outcome where
  code : UInt8
  message : String
  deriving DecidableEq, Repr

/-- Code zero means that the test has passed. -/
def Outcome.passed (o : Outcome) : Bool := o.code == 0

/-- What a test program says of itself. -/
inductive Verdict where
  | absent
  | running
  /-- Somebody is to press the reset button. -/
  | resetRequested
  | done (outcome : Outcome)
  deriving DecidableEq, Repr

namespace Verdict

def statusAddress : UInt16 := 0x6000

/-- The bytes after the status. -/
def signature : List UInt8 := [0xDE, 0xB0, 0x61]

def messageAddress : UInt16 := 0x6004

/-- The longest text that is read. -/
def messageLimit : Nat := 0x1000

def block (peek : UInt16 → UInt8) (start : UInt16) (count : Nat) : List UInt8 :=
  (List.range count).map fun i => peek (start + UInt16.ofNat i)

/-- The text of the report, without blanks at its end. -/
def message (peek : UInt16 → UInt8) : String :=
  let bytes := (block peek messageAddress messageLimit).takeWhile fun b => b != 0
  String.ofList (Utf8.trimmedEnd (Utf8.chars bytes))

/-- What the test program says, where `peek` looks into memory. Statuses from `$80` on are not
codes, and the second of them asks for a reset. -/
def ofMemory (peek : UInt16 → UInt8) : Verdict :=
  let status := peek statusAddress
  if block peek (statusAddress + 1) 3 ≠ signature then absent
  else if status < 0x80 then done ⟨status, message peek⟩
  else if status = 0x81 then resetRequested
  else running

end Verdict

end Famiclone
