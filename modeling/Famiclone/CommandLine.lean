import Famiclone.CommandLine.Options
import Famiclone.Console.TestProgram
import Famiclone.Console.Text

/-!
# The command line program

It runs a cartridge without a screen for some frames, or runs a test program to its report, and
prints what has become of it.
-/
namespace Famiclone.CommandLine

/-- What the program has done: its exit code, and what it has printed. -/
structure Report where
  code : Nat
  output : String
  errors : String
  deriving DecidableEq, Repr

/-- A program that could not do what it was asked. -/
def Report.failed (output reason : String) : Report := ⟨1, output, "error: " ++ reason ++ "\n"⟩

def joined (lines : List String) : String := String.join (lines.map fun l => l ++ "\n")

def cartridgeLines (c : Console) : List String :=
  match c.label with
  | none => []
  | some label => [
      "Loaded cartridge " ++ label.id ++ ":",
      "  PRG ROM: " ++ toString label.header.prgSize ++ " bytes",
      "  CHR ROM: " ++ toString label.header.chrSize ++ " bytes",
      "  Mapper:  " ++ toString label.header.mapper,
      "  Region:  " ++ c.region.name]

def cpuLines (c : Console) : List String :=
  let r := c.cpu.registers
  let byte (b : UInt8) : String := "$" ++ Hex.paddedUpper 2 b.toNat
  [ "",
    "CPU State:",
    "  A:    " ++ byte r.a,
    "  X:    " ++ byte r.x,
    "  Y:    " ++ byte r.y,
    "  PC:   $" ++ Hex.paddedUpper 4 r.pc.toNat,
    "  SP:   " ++ byte r.sp,
    "  P:    " ++ byte r.p.toByte ++ " (" ++ r.p.text ++ ")",
    "  Cycles: " ++ toString c.cpu.cycles] ++
  if c.cpu.jammed then ["  (jammed)"] else []

def pictureLines (c : Console) : List String :=
  let beam := c.bus.picture.beam
  [ "",
    "PPU State:",
    "  Frame:    " ++ toString beam.frame,
    "  Scanline: " ++ toString beam.line,
    "  Dot:      " ++ toString beam.dot,
    "  NMI line: " ++ toString c.bus.picture.nmi]

def outcomeLines (c : Console) (outcome : Outcome) : List String :=
  (if outcome.message.isEmpty then [] else [outcome.message]) ++
    [(if outcome.passed then "Passed" else "Failed") ++ " (code " ++ toString outcome.code.toNat ++
      ") after " ++ toString c.frames ++ " frames"]

def runFrames : Nat → Console → Except ConsoleError Unit × Console
  | 0, c => (.ok (), c)
  | n + 1, c =>
    match c.runFrame with
    | (.ok (), c) => runFrames n c
    | (.error e, c) => (.error e, c)

/-- Run the console as the options say. The answer is the exit code with what there is to print. -/
def play (o : Options) (c : Console) : Except ConsoleError (Nat × List String) × Console :=
  if o.testRom then
    let (answer, c) := c.await o.frames
    (answer.map fun outcome => (outcome.code.toNat, outcomeLines c outcome), c)
  else
    let (answer, c) := runFrames o.frames c
    (answer.map fun _ => (0, ["Completed " ++ toString c.frames ++ " frames."]), c)

def runImage (o : Options) (image : Array UInt8) : Report :=
  let settings : Settings := { region := o.region, strictOpcodes := o.strict }
  match (Console.build settings .full .standard).load image with
  | .error e => .failed "" e.message
  | .ok c =>
    let described := joined (cartridgeLines c)
    match play o c with
    | (.error e, _) => .failed described e.message
    | (.ok (code, lines), c) =>
      let dumps := (if o.dumpCpu then cpuLines c else []) ++
        if o.dumpPicture then pictureLines c else []
      ⟨code, described ++ joined (lines ++ dumps), ""⟩

/-- Run the program on the contents of the file that it is given, or on the reason why there are
none. -/
def run (args : List String) (contents : String → Except String (Array UInt8)) : Report :=
  match parse args with
  | .error e => ⟨2, "", e.message ++ "\n"⟩
  | .ok none => ⟨0, helpText, ""⟩
  | .ok (some o) =>
    match contents o.rom with
    | .error reason => .failed "" ("failed to read " ++ o.rom ++ ": " ++ reason)
    | .ok image => runImage o image

end Famiclone.CommandLine
