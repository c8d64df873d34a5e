import Famiclone.Region

/-!
# Options of the command line

Options have long names, and most have a letter as well. Letters can be run together; a value
follows as the next argument or in the same one, behind the letter or an equals sign. An option is
given at most once, except that each `-v` asks for more messages.
-/
namespace Famiclone.CommandLine

/-- An option without a value. -/
inductive Switch where
  | testRom
  | strict
  | dumpCpu
  | dumpPicture
  | verbose
  | help
  deriving DecidableEq, Repr

/-- An option with a value. -/
inductive Parameter where
  | rom
  | frames
  | region
  deriving DecidableEq, Repr

def switches : List (Switch × String × Option Char) := [
  (.testRom, "test-rom", some 't'),
  (.strict, "strict", none),
  (.dumpCpu, "dump-cpu", some 'c'),
  (.dumpPicture, "dump-ppu", some 'p'),
  (.verbose, "verbose", some 'v'),
  (.help, "help", some 'h')]

def parameters : List (Parameter × String × Option Char) := [
  (.rom, "rom", some 'r'),
  (.frames, "frames", some 'f'),
  (.region, "region", none)]

inductive UsageError where
  | unexpected (argument : String)
  | missingValue (option : String)
  | unexpectedValue (option : String)
  | invalidValue (option value : String)
  | repeated (option : String)
  | missing (option : String)
  deriving DecidableEq, Repr

def UsageError.message : UsageError → String
  | unexpected argument => "error: unexpected argument '" ++ argument ++ "' found"
  | missingValue option => "error: a value is required for '--" ++ option ++ "' but none was supplied"
  | unexpectedValue option => "error: no value is expected for '--" ++ option ++ "'"
  | invalidValue option value => "error: invalid value '" ++ value ++ "' for '--" ++ option ++ "'"
  | repeated option => "error: the argument '--" ++ option ++ "' cannot be used multiple times"
  | missing option => "error: the argument '--" ++ option ++ "' is required"

structure Given where
  rom : Option String
  frames : Option Nat
  region : Option RegionChoice
  switches : List Switch

def Given.nothing : Given := ⟨none, none, none, []⟩

/-- What the program is to do. -/
structure Options where
  rom : String
  /-- The frames to run, or the limit for a test program. -/
  frames : Nat
  testRom : Bool
  region : RegionChoice
  strict : Bool
  dumpCpu : Bool
  dumpPicture : Bool
  deriving DecidableEq, Repr

/-- A number of frames: a whole number that fits in 32 bits. -/
def framesOf? (text : String) : Option Nat :=
  let number (ds : List Char) : Option Nat :=
    if ds.isEmpty || !ds.all Char.isDigit then none
    else
      let n := ds.foldl (fun n d => n * 10 + (d.toNat - 48)) 0
      if n < UInt32.size then some n else none
  match text.toList with
  | '+' :: ds => number ds
  | '-' :: ds => (number ds).filter fun n => n == 0
  | ds => number ds

def regionOf? : String → Option RegionChoice
  | "auto" => some .auto
  | "ntsc" => some .ntsc
  | "pal" => some .pal
  | _ => none

def Parameter.name : Parameter → String
  | rom => "rom"
  | frames => "frames"
  | region => "region"

def Switch.name (s : Switch) : String :=
  match switches.find? fun e => e.1 == s with
  | some (_, name, _) => name
  | none => ""

def Given.set (g : Given) (p : Parameter) (value : String) : Except UsageError Given :=
  match p with
  | .rom =>
    if g.rom.isSome then .error (.repeated p.name)
    else if value.isEmpty then .error (.missingValue p.name)
    else .ok { g with rom := some value }
  | .frames =>
    if g.frames.isSome then .error (.repeated p.name)
    else match framesOf? value with
      | some n => .ok { g with frames := some n }
      | none => .error (.invalidValue p.name value)
  | .region =>
    if g.region.isSome then .error (.repeated p.name)
    else match regionOf? value with
      | some r => .ok { g with region := some r }
      | none => .error (.invalidValue p.name value)

def Given.add (g : Given) (s : Switch) : Except UsageError Given :=
  if s ≠ .verbose ∧ g.switches.contains s then .error (.repeated s.name)
  else .ok { g with switches := s :: g.switches }

/-- What the letters of one argument come to. -/
inductive Letters where
  | done (given : Given)
  /-- The last letter is of a parameter whose value is in the next argument. -/
  | needs (parameter : Parameter) (given : Given)

/-- Take letters that are run together, up to one that asks for help. -/
def letters (argument : String) : List Char → Given → Except UsageError Letters
  | [], g => .ok (.done g)
  | c :: rest, g =>
    match switches.find? fun e => e.2.2 == some c with
    | some (.help, _) => .ok (.done { g with switches := .help :: g.switches })
    | some (s, _) => do letters argument rest (← g.add s)
    | none =>
      match parameters.find? fun e => e.2.2 == some c with
      | none => .error (.unexpected argument)
      | some (p, _) =>
        match rest with
        | [] => .ok (.needs p g)
        | '=' :: value => return .done (← g.set p (String.ofList value))
        | value => return .done (← g.set p (String.ofList value))

/-- Split a long option at its first equals sign. -/
def splitValue (text : List Char) : String × Option String :=
  let name := text.takeWhile (· != '=')
  (String.ofList name, match text.dropWhile (· != '=') with
    | [] => none
    | _ :: value => some (String.ofList value))

/-- Whether an argument cannot be the value of the option before it. -/
def isOption : List Char → Bool
  | '-' :: _ :: _ => true
  | _ => false

def Given.wantsHelp (g : Given) : Bool := g.switches.contains .help

/-- Take arguments in order, up to one that asks for help. A parameter without its value waits for the
next one. -/
def gather : (waiting : Option Parameter) → List String → Given → Except UsageError Given
  | some p, [], _ => .error (.missingValue p.name)
  | some p, value :: rest, g =>
    if isOption value.toList then .error (.missingValue p.name)
    else do gather none rest (← g.set p value)
  | none, [], g => .ok g
  | none, argument :: rest, g =>
    match argument.toList with
    | '-' :: '-' :: [] =>
      match rest with
      | [] => .ok g
      | extra :: _ => .error (.unexpected extra)
    | '-' :: '-' :: long =>
      let (name, value) := splitValue long
      match switches.find? fun e => e.2.1 == name, value with
      | some (s, _), some _ => .error (.unexpectedValue s.name)
      | some (.help, _), none => .ok { g with switches := .help :: g.switches }
      | some (s, _), none => do gather none rest (← g.add s)
      | none, value =>
        match parameters.find? fun e => e.2.1 == name, value with
        | none, _ => .error (.unexpected argument)
        | some (p, _), some value => do gather none rest (← g.set p value)
        | some (p, _), none => gather (some p) rest g
    | '-' :: c :: cs => do
      match ← letters argument (c :: cs) g with
      | .needs p g => gather (some p) rest g
      | .done g => if g.wantsHelp then return g else gather none rest g
    | _ => .error (.unexpected argument)

/-- What arguments ask for: help, or a run. -/
def parse (args : List String) : Except UsageError (Option Options) := do
  let g ← gather none args .nothing
  if g.wantsHelp then return none
  match g.rom with
  | none => throw (.missing "rom")
  | some rom =>
    return some {
      rom
      frames := g.frames.getD 60
      testRom := g.switches.contains .testRom
      region := g.region.getD .auto
      strict := g.switches.contains .strict
      dumpCpu := g.switches.contains .dumpCpu
      dumpPicture := g.switches.contains .dumpPicture }

example : (parse ["-tf5", "--rom=x", "--region", "pal"]).toOption =
    some (some ⟨"x", 5, true, .pal, false, false, false⟩) := by decide +kernel

def helpText : String := "Headless NES emulator runner

Usage: rnes-cli [OPTIONS] --rom <ROM>

Options:
  -r, --rom <ROM>        Path to the iNES ROM file
  -f, --frames <FRAMES>  Number of frames to run (frame limit in test mode) [default: 60]
  -t, --test-rom         Run a result-protocol test ROM; the exit status is its result code
      --region <REGION>  Console region [default: auto] [possible values: auto, ntsc, pal]
      --strict           Reject unofficial opcodes
  -c, --dump-cpu         Dump CPU state after execution
  -p, --dump-ppu         Dump PPU state after execution
  -v, --verbose...       More log output (-v info, -vv debug, -vvv trace)
  -h, --help             Print help
"

end Famiclone.CommandLine
