import Famiclone.Console
import Famiclone.Verdict

/-!
# Running test programs

A test program runs until it reports. When it asks for a reset it is given one, but not before a
tenth of a second has passed.
-/
namespace Famiclone.Console

def verdict (c : Console) : Verdict := Verdict.ofMemory c.bus.peek

/-- Run frames from number `frame` on, at most `left` of them, until there is a report. A first
request for a reset sets the frame in which one is due; a request in that frame or later is answered. -/
def awaitFrom (total delay : Nat) :
    (left : Nat) → (frame : Nat) → (due : Option Nat) → Console →
      Except ConsoleError Outcome × Console
  | 0, _, _, c => (.error (.noReport total), c)
  | left + 1, frame, due, c =>
    match c.runFrame with
    | (.error e, c) => (.error e, c)
    | (.ok (), c) =>
      match c.verdict with
      | .done outcome => (.ok outcome, c)
      | .resetRequested =>
        let answerFrom := due.getD (frame + delay)
        if answerFrom ≤ frame then awaitFrom total delay left (frame + 1) none c.reset
        else awaitFrom total delay left (frame + 1) (some answerFrom) c
      | .running | .absent => awaitFrom total delay left (frame + 1) due c

/-- Run a test program until it reports, at most for a number of frames. -/
def await (c : Console) (limit : Nat) : Except ConsoleError Outcome × Console :=
  awaitFrom limit c.region.framesPerTenth limit 0 none c

end Famiclone.Console
