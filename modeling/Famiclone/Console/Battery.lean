import Famiclone.Console
import Famiclone.Storage

/-!
# Saved memory

Work RAM with a battery is saved under the identifier of its cartridge and comes back from there.
-/
namespace Famiclone

inductive BatteryError where
  | noCartridge
  | storage (error : StorageError)
  deriving DecidableEq, Repr

namespace Console

variable {σ : Type} [Storage σ]

/-- The work RAM that is saved, if the board has a battery and RAM. -/
def batteryRam? (c : Console) : Option (Array UInt8) :=
  if c.bus.board.hasBattery then c.bus.board.workRam? else none

/-- Fill the work RAM from what is saved, and tell whether something is. -/
def restore (c : Console) (s : σ) : Except BatteryError (Bool × Console) :=
  match c.label, c.batteryRam? with
  | none, _ => .error .noCartridge
  | some _, none => .ok (false, c)
  | some label, some ram => do
    let (found, filled) ← (Storage.load s label.id ram.toVector).mapError .storage
    return (found, c.mapBus fun m => { m with board := m.board.mapWorkRam fun _ => filled.toArray })

/-- Save the work RAM, and tell whether there is something to save. -/
def save (c : Console) (s : σ) : Except BatteryError Bool × σ :=
  match c.label, c.batteryRam? with
  | none, _ => (.error .noCartridge, s)
  | some _, none => (.ok false, s)
  | some label, some ram =>
    let (answer, s) := Storage.writeRam s label.id ram
    ((answer.map fun _ => true).mapError .storage, s)

end Console

end Famiclone
