import Famiclone.Processor.Bench
import Famiclone.Proofs.Processor.Edges
import Famiclone.Proofs.Processor.Unseen

/-!
# A record of the accesses

A bus can keep a record of what is asked of it, and the processor does not notice. The record tells which
accesses a step, a reset or a whole run makes, in their order and with the values that were handed over.
-/
namespace Famiclone

variable {β : Type} [ProcessorBus β]

/-- A bus with a record of the accesses that are made to it, the last one last. -/
structure Recorded (β : Type) where
  bus : β
  record : List Access

instance : ProcessorBus (Recorded β) where
  read r address :=
    let (value, bus) := ProcessorBus.read r.bus address
    (value, ⟨bus, r.record ++ [⟨false, address, value⟩]⟩)
  write r address value :=
    ⟨ProcessorBus.write r.bus address value, r.record ++ [⟨true, address, value⟩]⟩
  lines r := ProcessorBus.lines r.bus
  takeTransfer r :=
    ((ProcessorBus.takeTransfer r.bus).1, ⟨(ProcessorBus.takeTransfer r.bus).2, r.record⟩)
  deliver r value := { r with bus := ProcessorBus.deliver r.bus value }
  transferLimit r := ProcessorBus.transferLimit r.bus

/-- The processor does not see the record. -/
theorem Recorded.unseen : ProcessorBus.Unseen (Recorded.bus (β := β)) where
  read _ _ := rfl
  write _ _ _ := rfl
  lines _ := rfl
  takeTransfer _ := rfl
  deliver _ _ := rfl
  transferLimit _ := rfl

def Machine.recorded (m : Machine β) : Machine (Recorded β) := m.onBus fun bus => ⟨bus, []⟩

namespace Machine

/-- What an event shows outside: the answer of a step, and the accesses that are made. -/
def shown (m : Machine β) : Event β → Option (Except IllegalOpcode Nat) × List Access
  | .step => (some (Exec.step m).1, (Exec.step m.recorded).2.bus.record)
  | .reset => (none, (Exec.reset m.recorded).2.bus.record)
  | .powerOn => (none, (Exec.powerOn m.recorded).2.bus.record)
  | .request _ | .release _ | .around _ => (none, [])

/-- What a run shows outside. -/
def shownIn (m : Machine β) : List (Event β) → List (Option (Except IllegalOpcode Nat) × List Access)
  | [] => []
  | event :: rest => m.shown event :: (m.happen event).shownIn rest

end Machine

end Famiclone
