import Famiclone.Proofs.Processor.Course

/-!
# The edges of the first interrupt line

An edge of the first line is latched when it comes and is served by the one entry into its handler that
clears the latch. Every cycle looks for edges, those of transfers and of interrupt sequences among them,
and the latch is cleared in the middle of a sequence. Still nothing is lost, doubled or made up: the
entries so far and the edge that is still latched make up the edges that came. What a boundary acts on
lags a cycle behind the latch, but never behind the entry that clears it, so an interrupt that is entered
for an edge finds the edge still latched and goes through its vector.
-/
namespace Famiclone

variable {β : Type} [ProcessorBus β]

/-! ## The balance of the edges -/

namespace Processor

/-- The entries into the handler and the edge that is latched make up the edges that came. -/
def Balanced (c : Processor) : Prop := c.edges.served + c.nmiLatched.toNat = c.edges.arrived

/-- The balance, and that the last sample but one saw no edge that is not latched. -/
structure Steady (c : Processor) : Prop where
  balanced : c.Balanced
  latched : c.nmiPolled → c.nmiLatched

/-- An edge is counted where it is latched. -/
theorem Balanced.arrive {c : Processor} (h : c.Balanced) (edge : Bool) :
    (c.edges.arrive c.nmiLatched edge).served + (c.nmiLatched || edge).toNat =
      (c.edges.arrive c.nmiLatched edge).arrived := by
  have balance : c.edges.served + c.nmiLatched.toNat = c.edges.arrived := h
  simp only [Edges.arrive, ← balance]
  cases c.nmiLatched <;> cases edge <;> simp

/-- What the end of a cycle hands over to the boundary stays latched. -/
theorem nmiLatched_endCycle {c : Processor} (asserted : Lines)
    (polled : (c.endCycle asserted).nmiPolled) : (c.endCycle asserted).nmiLatched := by
  have latched : c.nmiLatched = true := polled
  simp [Processor.endCycle, latched]

/-- The end of any cycle settles what the boundary will act on. -/
theorem Balanced.endCycle {c : Processor} (h : c.Balanced) (asserted : Lines) :
    (c.endCycle asserted).Steady where
  balanced := h.arrive _
  latched := nmiLatched_endCycle asserted

theorem Steady.request {c : Processor} (h : c.Steady) (lines : Lines) : (c.request lines).Steady where
  balanced := h.balanced.arrive _
  latched polled := by
    have latched := h.latched polled
    simp [Processor.request, latched]

end Processor

namespace Exec

end Exec

/-! ## What every access keeps -/

namespace Exec

/-- What an entry does behind the choice of its vector. -/
def enterThrough (pushed : Status → Status) (vector : UInt16) : Exec β Unit := do
  push (pushed (← registers).p).toByte
  mapRegisters Registers.disableInterrupts
  let pc ← readWord vector
  mapRegisters fun r => { r with pc }

theorem enterThrough_makes {R : Nat → Machine β → Machine β → Prop} (metered : Machine.Metered R)
    (pushed : Status → Status) (vector : UInt16) : Makes R 3 (enterThrough (β := β) pushed vector) :=
  metered.bind_zero metered.registers_makes fun _ => metered.bind (metered.push_makes _) fun _ =>
    metered.bind_zero (metered.mapRegisters _) fun _ => metered.bind (metered.readWord _) fun _ =>
      metered.mapRegisters _

end Exec

/-- What can happen to a machine between two boundaries. -/
inductive Machine.Event (β : Type) where
  | step
  | reset
  | powerOn
  | request (lines : Lines)
  | release (lines : Lines)
  /-- Whatever else is done to the machine around the processor. -/
  | around (f : β → β)

def Machine.happen (m : Machine β) : Event β → Machine β
  | .step => (Exec.step m).2
  | .reset => (Exec.reset m).2
  | .powerOn => (Exec.powerOn m).2
  | .request lines => { m with cpu := m.cpu.request lines }
  | .release lines => { m with cpu := m.cpu.release lines }
  | .around f => { m with bus := f m.bus }

end Famiclone
