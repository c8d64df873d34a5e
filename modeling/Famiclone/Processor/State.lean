import Famiclone.Processor.Bus
import Famiclone.Processor.Registers

/-!
# The processor's state

Beside its registers the processor keeps what it has seen of the interrupt lines. They are sampled
at the end of every cycle, and the boundary between two instructions acts on the sample before the
last one: `nmiPolled` and `irqPolled` run one cycle behind `nmiLatched` and `irqSampled`.
-/
namespace Famiclone

/-- What has become of the edges of the first line since the last reset. Nothing reads these counts. -/
structure Edges where
  /-- Edges that came while none was latched. -/
  arrived : Nat
  /-- Entries into the handler of the first line. -/
  served : Nat
  deriving DecidableEq, Repr

namespace Edges

def none : Edges := ⟨0, 0⟩

/-- Count an edge that comes, unless one is latched already. -/
def arrive (e : Edges) (latched edge : Bool) : Edges :=
  { e with arrived := e.arrived + (edge && !latched).toNat }

def serve (e : Edges) : Edges := { e with served := e.served + 1 }

end Edges

/-- What the end of a cycle sees of the level-sensitive lines. -/
structure Sample where
  /-- One of the lines is asserted. -/
  asserted : Bool
  /-- Interrupts are disabled. -/
  masked : Bool
  deriving DecidableEq, Repr

namespace Sample

/-- No line, and interrupts disabled. -/
def idle : Sample := ⟨false, true⟩

/-- An interrupt is seen that is not disabled. -/
def pending (s : Sample) : Bool := s.asserted && !s.masked

end Sample

/-- The samples of the last three cycles. Nothing reads them. -/
structure Samples where
  last : Sample
  before : Sample
  earlier : Sample
  deriving DecidableEq, Repr

namespace Samples

def none : Samples := ⟨.idle, .idle, .idle⟩

def push (s : Samples) (sample : Sample) : Samples := ⟨sample, s.last, s.before⟩

end Samples

structure Processor where
  registers : Registers
  /-- Cycles since power-on. -/
  cycles : Nat
  /-- Whether unofficial opcodes are refused. -/
  strict : Bool
  /-- Whether the processor has stopped until a reset. -/
  jammed : Bool
  /-- Level-sensitive lines asserted by the host and not through the bus. -/
  requested : Lines
  /-- The level of the first line in the last sample. -/
  nmiLine : Bool
  /-- An edge of the first line that has not been serviced. -/
  nmiLatched : Bool
  nmiPolled : Bool
  /-- Whether the last sample saw an interrupt that is not disabled. -/
  irqSampled : Bool
  irqPolled : Bool
  edges : Edges
  samples : Samples
  deriving DecidableEq, Repr

namespace Processor

def initial : Processor where
  registers := .initial
  cycles := 0
  strict := false
  jammed := false
  requested := .none
  nmiLine := false
  nmiLatched := false
  nmiPolled := false
  irqSampled := false
  irqPolled := false
  edges := .none
  samples := .none

/-- The end of a cycle: count it and sample the lines. -/
def endCycle (c : Processor) (asserted : Lines) : Processor :=
  let lines := asserted.union c.requested
  let edge := lines.nmi && !c.nmiLine
  { c with
    cycles := c.cycles + 1
    nmiPolled := c.nmiLatched
    nmiLatched := c.nmiLatched || edge
    edges := c.edges.arrive c.nmiLatched edge
    nmiLine := lines.nmi
    irqPolled := c.irqSampled
    irqSampled := lines.irq && !c.registers.p.interruptDisable
    samples := c.samples.push ⟨lines.irq, c.registers.p.interruptDisable⟩ }

/-- Assert lines from outside: the edge-sensitive one is latched at once, the others stay. -/
def request (c : Processor) (lines : Lines) : Processor :=
  { c with
    nmiLatched := c.nmiLatched || lines.nmi
    edges := c.edges.arrive c.nmiLatched lines.nmi
    requested := c.requested.union lines.levels }

/-- Release lines asserted by `request`. -/
def release (c : Processor) (lines : Lines) : Processor :=
  { c with requested := c.requested.diff lines }

def mapRegisters (c : Processor) (f : Registers → Registers) : Processor :=
  { c with registers := f c.registers }

end Processor

end Famiclone
