import Famiclone.Proofs.Processor.Accesses

/-!
# The course of a machine

Whatever the processor does is made of few kinds of changes: cycles on the bus, the handling of a
transfer, and changes within the processor, which take no time. A course is a row of such changes.
Every action of the processor runs along one, so a fact that each change keeps is kept by instructions,
interrupts, transfers and resets alike.
-/
namespace Famiclone

variable {β : Type} [ProcessorBus β]

/-- One change of a machine. -/
inductive Machine.Change : Machine β → Machine β → Prop
  | inner (m : Machine β) (cpu : Processor) (h : cpu.cycles = m.cpu.cycles) :
      Change m { m with cpu }
  | read (m : Machine β) (address : UInt16) : Change m (Exec.cycleRead address m).2
  | write (m : Machine β) (address : UInt16) (value : UInt8) :
      Change m (Exec.write address value m).2
  | take (m : Machine β) : Change m { m with bus := (ProcessorBus.takeTransfer m.bus).2 }
  | deliver (m : Machine β) (value : UInt8) :
      Change m { m with bus := ProcessorBus.deliver m.bus value }

theorem Machine.BusChange.change {m n : Machine β} (h : m.BusChange n) : m.Change n := by
  cases h with
  | read address => exact .read m address
  | write address value => exact .write m address value
  | take => exact .take m
  | deliver value => exact .deliver m value

abbrev Machine.Course : Machine β → Machine β → Prop := Relation.ReflTransGen Machine.Change

/-- What each change keeps, a course keeps. -/
theorem Machine.Course.keeps {P : Machine β → Prop}
    (step : ∀ m n, Machine.Change m n → P m → P n) {m n : Machine β} (h : m.Course n)
    (hm : P m) : P n := keeps_of_steps step h hm

theorem Machine.Course.inner (m : Machine β) (cpu : Processor) (h : cpu.cycles = m.cpu.cycles) :
    m.Course { m with cpu } := .single (.inner m cpu h)

/-- Courses are followed whatever the number of accesses. -/
theorem Machine.Course.metered :
    Machine.MeteredSteps (fun _ => Machine.Course : Nat → Machine β → Machine β → Prop) where
  refl _ := .refl
  trans h k := h.trans k
  read m address :=
    Relation.ReflTransGen.mono (fun _ _ h => h.change) _ _ (Exec.read_runsBus address m)
  push m value := .single (.write m _ value)
  registers m f := inner m (m.cpu.mapRegisters f) rfl
  vector m value := by
    refine .trans ?_ (.single (.write _ _ value))
    rw [Exec.takeVector_snd]
    exact inner m _ rfl
  poll m := inner m _ rfl
  settle m := inner m _ rfl
  jam m := inner m _ rfl

namespace Exec

/-- An action that runs along a course from every state. -/
def Stepwise {α : Type} (action : Exec β α) : Prop :=
  ∀ m : Machine β, Machine.Course m (action m).2

/-- A step of any kind, one that fails among them, runs along a course. -/
theorem step_stepwise : Stepwise (step (β := β)) :=
  Machine.Course.metered.step_at
    (Machine.Course.metered.closing fun m address value => .single (.write m address value))

/-- Nothing that the processor does makes it strict or lenient. -/
theorem strict_metered : Machine.MeteredSteps (β := β) fun _ m n => n.cpu.strict = m.cpu.strict where
  refl _ := rfl
  trans first second := second.trans first
  read m address := read_strict address m
  push _ _ := rfl
  registers _ _ := rfl
  vector m _ := takeVector_strict m
  poll _ := rfl
  settle _ := rfl
  jam _ := rfl

theorem step_strict (m : Machine β) : (step m).2.cpu.strict = m.cpu.strict :=
  strict_metered.step_at (strict_metered.closing fun _ _ _ => rfl) m

theorem reset_stepwise : Stepwise (reset (β := β)) := fun m =>
  (Machine.Course.inner m (forgotten m).cpu rfl).trans (Machine.Course.metered.reset_at m)

/-- The machine on which power-on runs the reset sequence. -/
def cleared (m : Machine β) : Machine β :=
  { m with
    cpu := { Processor.initial with
      strict := m.cpu.strict
      registers := { Registers.initial with sp := 0 } } }

theorem powerOn_eq (m : Machine β) : powerOn m = reset (cleared m) := by
  unfold powerOn
  exact modify_bind _ _ m

theorem powerOn_strict (m : Machine β) : (powerOn m).2.cpu.strict = m.cpu.strict := by
  rw [powerOn_eq]
  exact strict_metered.reset_at (cleared m)

/-- Power-on sets the processor's clock back, so its course begins behind that. -/
theorem powerOn_course (m : Machine β) : Machine.Course (cleared m) (powerOn m).2 := by
  rw [powerOn_eq]
  exact reset_stepwise _

end Exec

end Famiclone
