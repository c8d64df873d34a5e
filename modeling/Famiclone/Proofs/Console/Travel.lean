import Famiclone.Proofs.Console.PhaseLock
import Famiclone.Proofs.Console.Transfers
import Famiclone.Proofs.Picture.FrameEnd

/-!
# How far the beam gets

Every processor cycle brings the beam on by the dots of the region, whatever is read or written in it.
So the beam's way in a step is known up to a dot from the cycles of the step, and what its way says about
lines and frames holds of steps. This needs a beam on the screen, and a picture unit of the region whose
dots and cycles the mainboard counts; every console has both.
-/
namespace Famiclone

/-! ## The mainboard -/

namespace PictureUnit

variable {β : Type} [PictureBus β]

/-- A number of dots brings the beam on by as many, with or without rendering. -/
theorem ticks_ahead (n : Nat) (u : PictureUnit) (board : β) (h : u.beam.InRange u.region) :
    (ticks n u board).1.region = u.region ∧
      Beam.Ahead u.region n u.beam (ticks n u board).1.beam := by
  induction n generalizing u board with
  | zero => exact ⟨rfl, .refl h⟩
  | succ n ih =>
    obtain ⟨rendering, moved⟩ := u.tick_timing board
    have region : (u.tick board).1.region = u.region := congrArg Prod.fst moved
    have beam : (u.tick board).1.beam = u.beam.advance u.region rendering := congrArg Prod.snd moved
    have dot : Beam.Ahead u.region 1 u.beam (u.tick board).1.beam := by
      rw [beam]
      exact Beam.advance_ahead h rendering
    have rest := ih (u.tick board).1 (u.tick board).2 (region ▸ dot.inRange)
    rw [region] at rest
    have both := dot.trans rest.2
    rw [Nat.add_comm] at both
    exact ⟨rest.1, both⟩

end PictureUnit

namespace Mainboard

/-- The mainboard counts the dots and cycles of the picture unit's region, and the beam is on the
screen. -/
structure Aligned (m : Mainboard) : Prop where
  ratio : m.ratio = m.picture.region.dotRatio
  remainder : m.remainder < m.picture.region.cyclesPerGroup
  beam : m.picture.beam.InRange m.picture.region

/-- A mainboard some cycles behind another. -/
structure Travels (cycles : Nat) (m n : Mainboard) : Prop where
  aligned : n.Aligned
  region : n.picture.region = m.picture.region
  way : ∃ dots, Beam.Ahead m.picture.region dots m.picture.beam n.picture.beam ∧
    dots * m.picture.region.cyclesPerGroup + n.remainder =
      cycles * m.picture.region.dotsPerGroup + m.remainder

theorem SameTime.travels {m n : Mainboard} (h : SameTime m n) (aligned : m.Aligned) :
    Travels 0 m n := by
  have region : n.picture.region = m.picture.region := congrArg Prod.fst h.timing
  have beam : n.picture.beam = m.picture.beam := congrArg Prod.snd h.timing
  refine ⟨⟨?_, ?_, ?_⟩, region, 0, ?_, ?_⟩
  · rw [region, h.ratio, aligned.ratio]
  · rw [h.remainder, region]
    exact aligned.remainder
  · rw [beam, region]
    exact aligned.beam
  · rw [beam]
    exact .refl aligned.beam
  · rw [h.remainder, Nat.zero_mul, Nat.zero_mul]

theorem Travels.trans {j k : Nat} {l m n : Mainboard} (first : Travels j l m)
    (second : Travels k m n) : Travels (j + k) l n := by
  obtain ⟨dots, ahead, pace⟩ := first.way
  obtain ⟨more, further, pace'⟩ := second.way
  rw [first.region] at further pace'
  refine ⟨second.aligned, second.region.trans first.region, dots + more, ahead.trans further, ?_⟩
  rw [Nat.add_mul, Nat.add_mul]
  omega

theorem clock_travels {m : Mainboard} (h : m.Aligned) : Travels 1 m m.clock := by
  have ticked := PictureUnit.ticks_ahead ((m.remainder + m.ratio.dots) / m.ratio.cycles)
    m.picture m.board h.beam
  have region : m.clock.picture.region = m.picture.region := ticked.1
  have cycles : m.ratio.cycles = m.picture.region.cyclesPerGroup := congrArg DotRatio.cycles h.ratio
  have dots : m.ratio.dots = m.picture.region.dotsPerGroup := congrArg DotRatio.dots h.ratio
  refine ⟨⟨?_, ?_, ?_⟩, region, _, ticked.2, ?_⟩
  · rw [region]
    exact h.ratio
  · rw [region, ← cycles]
    exact Nat.mod_lt _ m.ratio.cycles_pos
  · rw [region]
    exact ticked.2.inRange
  · rw [Nat.one_mul, Nat.mul_comm, ← cycles, ← dots]
    exact (Nat.div_add_mod _ _).trans (Nat.add_comm _ _)

/-- Nothing else of a mainboard matters for it. -/
theorem Aligned.of_same {m n : Mainboard} (h : m.Aligned) (ratio : n.ratio = m.ratio)
    (remainder : n.remainder = m.remainder)
    (unit : n.picture.region = m.picture.region ∧ n.picture.beam.line = m.picture.beam.line ∧
      n.picture.beam.dot = m.picture.beam.dot) : n.Aligned := by
  obtain ⟨region, line, dot⟩ := unit
  refine ⟨?_, ?_, ?_⟩
  · rw [ratio, region]
    exact h.ratio
  · rw [remainder, region]
    exact h.remainder
  · rw [region]
    exact ⟨line ▸ h.beam.line, dot ▸ h.beam.dot⟩

theorem read_travels {m : Mainboard} (h : m.Aligned) (address : UInt16) :
    Travels 1 m (m.read address).2 := by
  obtain ⟨n, same, clocked⟩ := m.read_eq_clock address
  have still := same.travels h
  rw [clocked]
  exact still.trans (clock_travels still.aligned)

theorem write_travels {m : Mainboard} (h : m.Aligned) (address : UInt16) (value : UInt8) :
    Travels 1 m (m.write address value) := by
  obtain ⟨n, same, clocked⟩ := m.write_eq_clock address value
  have still := same.travels h
  rw [clocked]
  exact still.trans (clock_travels still.aligned)

end Mainboard

/-! ## The machine -/

namespace Machine

/-- The mainboard has come on by the cycles that the processor has counted. -/
def Travels (m n : Machine Mainboard) : Prop :=
  ∃ cycles, n.cpu.cycles = m.cpu.cycles + cycles ∧ m.bus.Travels cycles n.bus

theorem Change.travels {m n : Machine Mainboard} (change : Change m n) (h : m.bus.Aligned) :
    m.Travels n := by
  cases change with
  | inner cpu cycles => exact ⟨0, cycles, (Mainboard.SameTime.refl m.bus).travels h⟩
  | read address => exact ⟨1, rfl, Mainboard.read_travels h address⟩
  | write address value => exact ⟨1, rfl, Mainboard.write_travels h address value⟩
  | take => exact ⟨0, rfl, m.bus.takeTransfer_sameTime.travels h⟩
  | deliver value => exact ⟨0, rfl, Mainboard.SameTime.travels ⟨rfl, rfl, rfl, rfl, rfl⟩ h⟩

theorem Course.travels {m n : Machine Mainboard} (course : m.Course n) (h : m.bus.Aligned) :
    m.Travels n := by
  induction course with
  | refl => exact ⟨0, rfl, (Mainboard.SameTime.refl m.bus).travels h⟩
  | tail _ last ih =>
    obtain ⟨cycles, count, way⟩ := ih
    obtain ⟨more, count', further⟩ := last.travels way.aligned
    exact ⟨cycles + more, by omega, way.trans further⟩

theorem aligned_kept : Kept fun m => m.bus.Aligned where
  change change h := by
    obtain ⟨_, _, way⟩ := change.travels h
    exact way.aligned
  reset m h := by
    have same : m.bus.picture.reset.region = m.bus.picture.region ∧
        m.bus.picture.reset.beam.line = m.bus.picture.beam.line ∧
        m.bus.picture.reset.beam.dot = m.bus.picture.beam.dot := by
      cases m.bus.picture <;> exact ⟨rfl, rfl, rfl⟩
    exact h.of_same rfl rfl same
  taken m h := by
    have same : m.bus.picture.takeFinished.2.region = m.bus.picture.region ∧
        m.bus.picture.takeFinished.2.beam.line = m.bus.picture.beam.line ∧
        m.bus.picture.takeFinished.2.beam.dot = m.bus.picture.beam.dot := by
      cases m.bus.picture <;> exact ⟨rfl, rfl, rfl⟩
    exact h.of_same rfl rfl same
  heard m h := ⟨h.ratio, h.remainder, h.beam⟩
  moved m ports h := ⟨h.ratio, h.remainder, h.beam⟩

/-- The dots of a step: some, and not more than six lines have. -/
theorem step_ahead {m : Machine Mainboard} (h : m.bus.Aligned) :
    (Exec.step m).2.bus.Aligned ∧
      (Exec.step m).2.bus.picture.region = m.bus.picture.region ∧
      ∃ dots, Beam.Ahead m.bus.picture.region dots m.bus.picture.beam
          (Exec.step m).2.bus.picture.beam ∧
        0 < dots ∧ dots ≤ 6 * (dotsPerLine - 1) := by
  obtain ⟨cycles, count, way⟩ := (Exec.step_stepwise m).travels h
  obtain ⟨dots, ahead, pace⟩ := way.way
  refine ⟨way.aligned, way.region, dots, ahead, ?_⟩
  have some := Exec.step_cycles_pos m
  have few := Exec.step_cycles_le m
  have first := h.remainder
  have last := way.aligned.remainder
  rw [way.region] at last
  unfold dotsPerLine
  cases region : m.bus.picture.region <;>
    simp only [region, Region.cyclesPerGroup, Region.dotsPerGroup] at pace first last <;> omega

end Machine

/-! ## The console -/

namespace Console

/-- A picture unit of the region at power-on, and no part of a dot left over. -/
theorem aligned_of_initial {m : Mainboard} (kind : PictureKind) (region : Region)
    (ratio : m.ratio = region.dotRatio) (picture : m.picture = .initial kind region)
    (remainder : m.remainder = 0) : m.Aligned := by
  have start := PictureUnit.initial_timing kind region
  rw [← picture] at start
  have same : m.picture.region = region := congrArg Prod.fst start
  refine ⟨same ▸ ratio, remainder ▸ Region.cyclesPerGroup_pos _, ?_⟩
  rw [show m.picture.beam = _ from congrArg Prod.snd start]
  exact Beam.start_inRange _

theorem build_aligned (settings : Settings) (kind : PictureKind) (profile : MemoryProfile) :
    (build settings kind profile).bus.Aligned := aligned_of_initial kind _ rfl rfl rfl

theorem aligned_lasting : Machine.Lasting fun m => m.bus.Aligned where
  toEnduring := Machine.aligned_kept.enduring
  slot m board h := ⟨h.ratio, h.remainder, h.beam⟩
  audio m audio h := ⟨h.ratio, h.remainder, h.beam⟩
  strict m strict h := h
  region m region _ := aligned_of_initial m.bus.picture.kind region rfl rfl rfl
  power c h := by
    unfold powerOn
    dsimp only
    refine Machine.aligned_kept.course (Exec.powerOn_course _) ?_
    exact aligned_of_initial c.machine.bus.picture.kind c.machine.bus.picture.region h.ratio rfl rfl

/-- Whatever a host does, the beam stays on the screen and the picture unit in the region. -/
theorem performAll_aligned {σ : Type} [Storage σ] (settings : Settings) (kind : PictureKind)
    (profile : MemoryProfile) (calls : List (Call σ)) :
    ((build settings kind profile).performAll calls).bus.Aligned :=
  aligned_lasting.performAll calls (build_aligned settings kind profile)

end Console

end Famiclone
