import Famiclone.Mainboard
import Famiclone.Proofs.Picture.Run

/-!
# The clocks of the mainboard

The mainboard and the sound unit count cycles, the picture unit counts dots, and a remainder keeps the
part of a dot that is left over. Only the clock of the mainboard moves them; whatever is read, written
or transferred leaves them alone. They are in step with a number of cycles when all of them are what
that number makes them.
-/
namespace Famiclone

/-- The counters that a processor cycle moves. -/
structure Clocks where
  ratio : DotRatio
  cycles : Nat
  soundCycles : Nat
  remainder : Nat
  dots : Nat

namespace Clocks

def advance (c : Clocks) : Clocks :=
  let due := c.remainder + c.ratio.dots
  { c with
    cycles := c.cycles + 1
    soundCycles := c.soundCycles + 1
    remainder := due % c.ratio.cycles
    dots := c.dots + due / c.ratio.cycles }

/-- All counters stand where `n` cycles bring them from zero. -/
structure InStep (c : Clocks) (n : Nat) : Prop where
  cycles : c.cycles = n
  sound : c.soundCycles = n
  remainder : c.remainder = n * c.ratio.dots % c.ratio.cycles
  dots : c.dots = n * c.ratio.dots / c.ratio.cycles

theorem inStep_zero (ratio : DotRatio) : (⟨ratio, 0, 0, 0, 0⟩ : Clocks).InStep 0 := by
  refine ⟨rfl, rfl, ?_, ?_⟩
  · rw [Nat.zero_mul, Nat.zero_mod]
  · rw [Nat.zero_mul, Nat.zero_div]

/-- The remainder and the whole dots go on together, so no part of a dot is lost. -/
theorem InStep.advance {c : Clocks} {n : Nat} (h : c.InStep n) : c.advance.InStep (n + 1) := by
  have pos := c.ratio.cycles_pos
  have step : (n + 1) * c.ratio.dots = n * c.ratio.dots + c.ratio.dots := Nat.succ_mul _ _
  refine ⟨?_, ?_, ?_, ?_⟩
  · simp only [Clocks.advance, h.cycles]
  · simp only [Clocks.advance, h.sound]
  · simp only [Clocks.advance, h.remainder, step]
    exact Nat.mod_add_mod _ _ _
  · simp only [Clocks.advance, h.remainder, h.dots, step]
    have whole := Nat.div_add_mod (n * c.ratio.dots) c.ratio.cycles
    generalize n * c.ratio.dots = k at whole ⊢
    have shift := Nat.mul_add_div pos (k / c.ratio.cycles) (k % c.ratio.cycles + c.ratio.dots)
    rw [← shift, ← Nat.add_assoc, whole]

end Clocks

/-! ## The picture unit -/

namespace Picture

variable {β : Type} [PictureBus β]

/-- What makes the beam move: the region that the unit is built for, and the beam itself. -/
def timing (p : Picture) : Region × Beam := (p.region, p.beam)

@[simp] theorem moveOn_timing (p : Picture) (board : β) :
    (p.moveOn board).1.timing = p.timing := by
  unfold moveOn
  split <;> rfl

@[simp] theorem readData_timing (p : Picture) (board : β) :
    (p.readData board).2.1.timing = p.timing := by
  unfold readData
  dsimp only
  split <;> exact moveOn_timing _ _

@[simp] theorem read_timing (p : Picture) (board : β) (register : Fin 8) :
    (p.read board register).2.1.timing = p.timing := by
  have latched (r : UInt8 × Picture × β) (h : r.2.1.timing = p.timing) :
      { r.2.1 with latch := r.1 }.timing = p.timing := h
  unfold read
  refine latched _ ?_
  split
  · rfl
  · rfl
  · exact readData_timing p board
  · rfl

@[simp] theorem writeSprites_timing (p : Picture) (value : UInt8) :
    (p.writeSprites value).timing = p.timing := by
  unfold writeSprites
  split <;> rfl

@[simp] theorem writeScroll_timing (p : Picture) (value : UInt8) :
    (p.writeScroll value).timing = p.timing := by
  unfold writeScroll
  dsimp only
  split <;> rfl

@[simp] theorem writeAddress_timing (p : Picture) (board : β) (value : UInt8) :
    (p.writeAddress board value).1.timing = p.timing := by
  unfold writeAddress
  split <;> rfl

@[simp] theorem writeData_timing (p : Picture) (board : β) (value : UInt8) :
    (p.writeData board value).1.timing = p.timing := moveOn_timing _ _

@[simp] theorem write_timing (p : Picture) (board : β) (register : Fin 8) (value : UInt8) :
    (p.write board register value).1.timing = p.timing := by
  unfold write
  split
  · rfl
  · rfl
  · rfl
  · exact writeSprites_timing _ value
  · exact writeScroll_timing _ value
  · exact writeAddress_timing _ board value
  · exact writeData_timing _ board value
  · rfl

theorem tick_timing (p : Picture) (board : β) :
    (p.tick board).1.timing = (p.region, p.beam.advance p.region p.mask.renders) :=
  congrArg (fun s : Setup => (s.region, s.beam)) (tick_setup p board)

end Picture

namespace BlankPicture

/-- The counter steps over the end of a line first and looks where it is then. -/
theorem tick_of_last {p : BlankPicture} (last : dotsPerLine ≤ p.dot + 1) : p.tick.beam =
    { p.beam with elapsed := p.elapsed + 1 }.nextLine p.region := by
  unfold tick
  dsimp only
  rw [if_neg (Nat.not_lt.mpr last)]
  unfold Beam.nextLine beam
  by_cases rests : p.line = screenHeight
  · rw [if_pos (congrArg (· + 1) rests), if_pos rests]
  · rw [if_neg fun next => rests (Nat.succ_inj.mp next), if_neg rests]
    by_cases above : p.line < p.region.preRenderLine
    · rw [if_neg (Nat.not_lt.mpr above), if_pos above]
    · rw [if_pos (Nat.lt_succ_of_le (Nat.not_lt.mp above)), if_neg above]
      have turns : decide ((p.frame + 1) % 2 = 1) = !decide (p.frame % 2 = 1) := by
        rw [← decide_not]
        exact decide_eq_decide.mpr (by omega)
      simp only [turns]

/-- A unit that only keeps time counts by rules of its own. They lead where a beam goes that is not
rendering, as such a beam leaves out no dot. -/
theorem beam_tick (p : BlankPicture) : p.tick.beam = p.beam.advance p.region false := by
  have whole : p.beam.skips p.region false = false := by simp [Beam.skips]
  cases last : p.beam.lastDot p.region false with
  | true =>
    have full : dotsPerLine ≤ p.dot + 1 := by
      unfold Beam.lastDot at last
      rw [whole, Bool.false_or] at last
      exact of_decide_eq_true last
    rw [tick_of_last full, Beam.advance_of_last _ _ last]
    rfl
  | false =>
    have inside : p.dot + 1 < dotsPerLine :=
      Nat.not_le.mp (of_decide_eq_false (Bool.or_eq_false_iff.mp last).2)
    have stays : p.tick = { p with dot := p.dot + 1, elapsed := p.elapsed + 1 } := if_pos inside
    rw [stays, Beam.advance_of_not_last _ _ last]
    rfl

theorem tick_region (p : BlankPicture) : p.tick.region = p.region := by
  unfold tick
  dsimp only
  split_ifs <;> rfl

end BlankPicture

namespace PictureUnit

variable {β : Type} [PictureBus β]

/-- What makes the beam of a unit move. -/
def timing (u : PictureUnit) : Region × Beam := (u.region, u.beam)

@[simp] theorem read_timing (u : PictureUnit) (board : β) (register : Fin 8) :
    (u.read board register).2.1.timing = u.timing := by
  cases u with
  | full p => exact Picture.read_timing p board register
  | blank p => rfl

@[simp] theorem write_timing (u : PictureUnit) (board : β) (register : Fin 8) (value : UInt8) :
    (u.write board register value).1.timing = u.timing := by
  cases u with
  | full p => exact Picture.write_timing p board register value
  | blank p => rfl

@[simp] theorem reset_elapsed (u : PictureUnit) : u.reset.beam.elapsed = u.beam.elapsed := by
  cases u <;> rfl

@[simp] theorem takeFinished_region (u : PictureUnit) : u.takeFinished.2.region = u.region := by
  cases u <;> rfl

@[simp] theorem takeFinished_elapsed (u : PictureUnit) :
    u.takeFinished.2.beam.elapsed = u.beam.elapsed := by
  cases u <;> rfl

@[simp] theorem initial_timing (kind : PictureKind) (region : Region) :
    (initial kind region).timing = (region, .start) := by
  cases kind <;> rfl

/-- A dot moves the beam by the rule of the region, whether the unit renders or not. -/
theorem tick_timing (u : PictureUnit) (board : β) : ∃ rendering,
    (u.tick board).1.timing = (u.region, u.beam.advance u.region rendering) := by
  cases u with
  | full p => exact ⟨_, Picture.tick_timing p board⟩
  | blank p => exact ⟨false, congrArg₂ Prod.mk p.tick_region p.beam_tick⟩

@[simp] theorem tick_elapsed (u : PictureUnit) (board : β) :
    (u.tick board).1.beam.elapsed = u.beam.elapsed + 1 := by
  obtain ⟨rendering, moved⟩ := u.tick_timing board
  exact (congrArg (fun t => t.2.elapsed) moved).trans (Beam.advance_elapsed _ _ _)

/-- Each of a number of dots is counted. -/
theorem ticks_elapsed (n : Nat) (u : PictureUnit) (board : β) :
    (ticks n u board).1.beam.elapsed = u.beam.elapsed + n := by
  induction n generalizing u board with
  | zero => rfl
  | succ n ih =>
    unfold ticks
    dsimp only
    rw [ih, tick_elapsed]
    omega

end PictureUnit

/-! ## The sound unit -/

namespace SoundChip

@[simp] theorem write_cycles (c : SoundChip) (address : UInt16) (value : UInt8) :
    (c.write address value).cycles = c.cycles := by
  unfold write
  dsimp only
  split
  · split <;> rfl
  · split
    · rfl
    · split <;> rfl

@[simp] theorem tick_cycles (c : SoundChip) : c.tick.cycles = c.cycles + 1 := by
  unfold tick
  dsimp only
  split <;> split <;> rfl

end SoundChip

@[simp] theorem Sound.tick_cycles (s : Sound) : s.tick.chip.cycles = s.chip.cycles + 1 := by
  unfold tick
  dsimp only
  split <;> exact SoundChip.tick_cycles _

/-! ## The mainboard -/

namespace Mainboard

/-- The counters of the mainboard and its parts. -/
def clocks (m : Mainboard) : Clocks :=
  ⟨m.ratio, m.cycles, m.sound.chip.cycles, m.remainder, m.picture.beam.elapsed⟩

/-- What only the clock moves: the counters and the beam. -/
structure SameTime (m n : Mainboard) : Prop where
  ratio : n.ratio = m.ratio
  cycles : n.cycles = m.cycles
  sound : n.sound.chip.cycles = m.sound.chip.cycles
  remainder : n.remainder = m.remainder
  timing : n.picture.timing = m.picture.timing

theorem SameTime.refl (m : Mainboard) : SameTime m m := ⟨rfl, rfl, rfl, rfl, rfl⟩

theorem SameTime.clocks {m n : Mainboard} (h : SameTime m n) : n.clocks = m.clocks := by
  have beam : n.picture.beam = m.picture.beam := congrArg Prod.snd h.timing
  simp only [Mainboard.clocks, h.ratio, h.cycles, h.sound, h.remainder, beam]

/-- The clock moves all counters by one cycle. -/
theorem clock_clocks (m : Mainboard) : m.clock.clocks = m.clocks.advance := by
  unfold clock clocks Clocks.advance
  dsimp only
  rw [Sound.tick_cycles, PictureUnit.ticks_elapsed]

theorem access_sameTime (m : Mainboard) (address : UInt16) :
    SameTime m (m.access address).2 := by
  unfold access
  cases Place.of m.profile address with
  | picture register =>
    exact ⟨rfl, rfl, rfl, rfl, PictureUnit.read_timing m.picture m.board register⟩
  | ram cell => exact .refl m
  | soundStatus => exact ⟨rfl, rfl, rfl, rfl, rfl⟩
  | port port => exact ⟨rfl, rfl, rfl, rfl, rfl⟩
  | register => exact .refl m
  | nothing => exact .refl m
  | workRam cell => exact .refl m
  | cartridge => exact .refl m

theorem writeSound_sameTime (m : Mainboard) (address : UInt16) (value : UInt8) (supply : Supply) :
    SameTime m { m with sound := m.sound.write address value, supply } :=
  ⟨rfl, rfl, SoundChip.write_cycles m.sound.chip address value, rfl, rfl⟩

theorem store_sameTime (m : Mainboard) (address : UInt16) (value : UInt8) :
    SameTime m (m.store address value) := by
  unfold store
  cases Place.of m.profile address with
  | picture register =>
    exact ⟨rfl, rfl, rfl, rfl, PictureUnit.write_timing m.picture m.board register value⟩
  | workRam cell =>
    dsimp only [writeWork]
    split <;> exact ⟨rfl, rfl, rfl, rfl, rfl⟩
  | soundStatus => exact writeSound_sameTime m address value _
  | register =>
    dsimp only
    split
    · exact ⟨rfl, rfl, rfl, rfl, rfl⟩
    · exact writeSound_sameTime m address value _
  | port port =>
    cases port with
    | one => exact ⟨rfl, rfl, rfl, rfl, rfl⟩
    | two => exact writeSound_sameTime m address value _
  | ram cell => exact ⟨rfl, rfl, rfl, rfl, rfl⟩
  | nothing => exact .refl m
  | cartridge => exact ⟨rfl, rfl, rfl, rfl, rfl⟩

/-- The bus value is no counter. -/
theorem SameTime.openBus {m n : Mainboard} (h : SameTime m n) (openBus : UInt8) :
    SameTime m { n with openBus } := ⟨h.ratio, h.cycles, h.sound, h.remainder, h.timing⟩

/-- A read is one cycle, wherever it leads. -/
theorem read_eq_clock (m : Mainboard) (address : UInt16) :
    ∃ n, SameTime m n ∧ (m.read address).2 = n.clock := by
  have found := m.access_sameTime address
  refine ⟨if address = 0x4015 then (m.access address).2
    else { (m.access address).2 with openBus := (m.access address).1 }, ?_, rfl⟩
  split
  · exact found
  · exact found.openBus _

/-- A write is one cycle, wherever it leads. -/
theorem write_eq_clock (m : Mainboard) (address : UInt16) (value : UInt8) :
    ∃ n, SameTime m n ∧ m.write address value = n.clock :=
  ⟨{ m.store address value with openBus := value }, (m.store_sameTime address value).openBus value,
    rfl⟩

theorem read_clocks (m : Mainboard) (address : UInt16) :
    (m.read address).2.clocks = m.clocks.advance := by
  obtain ⟨n, same, clocked⟩ := m.read_eq_clock address
  rw [clocked, clock_clocks, same.clocks]

theorem write_clocks (m : Mainboard) (address : UInt16) (value : UInt8) :
    (m.write address value).clocks = m.clocks.advance := by
  obtain ⟨n, same, clocked⟩ := m.write_eq_clock address value
  rw [clocked, clock_clocks, same.clocks]

theorem takeTransfer_sameTime (m : Mainboard) : SameTime m m.takeTransfer.2 := by
  unfold takeTransfer
  split <;> exact ⟨rfl, rfl, rfl, rfl, rfl⟩

@[simp] theorem takeTransfer_clocks (m : Mainboard) : m.takeTransfer.2.clocks = m.clocks :=
  m.takeTransfer_sameTime.clocks

@[simp] theorem reset_clocks (m : Mainboard) : m.reset.clocks = m.clocks := by
  unfold reset clocks
  dsimp only
  rw [PictureUnit.reset_elapsed]
  rfl

@[simp] theorem powerOn_clocks (m : Mainboard) : m.powerOn.clocks = ⟨m.ratio, 0, 0, 0, 0⟩ := by
  have start : m.powerOn.picture.beam = .start :=
    congrArg Prod.snd (PictureUnit.initial_timing m.picture.kind m.picture.region)
  unfold clocks
  rw [start]
  rfl

end Mainboard

end Famiclone
