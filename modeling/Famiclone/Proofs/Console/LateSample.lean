import Famiclone.Proofs.Cartridge.Program
import Famiclone.Proofs.Console.Configuration
import Famiclone.Proofs.Console.Follow
import Famiclone.Proofs.Console.Samples

/-!
# A sample that comes too late

At the fastest rate eight bits take less time than a transfer of sprites, so a transfer that falls into
them can keep their successor away. A program of eleven instructions is followed from power-on to such a
miss.
-/
namespace Famiclone

/-! ## Programs of loads and stores -/

namespace Tracked

variable (p : UInt16 → UInt8)

/-- Follow one instruction, if it loads an operand from the program or stores a register below the
cartridge. -/
def step? (t : Tracked) : Option Tracked :=
  let pc := t.registers.pc
  if 0x8000 ≤ pc.toNat ∧ 0x8000 ≤ (pc + 1).toNat ∧ 0x8000 ≤ (pc + 1 + 1).toNat then
    match Instruction.decode (p pc) with
    | .read op .immediate => some (t.immediate p op)
    | .store op .absolute => if (t.operand p).toNat < 0x4020 then some (t.store p op) else none
    | _ => none
  else none

/-- Follow a number of such instructions. -/
def steps? : Nat → Tracked → Option Tracked
  | 0, t => some t
  | n + 1, t => (t.step? p).bind (steps? n)

end Tracked

namespace Machine.Runs

variable {p : UInt16 → UInt8} {t behind : Tracked} {m : Machine Mainboard}

theorem step (h : Runs p t m) (found : t.step? p = some behind) : Runs p behind (Exec.step m).2 := by
  unfold Tracked.step? at found
  dsimp only at found
  split at found
  next program =>
    obtain ⟨code, next, last⟩ := program
    split at found
    next op decoded =>
      cases found
      exact Exec.step_immediate h op code next decoded
    next op decoded =>
      split at found
      next low =>
        cases found
        exact Exec.step_store h op code next last low decoded
      next => contradiction
    next => contradiction
  next => contradiction

end Machine.Runs

/-! ## From power-on -/

namespace Console

/-- Calls for single steps follow the program. -/
theorem performAll_steps {σ : Type} [Storage σ] {p : UInt16 → UInt8} {t behind : Tracked} {n : Nat}
    (found : t.steps? p n = some behind) {c : Console} (label : c.label.isSome)
    (runs : Machine.Runs p t c.machine) :
    Machine.Runs p behind (c.performAll (.replicate n (.step : Call σ))).machine := by
  induction n generalizing t c with
  | zero =>
    obtain rfl : t = behind := Option.some.inj found
    exact runs
  | succ n ih =>
    obtain ⟨next, first, rest⟩ := Option.bind_eq_some_iff.mp found
    have stepped : Machine.Runs p next c.step.2.machine := by
      rw [step_machine label]
      exact runs.step first
    have held : c.step.2.label.isSome := by
      rw [label_of_fixture c.step_fixture]
      exact label
    exact ih rest held stepped

theorem misses_of_runs {p : UInt16 → UInt8} {t : Tracked} {c : Console}
    (runs : Machine.Runs p t c.machine) : c.bus.supply.misses = t.feed.supply.misses :=
  congrArg (fun f : Feed => f.supply.misses) runs.feed

/-- The bytes that a program shows from `$8000` on. -/
def shown (program : List UInt8) (origin : UInt16) (address : UInt16) : UInt8 :=
  Cartridge.programByte program origin (address.toNat - 0x8000)

theorem switchRegion_kind (c : Console) (region : Region) :
    (c.switchRegion region).bus.picture.kind = c.bus.picture.kind := by
  unfold switchRegion
  split
  · rfl
  · show (PictureUnit.initial c.bus.picture.kind region).kind = _
    cases c.bus.picture.kind <;> rfl

section
variable {program : List UInt8} {origin : UInt16} {cartridge : Cartridge}

theorem header_of_program
    (accepted : Cartridge.ofImage (Cartridge.imageOfProgram program origin) = .ok cartridge) :
    cartridge.header = Cartridge.programHeader :=
  Except.ok.inj ((Cartridge.ofImage_accepted accepted).header.symm.trans
    (Cartridge.parse_imageOfProgram program origin))

theorem regionFor_program (c : Console)
    (accepted : Cartridge.ofImage (Cartridge.imageOfProgram program origin) = .ok cartridge) :
    c.regionFor cartridge = c.settings.region.resolve none := by
  unfold regionFor
  rw [header_of_program accepted]
  rfl

/-- The board of a program has nothing to reset. -/
theorem board_reset_of_program
    (accepted : Cartridge.ofImage (Cartridge.imageOfProgram program origin) = .ok cartridge) :
    cartridge.board.reset = cartridge.board := by
  have found := (Cartridge.ofImage_accepted accepted).board
  rw [header_of_program accepted] at found
  rw [← Option.some.inj found]
  rfl

/-- With the program in it and the power on, a console without a picture follows the program. -/
theorem unstarted_runs {c : Console} (tuned : c.Tuned) (blank : c.bus.picture.kind = .blank)
    (lenient : c.settings.strictOpcodes = false)
    (accepted : Cartridge.ofImage (Cartridge.imageOfProgram program origin) = .ok cartridge)
    (fits : origin.toNat % Cartridge.programSize + program.length ≤ Cartridge.programSize) :
    Machine.Runs (shown program origin) (Tracked.start (c.settings.region.resolve none))
      (Exec.forgotten (Exec.cleared (c.fill cartridge).unstarted)) := by
  have region := regionFor_program c accepted
  have sound : (c.fill cartridge).bus.sound.region = c.settings.region.resolve none :=
    (congrArg Tuning.sound (switchRegion_tuning tuned.tuning (c.regionFor cartridge))).trans region
  have kind : (c.fill cartridge).bus.picture.kind = .blank := (c.switchRegion_kind _).trans blank
  have powered : (c.fill cartridge).unstarted.bus.picture.kind = .blank := by
    show (PictureUnit.initial (c.fill cartridge).bus.picture.kind _).kind = .blank
    rw [kind]
    rfl
  have lenient' : (c.fill cartridge).settings.strictOpcodes = false := by
    rw [show (c.fill cartridge).settings = c.settings from c.switchRegion_settings _, lenient]
  have start : 0x8000 ≤ (0xC000 : UInt16).toNat := by decide
  exact {
    plain := ⟨powered, fun address high => by
      show cartridge.board.reset.readPrg address = _
      rw [board_reset_of_program accepted, Cartridge.plain_readPrg accepted fits high]
      rfl⟩
    calm := ⟨rfl, lenient', rfl, rfl, rfl, rfl, rfl, rfl⟩
    inProgram := ⟨start, start⟩
    registers := rfl
    cycles := rfl
    page := rfl
    feed := by
      show (⟨(c.fill cartridge).bus.sound.region, .initial (c.fill cartridge).bus.sound.region,
        .initial⟩ : Feed) = _
      rw [sound]
      rfl }

end

/-- A console without a picture that loads a program is at its start behind the reset sequence. -/
theorem load_runs {c : Console} (tuned : c.Tuned) (blank : c.bus.picture.kind = .blank)
    (lenient : c.settings.strictOpcodes = false) {program : List UInt8} {origin : UInt16}
    (fits : origin.toNat % Cartridge.programSize + program.length ≤ Cartridge.programSize) :
    ∃ cartridge, Cartridge.ofImage (Cartridge.imageOfProgram program origin) = .ok cartridge ∧
      Machine.Runs (shown program origin)
        ((Tracked.start (c.settings.region.resolve none)).reset (shown program origin))
        (c.orKeep (c.load (Cartridge.imageOfProgram program origin))).machine := by
  obtain ⟨cartridge, accepted⟩ := Cartridge.ofImage_imageOfProgram program origin
  have behind := Exec.reset_runs (unstarted_runs tuned blank lenient accepted fits)
  refine ⟨cartridge, accepted, ?_⟩
  rw [load_eq accepted, powerOn_machine, Exec.powerOn_eq]
  exact behind

/-! ## Misses -/

/-- The fastest rate, 17 bytes, and the channel enabled; then five transfers of sprites. -/
def crowdedProgram : List UInt8 := [
  0xA9, 0x0F, 0x8D, 0x10, 0x40,
  0xA9, 0x01, 0x8D, 0x13, 0x40,
  0xA9, 0x10, 0x8D, 0x15, 0x40,
  0x8D, 0x14, 0x40, 0x8D, 0x14, 0x40, 0x8D, 0x14, 0x40, 0x8D, 0x14, 0x40, 0x8D, 0x14, 0x40]

/-- The program is loaded and runs until its last instruction has been executed. -/
def crowdedCalls : List (Call MemoryStorage) :=
  .load (Cartridge.imageOfProgram crowdedProgram 0x8000) :: .replicate 11 .step

/-- Its run without a picture misses one byte: 432 cycles after a byte of the pass has been taken the
next one is not there, as 455 cycles earlier a transfer of sprites has begun. -/
theorem crowded_misses :
    ((build {} .blank .standard).performAll crowdedCalls).bus.supply.misses = [⟨432, 54, some 455⟩] := by
  have followed : (((Tracked.start .ntsc).reset (shown crowdedProgram 0x8000)).steps?
      (shown crowdedProgram 0x8000) 11).map (fun t => t.feed.supply.misses) =
        some [⟨432, 54, some 455⟩] := by decide +kernel
  obtain ⟨behind, found, misses⟩ := Option.map_eq_some_iff.mp followed
  have fits : (0x8000 : UInt16).toNat % Cartridge.programSize + crowdedProgram.length ≤
      Cartridge.programSize := by decide
  obtain ⟨cartridge, accepted, runs⟩ :=
    load_runs (build_configured {} .blank .standard).toTuned rfl rfl fits
  have label := load_label (c := build {} .blank .standard) accepted
  have run := performAll_steps (σ := MemoryStorage) found (by rw [label]; rfl) runs
  rw [crowdedCalls, performAll_load]
  exact (misses_of_runs run).trans misses

/-- Whatever a host does with a console and whatever its program is, the output unit finds a byte in its
buffer each time that it has played eight bits, as long as the pass that it has begun to play has bytes
left. The exception are eight bits of fewer than 528 cycles, for some of which the fastest rate was
chosen, and into which a transfer of sprites has fallen: it began 518 cycles before their end or
later. -/
theorem misses_are_crowded {σ : Type} [Storage σ] (settings : Settings) (kind : PictureKind)
    (profile : MemoryProfile) (calls : List (Call σ)) :
    let c := (build settings kind profile).performAll calls
    ∀ miss ∈ c.bus.supply.misses, miss.cycles < 528 ∧
      miss.shortest = (Delta.periods c.region).get 15 ∧
      ∃ ago, miss.sprites = some ago ∧ ago ≤ 518 := by
  intro c miss mem
  have supplied : c.machine.Supplied 9 :=
    supplied_lasting.performAll calls (build_supplied settings kind profile)
  obtain ⟨cycles, shortest, sprites⟩ := supplied.supply.misses miss mem
  have tuned : c.bus.tuning = .standard c.region c.settings.audio :=
    (performAll_configured settings kind profile calls).tuning
  have region : c.machine.bus.feed.delta.region = c.region := congrArg Tuning.delta tuned
  rw [region] at shortest
  exact ⟨cycles, shortest, sprites⟩

/-- The miss of the crowded run is such an exception. -/
theorem crowded_miss_is_exception :
    let c := (build {} .blank .standard).performAll crowdedCalls
    ∃ miss ∈ c.bus.supply.misses, miss.cycles < 528 ∧
      miss.shortest = (Delta.periods c.region).get 15 ∧
      ∃ ago, miss.sprites = some ago ∧ ago ≤ 518 := by
  have mem : ⟨432, 54, some 455⟩ ∈
      ((build {} .blank .standard).performAll crowdedCalls).bus.supply.misses := by
    rw [crowded_misses]
    exact List.mem_singleton_self _
  exact ⟨_, mem, misses_are_crowded {} .blank .standard crowdedCalls _ mem⟩

/-- So there are consoles whose output unit falls silent within a sample. -/
theorem samples_can_come_late : ¬ ∀ (settings : Settings) (kind : PictureKind)
    (profile : MemoryProfile) (calls : List (Call MemoryStorage)),
    ((build settings kind profile).performAll calls).bus.supply.misses = [] := by
  intro inTime
  have none := inTime {} .blank .standard crowdedCalls
  rw [crowded_misses] at none
  contradiction

end Console

end Famiclone
