import Famiclone.Proofs.Console.PowerCycle
import Famiclone.Proofs.Console.Travel

/-!
# The loop of a frame

A frame is run by steps until the picture unit has finished one. The loop needs no bound of its own: each
step brings the beam nearer to the end of the line of rest, and the bound that is written into it is never
reached. A step is shorter than the way from that line to the next frame, so the call that follows another
finishes exactly one frame. Where a host steps over the end of a frame by itself, that frame is still to be
reported: the next call ends behind its first step, anywhere in a frame, and the one behind it ends in the
same frame.
-/
namespace Famiclone

namespace Console

/-! ## The loop without a bound -/

/-- Steps until one fails or a frame is finished. -/
inductive Loops : Machine Mainboard → Except IllegalOpcode Unit × Machine Mainboard → Prop
  | fails {m n : Machine Mainboard} {e : IllegalOpcode} (ran : Exec.step m = (.error e, n)) :
      Loops m (.error e, n)
  | ends {m n : Machine Mainboard} {cycles : Nat} (ran : Exec.step m = (.ok cycles, n))
      (finished : (takeFinished n).1 = true) : Loops m (.ok (), (takeFinished n).2)
  | goesOn {m n : Machine Mainboard} {cycles : Nat} {answer}
      (ran : Exec.step m = (.ok cycles, n)) (unfinished : (takeFinished n).1 = false)
      (rest : Loops (takeFinished n).2 answer) : Loops m answer

/-! ## Taking the report of a frame -/

theorem takeFinished_fst (m : Machine Mainboard) :
    (takeFinished m).1 = m.bus.picture.beam.finished := by
  unfold takeFinished
  cases m.bus.picture <;> rfl

theorem takeFinished_beam (m : Machine Mainboard) :
    (takeFinished m).2.bus.picture.beam = { m.bus.picture.beam with finished := false } := by
  unfold takeFinished
  cases m.bus.picture <;> rfl

theorem takeFinished_unit {u : PictureUnit} (h : u.beam.finished = false) :
    u.takeFinished.2 = u := by
  cases u with
  | full p =>
    have none : p.beam.finished = false := h
    show PictureUnit.full { p with beam := { p.beam with finished := false } } = .full p
    rw [← none]
  | blank p =>
    have none : p.finished = false := h
    show PictureUnit.blank { p with finished := false } = .blank p
    rw [← none]

/-- Where there is nothing to report the machine stays as it is. -/
theorem takeFinished_of_unfinished {m : Machine Mainboard} (h : (takeFinished m).1 = false) :
    (takeFinished m).2 = m := by
  rw [takeFinished_fst] at h
  unfold takeFinished
  dsimp only
  rw [takeFinished_unit h]

/-! ## The loop ends -/

/-- The bound of the loop is the beam's way to the end of the line of rest, and more. -/
theorem runSteps_loops {limit : Nat} {m : Machine Mainboard} (aligned : m.bus.Aligned)
    (enough : m.bus.picture.beam.toGo m.bus.picture.region ≤ limit) : Loops m (runSteps limit m) := by
  induction limit generalizing m with
  | zero =>
    have left := aligned.beam.toGo_pos
    omega
  | succ limit ih =>
    obtain ⟨aligned', region, dots, ahead, some, few⟩ := Machine.step_ahead aligned
    unfold runSteps
    generalize ran : Exec.step m = answered at aligned' region ahead
    obtain ⟨answer, n⟩ := answered
    cases answer with
    | error e => exact .fails ran
    | ok cycles =>
      dsimp only at region ahead ⊢
      cases finished : (takeFinished n).1 with
      | true => exact .ends ran finished
      | false =>
        refine .goesOn ran finished (ih (Machine.aligned_kept.taken n aligned') ?_)
        have same := takeFinished_of_unfinished finished
        rw [takeFinished_fst, ahead.finished, Bool.or_eq_false_iff, decide_eq_false_iff_not]
          at finished
        have level := Nat.le_antisymm (Nat.not_lt.mp finished.2) ahead.passed_le
        have nearer := ahead.toGo_add_le level
        rw [same, region]
        omega

/-- A step fails only where the processor is strict. -/
theorem strict_of_step {m : Machine Mainboard} {e : IllegalOpcode}
    (failed : (Exec.step m).1 = .error e) : m.cpu.strict = true := by
  by_cases jammed : m.cpu.jammed
  · rw [Exec.step_of_jammed jammed] at failed
    contradiction
  by_cases pending : m.cpu.nmiPolled || m.cpu.irqPolled
  · rw [Exec.step_of_pending jammed pending] at failed
    contradiction
  rw [Exec.step_of_ready jammed pending] at failed
  by_cases refused : Exec.Refuses m
  · rw [← Exec.fetch_strict m]
    exact refused.1
  · rw [Exec.instruction_of_accepts refused] at failed
    contradiction

/-- The machine behind a loop that has reported a frame. If none was to be reported before, it has been
finished in the last step. -/
structure Reported (m n : Machine Mainboard) : Prop where
  aligned : n.bus.Aligned
  region : n.bus.picture.region = m.bus.picture.region
  unfinished : n.bus.picture.beam.finished = false
  passed : m.bus.picture.beam.finished = false →
    n.bus.picture.beam.passed = m.bus.picture.beam.passed + 1 ∧
      screenHeight < n.bus.picture.beam.line ∧ n.bus.picture.beam.line < 250

theorem Loops.reported {m n : Machine Mainboard} (aligned : m.bus.Aligned)
    (loops : Loops m (.ok (), n)) : Reported m n := by
  generalize answered : ((.ok (), n) : Except IllegalOpcode Unit × Machine Mainboard) = answer at loops
  induction loops with
  | fails ran => cases answered
  | @ends m k cycles ran finished =>
    cases answered
    obtain ⟨aligned', region, dots, ahead, some, few⟩ := Machine.step_ahead aligned
    rw [ran] at aligned' region ahead
    refine ⟨Machine.aligned_kept.taken k aligned',
      k.bus.picture.takeFinished_region.trans region, ?_, fun fresh => ?_⟩
    · rw [takeFinished_beam]
    · rw [takeFinished_beam]
      rw [takeFinished_fst, ahead.finished, fresh, Bool.false_or, decide_eq_true_eq] at finished
      have ended := ahead.line_of_passed aligned.beam few finished
      exact ended
  | @goesOn m k cycles answer ran unfinished rest ih =>
    obtain ⟨aligned', region, dots, ahead, some, few⟩ := Machine.step_ahead aligned
    have same := takeFinished_of_unfinished unfinished
    rw [ran] at aligned' region ahead
    rw [same] at ih
    have reported := ih aligned' answered
    rw [takeFinished_fst] at unfinished
    have level := ahead.finished
    rw [unfinished, eq_comm, Bool.or_eq_false_iff, decide_eq_false_iff_not] at level
    have passed := Nat.le_antisymm (Nat.not_lt.mp level.2) ahead.passed_le
    have last := reported.passed unfinished
    rw [passed] at last
    exact ⟨reported.aligned, reported.region.trans region, reported.unfinished, fun _ => last⟩

/-- A loop fails only where the processor is strict. -/
theorem Loops.strict {m n : Machine Mainboard} {e : IllegalOpcode}
    (loops : Loops m (.error e, n)) : m.cpu.strict = true := by
  generalize answered : ((.error e, n) : Except IllegalOpcode Unit × Machine Mainboard) = answer
    at loops
  induction loops with
  | fails ran => exact strict_of_step (congrArg Prod.fst ran)
  | ends ran finished => cases answered
  | @goesOn m k cycles answer ran unfinished rest ih =>
    have strict := ih answered
    rw [takeFinished_of_unfinished unfinished] at strict
    have kept := Exec.step_strict m
    rw [ran] at kept
    exact kept.symm.trans strict

/-! ## Frames -/

/-- The answer of a frame is that of its loop. -/
theorem runFrame_loops {c : Console} (aligned : c.bus.Aligned) :
    Loops c.machine (runSteps (stepsPerFrame c.bus.picture.region) c.machine) :=
  runSteps_loops aligned aligned.beam.toGo_le

theorem runFrame_of_loaded {c : Console} (loaded : c.label.isSome) : c.runFrame =
    match runSteps (stepsPerFrame c.bus.picture.region) c.machine with
    | (.error e, machine) => (.error (.opcode e), { c with machine })
    | (.ok (), machine) => (.ok (), { c with machine }.deliver) := by
  unfold runFrame
  exact if_neg (not_isNone_of_loaded loaded)

theorem label_of_runFrame {c : Console} (ran : c.runFrame.1 = .ok ()) : c.label.isSome := by
  by_contra missing
  have none : c.label.isNone := by simpa using missing
  unfold runFrame at ran
  rw [if_pos none] at ran
  contradiction

/-- The host takes the sound, and the beam stays. -/
theorem deliver_bus (c : Console) :
    c.deliver.bus = { c.bus with sound := c.bus.sound.takeSamples.2 } ∧
      c.deliver.frames = c.frames + 1 := by
  unfold deliver
  dsimp only
  split <;> exact ⟨rfl, rfl⟩

/-- A frame that has been run: its loop has reported, and it has been counted. -/
theorem runFrame_reported {c : Console} (aligned : c.bus.Aligned) (ran : c.runFrame.1 = .ok ()) :
    Reported c.machine c.runFrame.2.machine ∧ c.runFrame.2.frames = c.frames + 1 := by
  have loops := runFrame_loops aligned
  have loaded := label_of_runFrame ran
  rw [runFrame_of_loaded loaded] at ran ⊢
  generalize runSteps (stepsPerFrame c.bus.picture.region) c.machine = answered at loops ran ⊢
  obtain ⟨answer, machine⟩ := answered
  cases answer with
  | error e => contradiction
  | ok u =>
    have reported := loops.reported aligned
    obtain ⟨bus, frames⟩ := deliver_bus { c with machine }
    refine ⟨?_, frames⟩
    have behind : ({ c with machine } : Console).deliver.machine.bus = _ := bus
    exact ⟨behind ▸ ⟨reported.aligned.ratio, reported.aligned.remainder, reported.aligned.beam⟩,
      behind ▸ reported.region, behind ▸ reported.unfinished, behind ▸ reported.passed⟩

/-- A frame fails only where the processor is strict and meets an opcode that it refuses. -/
theorem runFrame_error {c : Console} (aligned : c.bus.Aligned) (loaded : c.label.isSome)
    {e : ConsoleError} (failed : c.runFrame.1 = .error e) :
    c.cpu.strict = true ∧ ∃ opcode, e = .opcode opcode := by
  have loops := runFrame_loops aligned
  rw [runFrame_of_loaded loaded] at failed
  generalize runSteps (stepsPerFrame c.bus.picture.region) c.machine = answered at loops failed
  obtain ⟨answer, machine⟩ := answered
  cases answer with
  | error opcode =>
    cases failed
    exact ⟨loops.strict, opcode, rfl⟩
  | ok u => contradiction

/-! ## Overdue reports -/

/-- An overdue report ends the loop behind one step. -/
theorem Loops.overdue {m n : Machine Mainboard} (aligned : m.bus.Aligned)
    (due : m.bus.picture.beam.finished = true) (loops : Loops m (.ok (), n)) :
    n = (takeFinished (Exec.step m).2).2 := by
  obtain ⟨_, _, dots, ahead, _, _⟩ := Machine.step_ahead aligned
  generalize answered : ((.ok (), n) : Except IllegalOpcode Unit × Machine Mainboard) = answer at loops
  cases loops with
  | fails ran => cases answered
  | ends ran finished =>
    cases answered
    rw [ran]
  | goesOn ran unfinished rest =>
    rw [ran] at ahead
    rw [takeFinished_fst, ahead.finished, due] at unfinished
    contradiction

theorem runFrame_overdue {c : Console} (aligned : c.bus.Aligned) (ran : c.runFrame.1 = .ok ())
    (due : c.bus.picture.beam.finished = true) :
    c.runFrame.2.bus.picture.beam =
      { (Exec.step c.machine).2.bus.picture.beam with finished := false } := by
  have loops := runFrame_loops aligned
  have loaded := label_of_runFrame ran
  rw [runFrame_of_loaded loaded] at ran ⊢
  generalize runSteps (stepsPerFrame c.bus.picture.region) c.machine = answered at loops ran ⊢
  obtain ⟨answer, machine⟩ := answered
  cases answer with
  | error e => contradiction
  | ok u =>
    dsimp only
    rw [(deliver_bus _).1]
    show machine.bus.picture.beam = _
    rw [loops.overdue aligned due, takeFinished_beam]

theorem runSteps_strict (limit : Nat) (m : Machine Mainboard) :
    (runSteps limit m).2.cpu.strict = m.cpu.strict := by
  induction limit generalizing m with
  | zero => rfl
  | succ limit ih =>
    have kept := Exec.step_strict m
    unfold runSteps
    generalize Exec.step m = answered at kept
    obtain ⟨answer, n⟩ := answered
    cases answer with
    | error e => exact kept
    | ok cycles =>
      dsimp only
      split
      · exact kept
      · exact (ih _).trans kept

theorem runFrame_strict (c : Console) : c.runFrame.2.cpu.strict = c.cpu.strict := by
  unfold runFrame
  split
  · rfl
  · have kept := runSteps_strict (stepsPerFrame c.bus.picture.region) c.machine
    generalize runSteps (stepsPerFrame c.bus.picture.region) c.machine = answered at kept ⊢
    obtain ⟨answer, machine⟩ := answered
    cases answer with
    | error e => exact kept
    | ok u =>
      unfold deliver
      dsimp only
      split <;> exact kept

/-- With a lenient processor no frame fails. -/
theorem runFrame_ok {c : Console} (aligned : c.bus.Aligned) (loaded : c.label.isSome)
    (lenient : c.cpu.strict = false) : c.runFrame.1 = .ok () := by
  cases failed : c.runFrame.1 with
  | ok u => rfl
  | error e =>
    have strict := (runFrame_error aligned loaded failed).1
    rw [lenient] at strict
    contradiction

theorem runFrame_again {c : Console} (aligned : c.bus.Aligned) (loaded : c.label.isSome)
    (lenient : c.cpu.strict = false) : c.runFrame.2.runFrame.1 = .ok () := by
  obtain ⟨reported, _⟩ := runFrame_reported aligned (runFrame_ok aligned loaded lenient)
  refine runFrame_ok reported.aligned ?_ ((runFrame_strict c).trans lenient)
  rw [label_of_fixture c.runFrame_fixture]
  exact loaded

/-- Where the report of a frame is overdue near the top of the next one, the first of two frames ends
there and the second ends in the same frame. -/
theorem frame_of_overdue {c : Console} (aligned : c.bus.Aligned) (loaded : c.label.isSome)
    (lenient : c.cpu.strict = false) (due : c.bus.picture.beam.finished = true)
    (top : c.bus.picture.beam.line < 100) :
    c.runFrame.1 = .ok () ∧ c.runFrame.2.runFrame.1 = .ok () ∧
      c.runFrame.2.runFrame.2.bus.picture.beam.frame = c.runFrame.2.bus.picture.beam.frame := by
  have ran := runFrame_ok aligned loaded lenient
  have again := runFrame_again aligned loaded lenient
  obtain ⟨reported, _⟩ := runFrame_reported aligned ran
  obtain ⟨reported', _⟩ := runFrame_reported reported.aligned again
  obtain ⟨passed, behind, _⟩ := reported'.passed reported.unfinished
  have inside : c.runFrame.2.bus.picture.beam.line ≤ c.bus.picture.beam.line + 7 := by
    obtain ⟨_, _, dots, ahead, _, few⟩ := Machine.step_ahead aligned
    rw [runFrame_overdue aligned ran due]
    exact (ahead.near_top aligned.beam few top).2
  refine ⟨ran, again, ?_⟩
  have rest : ¬ screenHeight < c.runFrame.2.machine.bus.picture.beam.line := by
    have near : c.runFrame.2.machine.bus.picture.beam.line ≤ c.bus.picture.beam.line + 7 := inside
    unfold screenHeight
    omega
  have frame := Beam.frame_of_passed passed behind
  rw [if_neg rest] at frame
  exact frame

/-- A console behind some steps of another. -/
structure Stepped (n : Nat) (c d : Console) : Prop where
  aligned : d.bus.Aligned
  region : d.bus.picture.region = c.bus.picture.region
  label : d.label = c.label
  strict : d.cpu.strict = c.cpu.strict
  way : ∃ dots, Beam.Ahead c.bus.picture.region dots c.bus.picture.beam d.bus.picture.beam ∧
    n ≤ dots

/-- The console behind a number of steps that the host asks for one by one. -/
def afterSteps (c : Console) : Nat → Console
  | 0 => c
  | n + 1 => (afterSteps c n).step.2

theorem afterSteps_zero (c : Console) : c.afterSteps 0 = c := rfl

theorem afterSteps_succ (c : Console) (n : Nat) :
    c.afterSteps (n + 1) = (c.afterSteps n).step.2 := rfl

theorem performAll_append_step {σ : Type} [Storage σ] (c : Console) (calls : List (Call σ)) :
    c.performAll (calls ++ [.step]) = (c.performAll calls).step.2 :=
  List.foldl_append

theorem afterSteps_stepped {c : Console} (aligned : c.bus.Aligned) (loaded : c.label.isSome)
    (n : Nat) : Stepped n c (c.afterSteps n) := by
  induction n with
  | zero => exact ⟨aligned, rfl, rfl, rfl, 0, .refl aligned.beam, Nat.le_refl _⟩
  | succ n ih =>
    obtain ⟨dots, ahead, some⟩ := ih.way
    have machine := step_machine (ih.label ▸ loaded)
    have label := label_of_fixture (step_fixture (c.afterSteps n))
    obtain ⟨aligned', region, more, further, one, _⟩ := Machine.step_ahead ih.aligned
    rw [← machine] at aligned' region further
    have strict := Exec.step_strict (c.afterSteps n).machine
    rw [← machine] at strict
    have start : (c.afterSteps n).machine.bus.picture.region = c.bus.picture.region :=
      ih.region
    rw [start] at region further
    exact ⟨aligned', region, label.trans ih.label, strict.trans ih.strict, dots + more,
      ahead.trans further, by omega⟩

/-- The report of a frame that has been finished in steps is overdue at the top of the next one. -/
theorem exists_overdue {c : Console} (aligned : c.bus.Aligned) (loaded : c.label.isSome) :
    ∃ n, (c.afterSteps n).bus.picture.beam.finished = true ∧
      (c.afterSteps n).bus.picture.beam.line < 100 := by
  classical
  -- The first frame to begin may have been finished before; the second one has not.
  have later : ∃ n, c.bus.picture.beam.frame + 2 ≤ (c.afterSteps n).bus.picture.beam.frame := by
    obtain ⟨dots, ahead, some⟩ := (afterSteps_stepped aligned loaded
      (dotsPerLine * ((2 + 1) * c.bus.picture.region.scanlines))).way
    exact ⟨_, ahead.frame_add_le some⟩
  cases first : Nat.find later with
  | zero =>
    have now := Nat.find_spec later
    rw [first] at now
    have same : c.bus.picture.beam.frame + 2 ≤ c.bus.picture.beam.frame := now
    omega
  | succ k =>
    have reached := Nat.find_spec later
    have before := Nat.find_min later (m := k) (by omega)
    rw [first] at reached
    refine ⟨k + 1, ?_, ?_⟩
    · obtain ⟨dots, ahead, _⟩ := (afterSteps_stepped aligned loaded (k + 1)).way
      have passed : c.bus.picture.beam.passed < (c.afterSteps (k + 1)).bus.picture.beam.passed := by
        unfold Beam.passed
        split_ifs <;> omega
      rw [ahead.finished, decide_eq_true passed, Bool.or_true]
    · have stepped := afterSteps_stepped aligned loaded k
      obtain ⟨_, _, dots, ahead, _, few⟩ := Machine.step_ahead stepped.aligned
      rw [← step_machine (stepped.label ▸ loaded)] at ahead
      have top := ahead.top_of_frame stepped.aligned.beam few (Nat.lt_of_not_le fun early =>
        before (Nat.le_trans reached early))
      exact Nat.lt_trans top (by decide)

theorem powerOn_strict (c : Console) : c.powerOn.cpu.strict = c.settings.strictOpcodes := by
  unfold Console.cpu
  rw [powerOn_machine, Exec.powerOn_strict]
  rfl

/-- A console into which a program has been loaded is as strict as its settings. -/
theorem load_strict {c : Console} {image : Array UInt8} {cartridge : Cartridge}
    (accepted : Cartridge.ofImage image = .ok cartridge) :
    (c.orKeep (c.load image)).cpu.strict = c.settings.strictOpcodes := by
  have settings : (c.fill cartridge).settings = c.settings :=
    (fixture_eq_iff.mp (fill_fixture c cartridge)).1
  rw [load_eq accepted, powerOn_strict, settings]

/-- Every frame ends, and two frames that follow each other lie one end of the line of rest apart. Before
each read one transfer of sprites and one of a sample are served at most, every step takes time, and a
frame fails only where a strict processor refuses an opcode. The second of two frames begins a frame of the
picture unit unless the first of them ended in front of its line of rest. That happens exactly where the
report of an earlier frame is overdue, so that the first ends behind a single step, and this step ends in
front of that line. -/
theorem frames_end_in_turn {σ : Type} [Storage σ] (settings : Settings) (kind : PictureKind)
    (profile : MemoryProfile) (calls : List (Call σ))
    (loaded : ((build settings kind profile).performAll calls).label.isSome) :
    let c := (build settings kind profile).performAll calls
    let first := c.runFrame
    let second := first.2.runFrame
    (∀ (address : UInt16) (m : Machine Mainboard), ∃ sample,
      Exec.Serves address (Transfer.inTurn m.bus.spritePage sample) m
        (Exec.serveAll address (ProcessorBus.transferLimit m.bus) m).2) ∧
    (∀ m : Machine Mainboard, m.cpu.cycles < (Exec.step m).2.cpu.cycles) ∧
    Loops c.machine (runSteps (stepsPerFrame c.bus.picture.region) c.machine) ∧
    (∀ e, first.1 = .error e → c.cpu.strict = true ∧ ∃ opcode, e = .opcode opcode) ∧
    (first.1 = .ok () → second.1 = .ok () →
      second.2.bus.picture.beam.passed = first.2.bus.picture.beam.passed + 1 ∧
      second.2.bus.picture.beam.frame = first.2.bus.picture.beam.frame +
        (if screenHeight < first.2.bus.picture.beam.line then 1 else 0) ∧
      (c.bus.picture.beam.finished = false → screenHeight < first.2.bus.picture.beam.line) ∧
      (c.bus.picture.beam.finished = true → first.2.bus.picture.beam =
        { (Exec.step c.machine).2.bus.picture.beam with finished := false }) ∧
      (second.2.bus.picture.beam.frame = first.2.bus.picture.beam.frame + 1 ↔
        (c.bus.picture.beam.finished = true →
          screenHeight < (Exec.step c.machine).2.bus.picture.beam.line)) ∧
      second.2.frames = first.2.frames + 1 ∧
      screenHeight < second.2.bus.picture.beam.line ∧ second.2.bus.picture.beam.line < 250) := by
  intro c first second
  have aligned : c.bus.Aligned := performAll_aligned settings kind profile calls
  refine ⟨fun address m => ?_, Exec.step_cycles_pos, runFrame_loops aligned,
    fun e failed => runFrame_error aligned loaded failed, fun ran again => ?_⟩
  · obtain ⟨sample, serves, _⟩ := Exec.serves_inTurn address m
    exact ⟨sample, serves⟩
  · obtain ⟨reported, _⟩ := runFrame_reported aligned ran
    obtain ⟨reported', frames⟩ := runFrame_reported reported.aligned again
    obtain ⟨passed, behind, before⟩ := reported'.passed reported.unfinished
    have frame : second.2.bus.picture.beam.frame = first.2.bus.picture.beam.frame +
      (if screenHeight < first.2.bus.picture.beam.line then 1 else 0) := Beam.frame_of_passed passed behind
    have fresh : c.bus.picture.beam.finished = false → screenHeight < first.2.bus.picture.beam.line :=
      fun fresh => (reported.passed fresh).2.1
    have overdue : c.bus.picture.beam.finished = true → first.2.bus.picture.beam =
        { (Exec.step c.machine).2.bus.picture.beam with finished := false } :=
      runFrame_overdue aligned ran
    refine ⟨passed, frame, fresh, overdue, ?_, frames, behind, before⟩
    rw [frame]
    cases due : c.bus.picture.beam.finished with
    | false => simp [fresh due]
    | true => simp [overdue due]

/-- A program that jumps to itself. -/
def spinning : Array UInt8 := Cartridge.imageOfProgram [0x4C, 0x00, 0x80] 0x8000

/-- A host that has a program spin, and asks for its steps one by one. -/
def spin (steps : Nat) : List (Call MemoryStorage) :=
  .load spinning :: List.replicate steps .step

theorem performAll_spin (c : Console) (steps : Nat) :
    c.performAll (spin steps) = (c.performAll (spin 0)).afterSteps steps := by
  induction steps with
  | zero => rw [afterSteps_zero]
  | succ steps ih =>
    have last : spin (steps + 1) = spin steps ++ [.step] := by
      simp [spin, List.replicate_succ']
    rw [last, performAll_append_step, ih, afterSteps_succ]

theorem performAll_spin_zero (c : Console) : c.performAll (spin 0) = c.orKeep (c.load spinning) := by
  rw [spin, List.replicate_zero, performAll_load, performAll_nil]

theorem spin_ready (steps : Nat) :
    let c := (build {} .full .standard).performAll (spin steps)
    c.bus.Aligned ∧ c.label.isSome ∧ c.cpu.strict = false := by
  obtain ⟨cartridge, accepted⟩ : ∃ cartridge, Cartridge.ofImage spinning = .ok cartridge :=
    Cartridge.ofImage_imageOfProgram [0x4C, 0x00, 0x80] 0x8000
  have aligned := performAll_aligned {} .full .standard (spin 0)
  have lenient : (build {} .full .standard).settings.strictOpcodes = false := rfl
  rw [performAll_spin, performAll_spin_zero]
  rw [performAll_spin_zero] at aligned
  generalize build {} .full .standard = c at *
  have label := load_label (c := c) accepted
  have strict := (load_strict (c := c) accepted).trans lenient
  generalize c.orKeep (c.load spinning) = c at *
  have loaded : c.label.isSome := by rw [label]; rfl
  have stepped := afterSteps_stepped aligned loaded steps
  exact ⟨stepped.aligned, stepped.label ▸ loaded, stepped.strict.trans strict⟩

/-- Two frames of a loaded program. -/
theorem frames_end_behind_load :
    let c := (build {} .full .standard).performAll (spin 0)
    let first := c.runFrame
    let second := first.2.runFrame
    c.label.isSome ∧ first.1 = .ok () ∧ second.1 = .ok () ∧
      second.2.bus.picture.beam.passed = first.2.bus.picture.beam.passed + 1 ∧
      second.2.bus.picture.beam.frame = first.2.bus.picture.beam.frame +
        (if screenHeight < first.2.bus.picture.beam.line then 1 else 0) ∧
      second.2.frames = first.2.frames + 1 := by
  obtain ⟨aligned, loaded, lenient⟩ := spin_ready 0
  have ran := runFrame_ok aligned loaded lenient
  have again := runFrame_again aligned loaded lenient
  obtain ⟨_, _, _, _, frames⟩ := frames_end_in_turn {} .full .standard (spin 0) loaded
  obtain ⟨passed, frame, _, _, _, counted, _⟩ := frames ran again
  exact ⟨loaded, ran, again, passed, frame, counted⟩

/-- Behind steps of the host the second of two frames may end in the frame of the first. -/
theorem frame_may_end_twice :
    ¬ ∀ (settings : Settings) (kind : PictureKind) (profile : MemoryProfile)
      (calls : List (Call MemoryStorage)),
      let c := (build settings kind profile).performAll calls
      let first := c.runFrame
      let second := first.2.runFrame
      c.label.isSome → first.1 = .ok () → second.1 = .ok () →
        second.2.bus.picture.beam.frame = first.2.bus.picture.beam.frame + 1 := by
  intro always
  obtain ⟨aligned, loaded, _⟩ := spin_ready 0
  obtain ⟨steps, due, top⟩ := exists_overdue aligned loaded
  rw [← performAll_spin] at due top
  obtain ⟨aligned, loaded, lenient⟩ := spin_ready steps
  obtain ⟨ran, again, same⟩ := frame_of_overdue aligned loaded lenient due top
  have grown := always {} .full .standard (spin steps) loaded ran again
  exact Nat.succ_ne_self _ (grown.symm.trans same)

end Console

end Famiclone
