import Famiclone.Console.TestProgram
import Mathlib.Tactic

/-!
# Requests for a reset

A test program that asks for a reset is to wait for it for a tenth of a second. What the runner counts
is the time since the first request that has not been answered, and it goes on counting when that request
is withdrawn. So a reset comes too early where an earlier request was withdrawn, and only there.
-/
namespace Famiclone

/-- The delay is the number of frames of a tenth of a second, rounded up. -/
theorem Region.framesPerTenth_bounds (r : Region) :
    r.framesPer10000s ≤ 100000 * r.framesPerTenth ∧
      100000 * r.framesPerTenth < r.framesPer10000s + 100000 := by
  unfold framesPerTenth
  omega

/-- The end of a frame in which a test program runs. -/
structure FrameEnd where
  /-- What the program says. -/
  verdict : Verdict
  /-- Whether the reset button is pressed. -/
  pressed : Bool

namespace FrameEnd

variable {row rest : List FrameEnd} {e : FrameEnd} {delay f q : Nat} {due : Option Nat}

/-! ## Rows of frames -/

/-- At the end of a frame the program asks for a reset. -/
def Requested (row : List FrameEnd) (f : Nat) : Prop :=
  row[f]?.map verdict = some .resetRequested

/-- At the end of a frame the reset button is pressed. -/
def Pressed (row : List FrameEnd) (f : Nat) : Prop := row[f]?.map pressed = some true

/-- The request at the end of one frame has not been answered before the end of another. -/
structure Unanswered (row : List FrameEnd) (q f : Nat) : Prop where
  requested : Requested row q
  order : q ≤ f
  waits : ∀ g, q ≤ g → g < f → ¬ Pressed row g

theorem Requested.lt_length (h : Requested row f) : f < row.length := by
  by_contra outside
  rw [Requested, List.getElem?_eq_none (by omega)] at h
  simp at h

theorem Pressed.lt_length (h : Pressed row f) : f < row.length := by
  by_contra outside
  rw [Pressed, List.getElem?_eq_none (by omega)] at h
  simp at h

theorem requested_append (before : f < row.length) :
    Requested (row ++ rest) f ↔ Requested row f := by
  rw [Requested, Requested, List.getElem?_append_left before]

theorem pressed_append (before : f < row.length) : Pressed (row ++ rest) f ↔ Pressed row f := by
  rw [Pressed, Pressed, List.getElem?_append_left before]

@[simp] theorem requested_next :
    Requested (row ++ e :: rest) row.length ↔ e.verdict = .resetRequested := by
  simp [Requested]

@[simp] theorem pressed_next : Pressed (row ++ e :: rest) row.length ↔ e.pressed = true := by
  simp [Pressed]

/-- Whether an earlier request stands unanswered is told by the frames before. -/
theorem unanswered_append (before : q < row.length) (upTo : f ≤ row.length) :
    Unanswered (row ++ rest) q f ↔ Unanswered row q f := by
  constructor
  · rintro ⟨requested, order, waits⟩
    refine ⟨(requested_append before).mp requested, order, ?_⟩
    intro g start stop pressed
    exact waits g start stop ((pressed_append (by omega)).mpr pressed)
  · rintro ⟨requested, order, waits⟩
    refine ⟨(requested_append before).mpr requested, order, ?_⟩
    intro g start stop pressed
    exact waits g start stop ((pressed_append (by omega)).mp pressed)

/-! ## The rule -/

/-- The button is pressed at the end of a frame that asks for a reset if a request stands unanswered
that was made at least the delay before, whether or not it has been withdrawn in between. -/
def Rule (delay : Nat) (row : List FrameEnd) : Prop :=
  ∀ f, Pressed row f ↔ Requested row f ∧ ∃ q, q + delay ≤ f ∧ Unanswered row q f

/-- The rule speaks of each frame by those before it. -/
theorem rule_append (before : f < row.length) :
    (Requested (row ++ rest) f ∧ ∃ q, q + delay ≤ f ∧ Unanswered (row ++ rest) q f) ↔
      Requested row f ∧ ∃ q, q + delay ≤ f ∧ Unanswered row q f := by
  refine and_congr (requested_append before) (exists_congr fun q => and_congr_right fun early => ?_)
  exact unanswered_append (by omega) (by omega)

/-- Whether the button is pressed at the end of a frame, given what the program says and when its first
unanswered request is due. -/
def comesDue (delay frame : Nat) (due : Option Nat) (verdict : Verdict) : Bool :=
  verdict = .resetRequested ∧ due.getD (frame + delay) ≤ frame

/-- When the first unanswered request is due behind the end of a frame. -/
def nextDue (delay frame : Nat) (due : Option Nat) (e : FrameEnd) : Option Nat :=
  if e.pressed then none
  else if e.verdict = .resetRequested then some (due.getD (frame + delay))
  else due

/-- What the runner knows of the frames behind it: when the first unanswered request is due, if there
is one. -/
structure Recalls (delay : Nat) (due : Option Nat) (row : List FrameEnd) : Prop where
  rule : Rule delay row
  stands : ∀ t, due = some t → ∃ q, Unanswered row q row.length ∧ t = q + delay
  first : ∀ q, Unanswered row q row.length → ∃ t, due = some t ∧ t ≤ q + delay

theorem recalls_nil (delay : Nat) : Recalls delay none [] where
  rule f := by simp [Pressed, Requested]
  stands := by simp
  first := by
    rintro q ⟨requested, -, -⟩
    simp [Requested] at requested

/-- What the runner knows is enough for the rule. -/
theorem Recalls.comesDue_iff (h : Recalls delay due row) :
    comesDue delay row.length due e.verdict = true ↔
      Requested (row ++ e :: rest) row.length ∧
        ∃ q, q + delay ≤ row.length ∧ Unanswered (row ++ e :: rest) q row.length := by
  rw [comesDue, decide_eq_true_iff, requested_next]
  refine and_congr_right fun asks => ?_
  have now : Unanswered (row ++ e :: rest) row.length row.length :=
    ⟨requested_next.mpr asks, Nat.le_refl _, fun g start stop => by omega⟩
  constructor
  · intro late
    cases known : due with
    | none =>
      rw [known, Option.getD_none] at late
      exact ⟨row.length, late, now⟩
    | some t =>
      obtain ⟨q, stands, rfl⟩ := h.stands t known
      rw [known, Option.getD_some] at late
      exact ⟨q, late, (unanswered_append stands.requested.lt_length (Nat.le_refl _)).mpr stands⟩
  · rintro ⟨q, early, stands⟩
    -- A request of this very frame is answered only if there is no delay.
    obtain before | rfl := Nat.lt_or_eq_of_le stands.order
    · obtain ⟨t, known, le⟩ :=
        h.first q ((unanswered_append before (Nat.le_refl _)).mp stands)
      rw [known, Option.getD_some]
      omega
    · cases known : due with
      | none => exact early
      | some t =>
        obtain ⟨q, stands, rfl⟩ := h.stands t known
        have before := stands.requested.lt_length
        rw [Option.getD_some]
        omega

/-- In a row that keeps to the rule the runner knows when the button is pressed next. -/
theorem Recalls.pressed_of_rule (h : Recalls delay due row) (rule : Rule delay (row ++ e :: rest)) :
    e.pressed = comesDue delay row.length due e.verdict := by
  have told := rule row.length
  rw [pressed_next] at told
  rw [Bool.eq_iff_iff]
  exact told.trans h.comesDue_iff.symm

/-- What stands unanswered behind one more frame. -/
theorem unanswered_concat :
    Unanswered (row ++ [e]) q (row.length + 1) ↔
      e.pressed = false ∧
        (Unanswered row q row.length ∨ q = row.length ∧ e.verdict = .resetRequested) := by
  constructor
  · rintro ⟨requested, order, waits⟩
    have inside := requested.lt_length
    rw [List.length_append, List.length_singleton] at inside
    have quiet : e.pressed = false := by
      rw [← Bool.not_eq_true, ← @pressed_next row [] e]
      exact waits row.length (by omega) (by omega)
    refine ⟨quiet, ?_⟩
    obtain before | rfl := Nat.lt_or_eq_of_le (Nat.le_of_lt_succ inside)
    · refine .inl ((unanswered_append before (Nat.le_refl _)).mp ⟨requested, by omega, ?_⟩)
      intro g start stop
      exact waits g start (by omega)
    · exact .inr ⟨rfl, requested_next.mp requested⟩
  · rintro ⟨quiet, stands | ⟨rfl, asks⟩⟩
    · have before := stands.requested.lt_length
      obtain ⟨requested, -, waits⟩ : Unanswered (row ++ [e]) q row.length :=
        (unanswered_append before (Nat.le_refl _)).mpr stands
      refine ⟨requested, by omega, ?_⟩
      intro g start stop
      obtain earlier | rfl := Nat.lt_or_eq_of_le (Nat.le_of_lt_succ stop)
      · exact waits g start earlier
      · rw [pressed_next, quiet]
        simp
    · refine ⟨requested_next.mpr asks, by omega, ?_⟩
      intro g start stop
      obtain rfl : g = row.length := by omega
      rw [pressed_next, quiet]
      simp

/-- One more frame that is ended by the rule. -/
theorem Recalls.rule_next (h : Recalls delay due row)
    (pressed : e.pressed = comesDue delay row.length due e.verdict) : Rule delay (row ++ [e]) := by
  intro f
  obtain before | rfl | behind := Nat.lt_trichotomy f row.length
  · rw [pressed_append before, rule_append before, h.rule f]
  · rw [pressed_next, pressed]
    exact h.comesDue_iff
  · have outside : ¬ f < (row ++ [e]).length := by
      rw [List.length_append, List.length_singleton]
      omega
    exact iff_of_false (fun later => outside later.lt_length) fun later => outside later.1.lt_length

/-- A request at the end of a frame leaves one that stands unanswered: itself, or the first one. -/
theorem Recalls.stands_behind (h : Recalls delay due row) (quiet : e.pressed = false)
    (asks : e.verdict = .resetRequested) :
    ∃ q, Unanswered (row ++ [e]) q (row.length + 1) ∧
      due.getD (row.length + delay) = q + delay := by
  cases known : due with
  | none => exact ⟨row.length, unanswered_concat.mpr ⟨quiet, .inr ⟨rfl, asks⟩⟩, rfl⟩
  | some t =>
    obtain ⟨q, stands, rfl⟩ := h.stands t known
    exact ⟨q, unanswered_concat.mpr ⟨quiet, .inl stands⟩, rfl⟩

/-- No request is due later than one that is made now. -/
theorem Recalls.due_le (h : Recalls delay due row) :
    due.getD (row.length + delay) ≤ row.length + delay := by
  cases known : due with
  | none => exact Nat.le_refl _
  | some t =>
    obtain ⟨q, stands, rfl⟩ := h.stands t known
    have before := stands.requested.lt_length
    rw [Option.getD_some]
    omega

/-- What the runner knows behind one more frame. -/
theorem Recalls.next (h : Recalls delay due row)
    (pressed : e.pressed = comesDue delay row.length due e.verdict) :
    Recalls delay (nextDue delay row.length due e) (row ++ [e]) := by
  have length : (row ++ [e]).length = row.length + 1 := by simp
  refine ⟨h.rule_next pressed, ?_, ?_⟩
  · intro t known
    rw [length]
    unfold nextDue at known
    split_ifs at known with answered asks
    · rw [Bool.not_eq_true] at answered
      obtain ⟨q, stands, due⟩ := h.stands_behind answered asks
      exact ⟨q, stands, (Option.some.inj known).symm.trans due⟩
    · rw [Bool.not_eq_true] at answered
      obtain ⟨q, stands, rfl⟩ := h.stands t known
      exact ⟨q, unanswered_concat.mpr ⟨answered, .inl stands⟩, rfl⟩
  · intro q stands
    rw [length] at stands
    obtain ⟨quiet, before | ⟨rfl, asks⟩⟩ := unanswered_concat.mp stands
    · obtain ⟨t, known, le⟩ := h.first q before
      exact ⟨t, by simp [nextDue, quiet, known], le⟩
    · exact ⟨_, by simp [nextDue, quiet, asks], h.due_le⟩

/-! ## What the rule is worth -/

/-- A reset has been asked for during all of the delay, as it should be, if and only if no request that
it answers has been withdrawn. -/
theorem Rule.in_time_iff (rule : Rule delay row) (some : 0 < delay) (pressed : Pressed row f) :
    (∀ g, f ≤ g + delay → g ≤ f → Requested row g) ↔
      ∀ q, Unanswered row q f → ∀ g, q ≤ g → g ≤ f → Requested row g := by
  obtain ⟨asks, q, early, stands⟩ := (rule f).mp pressed
  constructor
  · intro asked q stands g start stop
    -- A request that was due before would have been answered at the end of the last frame.
    have recent : f ≤ q + delay := by
      by_contra old
      have last : Requested row (f - 1) := asked (f - 1) (by omega) (by omega)
      have answered : Pressed row (f - 1) := by
        refine (rule (f - 1)).mpr ⟨last, q, by omega, stands.requested, by omega, ?_⟩
        intro g start stop
        exact stands.waits g start (by omega)
      exact stands.waits (f - 1) (by omega) (by omega) answered
    exact asked g (by omega) stop
  · intro kept g start stop
    exact kept q stands g (by omega) stop

end FrameEnd

/-! ## The runner -/

namespace Console

open FrameEnd

/-- Frames are run until a report, a fault or the end of the time, and the reset button is pressed as
the row tells. -/
inductive Waits (total : Nat) :
    Nat → Console → List FrameEnd → Except ConsoleError Outcome × Console → Prop
  | late (c : Console) : Waits total 0 c [] (.error (.noReport total), c)
  | failed {left : Nat} {c d : Console} {e : ConsoleError} (ran : c.runFrame = (.error e, d)) :
      Waits total (left + 1) c [] (.error e, d)
  | reported {left : Nat} {c d : Console} {outcome : Outcome} (ran : c.runFrame = (.ok (), d))
      (done : d.verdict = .done outcome) :
      Waits total (left + 1) c [⟨d.verdict, false⟩] (.ok outcome, d)
  | frame {left : Nat} {c d : Console} {row : List FrameEnd}
      {answer : Except ConsoleError Outcome × Console} (pressed : Bool)
      (ran : c.runFrame = (.ok (), d)) (goesOn : ∀ outcome, d.verdict ≠ .done outcome)
      (rest : Waits total left (if pressed then d.reset else d) row answer) :
      Waits total (left + 1) c (⟨d.verdict, pressed⟩ :: row) answer

variable {total delay left frame : Nat} {due : Option Nat} {row : List FrameEnd} {c d : Console}

/-- One frame of the runner, if the program does not report at its end. -/
theorem awaitFrom_goesOn (ran : c.runFrame = (.ok (), d))
    (goesOn : ∀ outcome, d.verdict ≠ .done outcome) :
    awaitFrom total delay (left + 1) frame due c =
      awaitFrom total delay left (frame + 1)
        (nextDue delay frame due ⟨d.verdict, comesDue delay frame due d.verdict⟩)
        (if comesDue delay frame due d.verdict then d.reset else d) := by
  rw [awaitFrom, ran]
  dsimp only
  cases said : d.verdict with
  | done outcome => exact absurd said (goesOn outcome)
  | running => simp [nextDue, comesDue]
  | absent => simp [nextDue, comesDue]
  | resetRequested =>
    by_cases late : due.getD (frame + delay) ≤ frame
    · simp [nextDue, comesDue, late]
    · simp [nextDue, comesDue, late]

theorem awaitFrom_reports {outcome : Outcome} (ran : c.runFrame = (.ok (), d))
    (done : d.verdict = .done outcome) :
    awaitFrom total delay (left + 1) frame due c = (.ok outcome, d) := by
  simp [awaitFrom, ran, done]

theorem awaitFrom_fails {e : ConsoleError} (ran : c.runFrame = (.error e, d)) :
    awaitFrom total delay (left + 1) frame due c = (.error e, d) := by
  simp [awaitFrom, ran]

namespace Waits

variable {answer : Except ConsoleError Outcome × Console}

theorem row_of_error {e : ConsoleError} (waits : Waits total (left + 1) c row answer)
    (ran : c.runFrame = (.error e, d)) : row = [] := by
  cases waits with
  | failed => rfl
  | reported ran' => simp [ran] at ran'
  | frame pressed ran' => simp [ran] at ran'

theorem row_of_done {outcome : Outcome} (waits : Waits total (left + 1) c row answer)
    (ran : c.runFrame = (.ok (), d)) (done : d.verdict = .done outcome) :
    row = [⟨d.verdict, false⟩] := by
  cases waits with
  | failed ran' => simp [ran] at ran'
  | reported ran' => simp_all
  | frame pressed ran' goesOn => simp_all

/-- Where the program goes on the row tells only whether the button is pressed. -/
theorem row_of_goesOn (waits : Waits total (left + 1) c row answer) (ran : c.runFrame = (.ok (), d))
    (goesOn : ∀ outcome, d.verdict ≠ .done outcome) :
    ∃ pressed rest, row = ⟨d.verdict, pressed⟩ :: rest ∧
      Waits total left (if pressed then d.reset else d) rest answer := by
  cases waits with
  | failed ran' => simp [ran] at ran'
  | reported ran' done => simp_all
  | @frame _ _ d' rest _ pressed ran' goesOn' waits =>
    obtain rfl : d = d' := by simpa [ran] using ran'
    exact ⟨pressed, rest, rfl, waits⟩

end Waits

/-- The runner presses the button by the rule, and the rule leaves it no choice. -/
theorem awaitFrom_waits (h : Recalls delay due row) :
    ∃ rest, Waits total left c rest (awaitFrom total delay left row.length due c) ∧
      Rule delay (row ++ rest) ∧
      ∀ other answer, Waits total left c other answer → Rule delay (row ++ other) → other = rest := by
  induction left generalizing row due c with
  | zero =>
    refine ⟨[], .late c, by simpa using h.rule, ?_⟩
    rintro other answer ⟨⟩ -
    rfl
  | succ left ih =>
    rcases ran : c.runFrame with ⟨e | ⟨⟩, d⟩
    · refine ⟨[], ?_, by simpa using h.rule, fun other answer waits _ => waits.row_of_error ran⟩
      rw [awaitFrom_fails ran]
      exact .failed ran
    by_cases reports : ∃ outcome, d.verdict = .done outcome
    · obtain ⟨outcome, done⟩ := reports
      have quiet : false = comesDue delay row.length due d.verdict := by
        simp [comesDue, done]
      refine ⟨[⟨d.verdict, false⟩], ?_, h.rule_next quiet,
        fun other answer waits _ => waits.row_of_done ran done⟩
      rw [awaitFrom_reports ran done]
      exact .reported ran done
    · have goesOn (outcome : Outcome) : d.verdict ≠ .done outcome :=
        fun done => reports ⟨outcome, done⟩
      let here : FrameEnd := ⟨d.verdict, comesDue delay row.length due d.verdict⟩
      have length : (row ++ [here]).length = row.length + 1 := by simp
      obtain ⟨rest, waits, rule, only⟩ := ih (c := if here.pressed then d.reset else d)
        (h.next (e := here) rfl)
      rw [length] at waits
      rw [List.append_assoc, List.singleton_append] at rule
      refine ⟨here :: rest, ?_, rule, ?_⟩
      · rw [awaitFrom_goesOn ran goesOn]
        exact .frame _ ran goesOn waits
      · intro other answer waits rule
        obtain ⟨pressed, tail, rfl, behind⟩ := waits.row_of_goesOn ran goesOn
        obtain rfl : pressed = here.pressed := h.pressed_of_rule rule
        rw [← List.singleton_append, ← List.append_assoc] at rule
        rw [only tail answer behind rule]

/-- A test program is run until it reports, and its requests are answered by the rule: the button is
pressed at the end of a frame that asks for a reset if some unanswered request is by then a tenth of a
second old. A reset comes in time, asked for during all of that time, if and only if none of the requests
that it answers has been withdrawn. -/
theorem resets_in_time_iff (c : Console) (limit : Nat) :
    let delay := c.region.framesPerTenth
    (c.region.framesPer10000s ≤ 100000 * delay ∧ 100000 * delay < c.region.framesPer10000s + 100000) ∧
    ∃ row, Waits limit limit c row (c.await limit) ∧ Rule delay row ∧
      (∀ other answer, Waits limit limit c other answer → Rule delay other → other = row) ∧
      ∀ f, Pressed row f →
        ((∀ g, f ≤ g + delay → g ≤ f → Requested row g) ↔
          ∀ q, Unanswered row q f → ∀ g, q ≤ g → g ≤ f → Requested row g) := by
  intro delay
  have bounds := c.region.framesPerTenth_bounds
  have some : 0 < c.region.framesPerTenth := by
    cases c.region <;> decide
  obtain ⟨row, waits, rule, only⟩ :=
    @awaitFrom_waits limit delay limit none [] c (recalls_nil delay)
  exact ⟨bounds, row, waits, rule, only, fun f pressed => Rule.in_time_iff rule some pressed⟩

end Console

end Famiclone
