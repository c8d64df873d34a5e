import Famiclone.Proofs.Picture.Events

/-!
# Two units keep the same time

A console may have a picture unit that only keeps time in the place of a full one. Of all that is done to a
unit only the dots move its beam, and only one dot in two frames asks whether the unit renders: the one
that is left out at the end of an odd frame. So the beams of two units go together as long as neither
leaves out a dot, whatever the full one draws, and every frame has as many dots as its lines have, less the
one that it leaves out.
-/
namespace Famiclone

namespace Beam

/-- What a unit tells of its time: the frame, the line and the dot, and whether a frame is finished that
nobody has asked for. -/
def clock (b : Beam) : (Nat × Nat × Nat) × Bool := (b.place, b.finished)

/-- Beams of the same time go on together where no dot is left out. -/
theorem clock_advance {b c : Beam} (same : b.clock = c.clock) {region : Region} {rendering : Bool}
    (whole : b.skips region rendering = false) :
    (b.advance region rendering).clock = (c.advance region false).clock := by
  unfold clock place at same
  simp only [Prod.mk.injEq] at same
  obtain ⟨⟨frame, line, dot⟩, finished⟩ := same
  have dark : c.skips region false = false := by simp [skips]
  have ends : b.lastDot region rendering = c.lastDot region false := by
    unfold lastDot
    rw [whole, dark, dot]
  cases last : b.lastDot region rendering with
  | true =>
    rw [b.advance_of_last region last, c.advance_of_last region (ends.symm.trans last)]
    unfold nextLine clock place
    dsimp only
    rw [line]
    split_ifs <;> simp [frame, finished]
  | false =>
    rw [b.advance_of_not_last region last, c.advance_of_not_last region (ends.symm.trans last)]
    unfold clock place
    simp [frame, line, dot, finished]

/-- The dot that is left out is the last of its frame. -/
theorem frame_of_skips {b : Beam} {region : Region} {rendering : Bool}
    (out : b.skips region rendering = true) : (b.advance region rendering).frame = b.frame + 1 := by
  have last : b.lastDot region rendering = true := by
    unfold lastDot
    rw [out, Bool.true_or]
  have rest := screenHeight_lt region
  simp only [skips, Bool.and_eq_true, beq_iff_eq] at out
  rw [b.advance_of_last region last]
  unfold nextLine
  dsimp only
  rw [if_neg (by omega), if_neg (by omega)]

theorem frame_le_advance (b : Beam) (region : Region) (rendering : Bool) :
    b.frame ≤ (b.advance region rendering).frame := by
  have cases := b.advance_cases region rendering
  unfold place at cases
  simp only [Prod.mk.injEq] at cases
  omega

/-- A new frame is odd behind one that is not. -/
theorem odd_advance {b : Beam} (region : Region) (rendering : Bool)
    (odd : b.odd = decide (b.frame % 2 = 1)) :
    (b.advance region rendering).odd = decide ((b.advance region rendering).frame % 2 = 1) := by
  cases last : b.lastDot region rendering with
  | true =>
    rw [b.advance_of_last region last]
    unfold nextLine
    split_ifs
    · exact odd
    · exact odd
    · dsimp only
      rw [odd, ← decide_not]
      congr 1
      apply propext
      omega
  | false =>
    rw [b.advance_of_not_last region last]
    exact odd

end Beam

namespace PictureUnit

/-! ## What is done to a unit -/

/-- Something that is done to a picture unit and its board. -/
inductive Event (β : Type) where
  | tick
  | read (register : Fin 8)
  | write (register : Fin 8) (value : UInt8)
  /-- Someone asks whether a frame is finished. -/
  | ask
  | powerOn
  /-- The board changes by itself, in whatever way. -/
  | board (change : β → β)

def Event.isTick {β : Type} : Event β → Bool
  | tick => true
  | _ => false

def Event.isPowerOn {β : Type} : Event β → Bool
  | powerOn => true
  | _ => false

/-- Whether a unit renders on the lines for it. -/
def renders : PictureUnit → Bool
  | full p => p.mask.renders
  | blank .. => false

/-- The dot that comes next is the one that a unit leaves out: rendering, in an odd frame, at the end of
the last line, in the region that does so. -/
structure LeavesOut (u : PictureUnit) : Prop where
  region : u.region = .ntsc
  line : u.beam.line = u.region.preRenderLine
  dot : u.beam.dot = 339
  odd : u.beam.odd = true
  rendering : u.renders = true

theorem leavesOut_iff (u : PictureUnit) :
    u.LeavesOut ↔ u.beam.skips u.region u.renders = true := by
  have skipping : u.region.skipsOddDot = true ↔ u.region = .ntsc := by
    cases u.region <;> decide
  simp only [Beam.skips, Bool.and_eq_true, beq_iff_eq, skipping]
  exact ⟨fun h => ⟨⟨⟨⟨h.line, h.dot⟩, h.odd⟩, h.rendering⟩, h.region⟩,
    fun h => ⟨h.2, h.1.1.1.1, h.1.1.1.2, h.1.1.2, h.1.2⟩⟩

instance (u : PictureUnit) : Decidable u.LeavesOut := decidable_of_iff _ u.leavesOut_iff.symm

/-- A unit that only keeps time never renders. -/
theorem renders_of_blank {u : PictureUnit} (kind : u.kind = .blank) : u.renders = false := by
  cases u with
  | full p => contradiction
  | blank p => rfl

variable {β : Type} [PictureBus β]

def happen (s : PictureUnit × β) : Event β → PictureUnit × β
  | .tick => s.1.tick s.2
  | .read register => (s.1.read s.2 register).2
  | .write register value => s.1.write s.2 register value
  | .ask => (s.1.takeFinished.2, s.2)
  | .powerOn => (s.1.powerOn, s.2)
  | .board change => (s.1, change s.2)

def behind (s : PictureUnit × β) (events : List (Event β)) : PictureUnit × β :=
  events.foldl happen s

@[simp] theorem behind_nil (s : PictureUnit × β) : behind s [] = s := rfl

@[simp] theorem behind_cons (s : PictureUnit × β) (event : Event β) (rest : List (Event β)) :
    behind s (event :: rest) = behind (happen s event) rest := rfl

theorem behind_concat (s : PictureUnit × β) (events : List (Event β)) (last : Event β) :
    behind s (events ++ [last]) = happen (behind s events) last := List.foldl_append

def dots (events : List (Event β)) : Nat := events.countP Event.isTick

def omitted (s : PictureUnit × β) : List (Event β) → Nat
  | [] => 0
  | event :: rest =>
    (if event.isTick ∧ s.1.LeavesOut then 1 else 0) + omitted (happen s event) rest

/-! ## What an event does to the time -/

theorem tick_beam (u : PictureUnit) (board : β) :
    (u.tick board).1.region = u.region ∧
      (u.tick board).1.beam = u.beam.advance u.region u.renders := by
  cases u with
  | full p =>
    have moved := Picture.tick_timing p board
    exact ⟨congrArg Prod.fst moved, congrArg Prod.snd moved⟩
  | blank p => exact ⟨p.tick_region, p.beam_tick⟩

theorem tick_renders (u : PictureUnit) (board : β) : (u.tick board).1.renders = u.renders := by
  cases u with
  | full p => exact congrArg (fun setup => setup.mask.renders) (Picture.tick_setup p board)
  | blank p => rfl

/-- All but dots and the return of the power leave the beam in its place. -/
theorem happen_still (s : PictureUnit × β) {event : Event β} (noTick : event.isTick = false)
    (noPower : event.isPowerOn = false) :
    (happen s event).1.region = s.1.region ∧ (happen s event).1.beam.place = s.1.beam.place ∧
      (happen s event).1.beam.odd = s.1.beam.odd := by
  have still {u v : PictureUnit} (same : v.timing = u.timing) : v.region = u.region ∧
      v.beam.place = u.beam.place ∧ v.beam.odd = u.beam.odd :=
    ⟨congrArg Prod.fst same, congrArg (fun t => t.2.place) same, congrArg (fun t => t.2.odd) same⟩
  cases event with
  | tick | powerOn => contradiction
  | read register => exact still (s.1.read_timing s.2 register)
  | write register value => exact still (s.1.write_timing s.2 register value)
  | ask =>
    obtain ⟨u, board⟩ := s
    cases u <;> exact ⟨rfl, rfl, rfl⟩
  | board change => exact ⟨rfl, rfl, rfl⟩

theorem happen_kind (s : PictureUnit × β) (event : Event β) :
    (happen s event).1.kind = s.1.kind := by
  obtain ⟨u, board⟩ := s
  cases u <;> cases event <;> rfl

theorem initial_region (kind : PictureKind) (region : Region) :
    (initial kind region).region = region := congrArg Prod.fst (initial_timing kind region)

theorem initial_beam (kind : PictureKind) (region : Region) :
    (initial kind region).beam = .start := congrArg Prod.snd (initial_timing kind region)

theorem happen_region (s : PictureUnit × β) (event : Event β) :
    (happen s event).1.region = s.1.region := by
  cases ticks : event.isTick with
  | true =>
    cases event with
    | tick => exact (s.1.tick_beam s.2).1
    | _ => contradiction
  | false =>
    cases powers : event.isPowerOn with
    | true =>
      cases event with
      | powerOn => exact initial_region _ _
      | _ => contradiction
    | false => exact (happen_still s ticks powers).1

/-! ## Two units side by side -/

/-- Two units that tell the same time. -/
structure SameTime (u v : PictureUnit) : Prop where
  region : u.region = v.region
  clock : u.beam.clock = v.beam.clock

/-- What one event preserves, unless the unit leaves out a dot in it. -/
theorem SameTime.happen {s t : PictureUnit × β} (h : SameTime s.1 t.1) (dark : t.1.renders = false)
    (event : Event β) (whole : event.isTick → ¬ s.1.LeavesOut) :
    SameTime (PictureUnit.happen s event).1 (PictureUnit.happen t event).1 := by
  refine ⟨by rw [happen_region, happen_region, h.region], ?_⟩
  have same := h.clock
  cases event with
  | tick =>
    have inside : s.1.beam.skips s.1.region s.1.renders = false := by
      have stays := whole rfl
      rwa [leavesOut_iff, Bool.not_eq_true] at stays
    show (s.1.tick s.2).1.beam.clock = (t.1.tick t.2).1.beam.clock
    rw [(s.1.tick_beam s.2).2, (t.1.tick_beam t.2).2, dark, ← h.region]
    exact Beam.clock_advance same inside
  | read register =>
    have here := congrArg (fun t => t.2.clock) (s.1.read_timing s.2 register)
    have there := congrArg (fun t => t.2.clock) (t.1.read_timing t.2 register)
    exact here.trans (same.trans there.symm)
  | write register value =>
    have here := congrArg (fun t => t.2.clock) (s.1.write_timing s.2 register value)
    have there := congrArg (fun t => t.2.clock) (t.1.write_timing t.2 register value)
    exact here.trans (same.trans there.symm)
  | ask =>
    have asked (u : PictureUnit) : u.takeFinished.2.beam.clock = (u.beam.place, false) := by
      cases u <;> rfl
    show s.1.takeFinished.2.beam.clock = t.1.takeFinished.2.beam.clock
    rw [asked, asked, show s.1.beam.place = t.1.beam.place from congrArg Prod.fst same]
  | powerOn =>
    show (initial _ _).beam.clock = (initial _ _).beam.clock
    rw [initial_beam, initial_beam]
  | board change => exact same

/-- What a row of events preserves. -/
theorem SameTime.behind {s t : PictureUnit × β} (h : SameTime s.1 t.1) (kind : t.1.kind = .blank)
    (events : List (Event β))
    (whole : ∀ before after, events = before ++ .tick :: after →
      ¬ (PictureUnit.behind s before).1.LeavesOut) :
    SameTime (PictureUnit.behind s events).1 (PictureUnit.behind t events).1 := by
  induction events generalizing s t with
  | nil => exact h
  | cons event rest ih =>
    have first : event.isTick → ¬ s.1.LeavesOut := by
      intro ticks
      cases event with
      | tick => exact whole [] rest rfl
      | _ => contradiction
    refine ih (h.happen (renders_of_blank kind) event first) ((happen_kind t event).trans kind) ?_
    intro before after split
    exact whole (event :: before) after (congrArg (event :: ·) split)

/-! ## The dots of a frame -/

/-- A unit of a region with its beam on the screen. The frames are numbered since power-on, so their
numbers tell which are odd. -/
structure OnTime (region : Region) (u : PictureUnit) : Prop where
  inRange : u.beam.InRange region
  region : u.region = region
  odd : u.beam.odd = decide (u.beam.frame % 2 = 1)

theorem initial_onTime (kind : PictureKind) (region : Region) : (initial kind region).OnTime region where
  inRange := by
    rw [initial_beam]
    exact Beam.start_inRange region
  region := initial_region kind region
  odd := by
    rw [initial_beam]
    rfl

variable {region : Region}

/-- What one event preserves. -/
theorem OnTime.happen {s : PictureUnit × β} (h : s.1.OnTime region) (event : Event β) :
    (PictureUnit.happen s event).1.OnTime region := by
  have same := (happen_region s event).trans h.region
  cases ticks : event.isTick with
  | true =>
    cases event with
    | tick =>
      obtain ⟨-, beam⟩ := s.1.tick_beam s.2
      rw [h.region] at beam
      refine ⟨?_, same, ?_⟩
      · show (s.1.tick s.2).1.beam.InRange region
        rw [beam]
        exact (Beam.advance_ahead h.inRange _).inRange
      · show (s.1.tick s.2).1.beam.odd = decide ((s.1.tick s.2).1.beam.frame % 2 = 1)
        rw [beam]
        exact Beam.odd_advance region _ h.odd
    | _ => contradiction
  | false =>
    cases powers : event.isPowerOn with
    | true =>
      cases event with
      | powerOn => exact h.region ▸ initial_onTime _ _
      | _ => contradiction
    | false =>
      obtain ⟨-, place, odd⟩ := happen_still s ticks powers
      have frame : (PictureUnit.happen s event).1.beam.frame = s.1.beam.frame :=
        congrArg Prod.fst place
      refine ⟨h.inRange.of_place place, same, ?_⟩
      rw [odd, h.odd, frame]

/-- What a row of events preserves. -/
theorem OnTime.behind {s : PictureUnit × β} (h : s.1.OnTime region) (events : List (Event β)) :
    (PictureUnit.behind s events).1.OnTime region := by
  induction events generalizing s with
  | nil => exact h
  | cons event rest ih => exact ih (h.happen event)

/-- A dot brings the beam on by one place and by those that it leaves out, and what it leaves out ends a
frame. -/
theorem OnTime.position_happen {s : PictureUnit × β} (h : s.1.OnTime region) {event : Event β}
    (powered : event.isPowerOn = false) :
    (PictureUnit.happen s event).1.beam.position region = s.1.beam.position region +
        event.isTick.toNat + (if event.isTick ∧ s.1.LeavesOut then 1 else 0) ∧
      s.1.beam.frame + (if event.isTick ∧ s.1.LeavesOut then 1 else 0) ≤
        (PictureUnit.happen s event).1.beam.frame := by
  cases ticks : event.isTick with
  | true =>
    cases event with
    | tick =>
      obtain ⟨-, beam⟩ := s.1.tick_beam s.2
      rw [h.region] at beam
      have skips : true = true ∧ s.1.LeavesOut ↔ s.1.beam.skips region s.1.renders = true := by
        rw [leavesOut_iff, h.region]
        exact and_iff_right rfl
      show (s.1.tick s.2).1.beam.position region = _ ∧ _ ≤ (s.1.tick s.2).1.beam.frame
      rw [beam, if_congr skips rfl rfl]
      refine ⟨h.inRange.position_advance s.1.renders, ?_⟩
      split_ifs with out
      · exact Nat.le_of_eq (Beam.frame_of_skips out).symm
      · exact s.1.beam.frame_le_advance region s.1.renders
    | _ => contradiction
  | false =>
    obtain ⟨-, place, -⟩ := happen_still s ticks powered
    unfold Beam.place at place
    simp only [Prod.mk.injEq] at place
    unfold Beam.position Beam.row
    rw [place.1, place.2.1, place.2.2]
    simp

/-- The same of a row of events. -/
theorem OnTime.position_behind {s : PictureUnit × β} (h : s.1.OnTime region)
    {events : List (Event β)} (powered : ∀ event ∈ events, event.isPowerOn = false) :
    (PictureUnit.behind s events).1.beam.position region =
        s.1.beam.position region + dots events + omitted s events ∧
      s.1.beam.frame + omitted s events ≤ (PictureUnit.behind s events).1.beam.frame := by
  induction events generalizing s with
  | nil => exact ⟨rfl, Nat.le_refl _⟩
  | cons event rest ih =>
    obtain ⟨first, grows⟩ := h.position_happen (powered event List.mem_cons_self)
    obtain ⟨second, grows'⟩ := ih (h.happen event)
      fun other member => powered other (List.mem_cons_of_mem _ member)
    have count : dots (event :: rest) = event.isTick.toNat + dots rest := by
      unfold dots
      rw [List.countP_cons, Nat.add_comm]
      cases event.isTick <;> rfl
    rw [behind_cons, omitted, count]
    omega

/-- A dot is left out in a row of events. -/
def Shortened (s : PictureUnit × β) (events : List (Event β)) : Prop :=
  ∃ before after, events = before ++ .tick :: after ∧ (behind s before).1.LeavesOut

theorem omitted_pos_iff (s : PictureUnit × β) (events : List (Event β)) :
    0 < omitted s events ↔ Shortened s events := by
  unfold Shortened
  induction events generalizing s with
  | nil => simp [omitted]
  | cons event rest ih =>
    have later := ih (happen s event)
    rw [omitted, Nat.add_pos_iff_pos_or_pos, later]
    constructor
    · rintro (now | ⟨before, after, split, out⟩)
      · have out : event.isTick = true ∧ s.1.LeavesOut := by
          by_contra none
          rw [if_neg none] at now
          exact absurd now (Nat.lt_irrefl 0)
        cases event with
        | tick => exact ⟨[], rest, rfl, out.2⟩
        | _ => exact absurd out.1 Bool.false_ne_true
      · exact ⟨event :: before, after, congrArg (event :: ·) split, out⟩
    · rintro ⟨before, after, split, out⟩
      cases before with
      | nil =>
        obtain ⟨rfl, rfl⟩ := List.cons_eq_cons.mp split
        rw [if_pos ⟨rfl, out⟩]
        exact .inl Nat.one_pos
      | cons first before =>
        obtain ⟨rfl, rfl⟩ := List.cons_eq_cons.mp split
        exact .inr ⟨before, after, rfl, out⟩

instance (s : PictureUnit × β) (events : List (Event β)) : Decidable (Shortened s events) :=
  decidable_of_iff _ (omitted_pos_iff s events)

/-- From the top of a frame a row of events leads to the top of the next if it has as many dots as the
lines of a frame, less one if it leaves one out. -/
theorem OnTime.frame_iff {s : PictureUnit × β} (h : s.1.OnTime region)
    (first : s.1.beam.line = 0 ∧ s.1.beam.dot = 0) {events : List (Event β)}
    (powered : ∀ event ∈ events, event.isPowerOn = false) :
    (PictureUnit.behind s events).1.beam.place = (s.1.beam.frame + 1, 0, 0) ↔
      dots events = 341 * region.scanlines - if Shortened s events then 1 else 0 := by
  obtain ⟨moved, grows⟩ := h.position_behind powered
  have range := (h.behind events).inRange
  have short := omitted_pos_iff s events
  generalize (PictureUnit.behind s events).1.beam = b at moved grows range ⊢
  have lines : 0 < region.scanlines := by cases region <;> decide
  have dots : 0 < dotsPerLine := by decide
  have top := range.position_eq_iff (s.1.beam.frame + 1) lines dots
  have place : b.place = (s.1.beam.frame + 1, 0, 0) ↔ b.frame = s.1.beam.frame + 1 ∧
      b.line = 0 ∧ b.dot = 0 := by
    unfold Beam.place
    simp only [Prod.mk.injEq]
  rw [place, ← top]
  unfold Beam.position Beam.row at *
  rw [first.1, first.2] at moved
  rw [if_congr short.symm rfl rfl]
  have line := range.line
  cases region <;> simp only [Region.scanlines, dotsPerLine] at * <;> split_ifs <;> omega

/-! ### Frames without accesses -/

omit [PictureBus β] in
theorem dots_ticks (n : Nat) : dots (List.replicate n (Event.tick (β := β))) = n := by
  simp [dots, List.countP_replicate, Event.isTick]

omit [PictureBus β] in
theorem powered_ticks (n : Nat) :
    ∀ event ∈ List.replicate n (Event.tick (β := β)), event.isPowerOn = false := by
  intro event member
  rw [List.eq_of_mem_replicate member]
  rfl

theorem renders_ticks (s : PictureUnit × β) (n : Nat) :
    (behind s (List.replicate n .tick)).1.renders = s.1.renders := by
  induction n generalizing s with
  | zero => rfl
  | succ n ih => exact (ih (happen s .tick)).trans (s.1.tick_renders s.2)

/-- Without rendering no dot is left out. -/
theorem not_shortened_of_dark {s : PictureUnit × β} (dark : s.1.renders = false) (n : Nat) :
    ¬ Shortened s (List.replicate n .tick) := by
  rintro ⟨before, after, split, out⟩
  obtain ⟨-, run, -⟩ := List.replicate_eq_append_iff.mp split
  have rendering := out.rendering
  rw [run, renders_ticks, dark] at rendering
  contradiction

/-- A unit that renders all through an odd frame leaves out its last dot. -/
theorem OnTime.shortened {s : PictureUnit × β} (h : s.1.OnTime .ntsc)
    (first : s.1.beam.line = 0 ∧ s.1.beam.dot = 0) (odd : s.1.beam.odd = true)
    (rendering : s.1.renders = true) : Shortened s (List.replicate (341 * 262 - 1) .tick) := by
  obtain ⟨n, count⟩ : ∃ n, n = 341 * 261 + 339 := ⟨_, rfl⟩
  have here := h.behind (List.replicate n .tick)
  obtain ⟨moved, grows⟩ := h.position_behind (powered_ticks n)
  have next : List.replicate (341 * 262 - 1) (Event.tick (β := β)) =
      List.replicate n .tick ++ [.tick] := by
    rw [← List.replicate_succ']
    exact congrArg (List.replicate · _) (by omega)
  have lines : 261 < Region.ntsc.scanlines := by decide
  have dots' : 339 < dotsPerLine := by decide
  have place := here.inRange.position_eq_iff s.1.beam.frame lines dots'
  have there : (PictureUnit.behind s (List.replicate n .tick)).1.beam.position .ntsc =
      dotsPerLine * (s.1.beam.frame * Region.ntsc.scanlines + 261) + 339 := by
    have line := here.inRange.line
    rw [dots_ticks] at moved
    unfold Beam.position Beam.row at *
    simp only [Region.scanlines, dotsPerLine] at *
    omega
  obtain ⟨frame, line, dot⟩ := place.mp there
  have region := here.region
  refine ⟨List.replicate n .tick, [], next, region, by rw [region, line]; rfl, dot, ?_,
    (renders_ticks s n).trans rendering⟩
  rw [here.odd, frame, ← h.odd, odd]

/-! ## A full unit and one that only keeps time -/

/-- What the time of the two kinds of units is, when a row of events has happened to each of them since
power-on. -/
structure KeepTime (region : Region) (board other : β) (events : List (Event β)) : Prop where
  /-- They tell the same time, and whether a frame is finished, unless the full unit has left out a dot. -/
  together : (region = .pal ∨ ∀ before after, events = before ++ .tick :: after →
      ¬ (behind (initial .full region, board) before).1.LeavesOut) →
    (behind (initial .full region, board) events).1.beam.place =
        (behind (initial .blank region, other) events).1.beam.place ∧
      (behind (initial .full region, board) events).1.takeFinished.1 =
        (behind (initial .blank region, other) events).1.takeFinished.1
  /-- Only a full unit leaves out dots. -/
  blank : ¬ (behind (initial .blank region, other) events).1.LeavesOut
  /-- The frames are odd and even in turn. -/
  odd : ∀ kind, (behind (initial kind region, board) events).1.beam.odd =
    decide ((behind (initial kind region, board) events).1.beam.frame % 2 = 1)
  /-- A frame has the dots of its lines, less the one that may be left out in it. -/
  frame : ∀ kind (during : List (Event β)),
    let top := behind (initial kind region, board) events
    top.1.beam.line = 0 ∧ top.1.beam.dot = 0 → (∀ event ∈ during, event.isPowerOn = false) →
      ((behind top during).1.beam.place = (top.1.beam.frame + 1, 0, 0) ↔
        dots during = 341 * region.scanlines - if Shortened top during then 1 else 0)

theorem behind_kind (s : PictureUnit × β) (events : List (Event β)) :
    (behind s events).1.kind = s.1.kind := by
  induction events generalizing s with
  | nil => rfl
  | cons event rest ih => exact (ih _).trans (happen_kind s event)

theorem units_keep_time (region : Region) (board other : β) (events : List (Event β)) :
    KeepTime region board other events := by
  have started (kind : PictureKind) (board : β) (events : List (Event β)) :
      (behind (initial kind region, board) events).1.OnTime region :=
    (initial_onTime kind region).behind events
  refine ⟨fun whole => ?_, ?_, fun kind => (started kind board events).odd, ?_⟩
  · have start : SameTime (initial .full region) (initial .blank region) := ⟨rfl, rfl⟩
    have same := start.behind (s := (initial .full region, board)) (t := (initial .blank region, other))
      rfl events fun before after split => by
        rcases whole with pal | whole
        · intro out
          have ntsc := out.region
          rw [(started .full board before).region, pal] at ntsc
          contradiction
        · exact whole before after split
    have asked (u : PictureUnit) : u.takeFinished.1 = u.beam.finished := by cases u <;> rfl
    rw [asked, asked]
    exact ⟨congrArg Prod.fst same.clock, congrArg Prod.snd same.clock⟩
  · intro out
    have dark := renders_of_blank (behind_kind (initial .blank region, other) events)
    exact Bool.false_ne_true (dark.symm.trans out.rendering)
  · intro kind during top first powered
    exact (started kind board events).frame_iff first powered

/-- A frame passes in the dark, then the unit is told to render. -/
def lateRendering : List (Event Board) := List.replicate (341 * 262) .tick ++ [.write 1 0x18]

theorem lateRendering_whole (before after : List (Event Board))
    (split : lateRendering = before ++ .tick :: after) :
    ¬ (behind (initial .full .ntsc, .empty) before).1.LeavesOut := by
  intro out
  unfold lateRendering at split
  rcases List.eq_nil_or_concat after with rfl | ⟨inner, last, rfl⟩
  · have ends := (List.append_inj' split rfl).2
    cases ends
  · rw [List.concat_eq_append, ← List.cons_append, ← List.append_assoc] at split
    exact not_shortened_of_dark (s := (initial .full .ntsc, Board.empty)) rfl (341 * 262)
      ⟨before, inner, (List.append_inj' split rfl).1, out⟩

theorem lateRendering_place :
    (behind (initial .full .ntsc, Board.empty) lateRendering).1.beam.place = (1, 0, 0) := by
  have dark := not_shortened_of_dark (s := (initial .full .ntsc, Board.empty)) rfl (341 * 262)
  have frame := (initial_onTime .full .ntsc).frame_iff (s := (initial .full .ntsc, Board.empty))
    ⟨rfl, rfl⟩ (powered_ticks (341 * 262))
  rw [dots_ticks, if_neg dark] at frame
  unfold lateRendering
  rw [behind_concat]
  exact (happen_still _ rfl rfl).2.1.trans (frame.mpr rfl)

theorem lateRendering_renders :
    (behind (initial .full .ntsc, Board.empty) lateRendering).1.renders = true := by
  have kind := behind_kind (initial .full .ntsc, Board.empty) (.replicate (341 * 262) .tick)
  unfold lateRendering
  rw [behind_concat]
  generalize behind (initial .full .ntsc, Board.empty) (.replicate (341 * 262) .tick) = s at kind ⊢
  obtain ⟨u, board⟩ := s
  cases u with
  | full p => exact show (⟨0x18⟩ : Mask).renders = true by decide
  | blank p => contradiction

/-- Both units come to the second frame together. The full one renders there and is done with it a dot
before the other. -/
theorem odd_frame_is_shorter :
    let full := behind (initial .full .ntsc, .empty) lateRendering
    let blank := behind (initial .blank .ntsc, .empty) lateRendering
    full.1.beam.place = (1, 0, 0) ∧ blank.1.beam.place = (1, 0, 0) ∧
      (behind full (List.replicate (341 * 262 - 1) .tick)).1.beam.place = (2, 0, 0) ∧
      (behind blank (List.replicate (341 * 262) .tick)).1.beam.place = (2, 0, 0) := by
  have kept := units_keep_time .ntsc Board.empty .empty lateRendering
  have start := lateRendering_place
  have there := (kept.together (.inr lateRendering_whole)).1.symm.trans start
  have onTime := (initial_onTime .full .ntsc).behind (s := (initial .full .ntsc, Board.empty))
    lateRendering
  have rendering := lateRendering_renders
  have dark := renders_of_blank (behind_kind (initial .blank .ntsc, Board.empty) lateRendering)
  have shorter := kept.frame .full (.replicate (341 * 262 - 1) .tick)
  have longer := kept.frame .blank (.replicate (341 * 262) .tick)
  generalize behind (initial .full .ntsc, Board.empty) lateRendering = full at *
  generalize behind (initial .blank .ntsc, Board.empty) lateRendering = blank at *
  unfold Beam.place at start there
  simp only [Prod.mk.injEq] at start there
  obtain ⟨frame, line, dot⟩ := start
  obtain ⟨frame', line', dot'⟩ := there
  have short := onTime.shortened ⟨line, dot⟩ (by rw [onTime.odd, frame]; rfl) rendering
  have whole := not_shortened_of_dark dark (341 * 262)
  have first := shorter ⟨line, dot⟩ (powered_ticks _)
  have second := longer ⟨line', dot'⟩ (powered_ticks _)
  rw [dots_ticks, if_pos short, frame] at first
  rw [dots_ticks, if_neg whole, frame'] at second
  refine ⟨?_, ?_, first.mpr rfl, second.mpr rfl⟩
  · unfold Beam.place
    rw [frame, line, dot]
  · unfold Beam.place
    rw [frame', line', dot']

end PictureUnit

end Famiclone
