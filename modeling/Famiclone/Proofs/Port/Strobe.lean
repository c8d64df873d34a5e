import Famiclone.Port
import Mathlib.Tactic

/-!
# What a joypad reports

A program raises the strobe, lets it fall and then reads the buttons one by one. While the strobe is high
a joypad follows its buttons, so it reports those that are held when the strobe falls. A joypad that is
plugged in while the strobe is high is not told of it: it reports what is left in a fresh register, and
that are the held buttons by chance only.
-/
namespace Famiclone

/-- What happens at the two ports. -/
inductive PortEvent where
  /-- The program writes to the strobe, whose level is the lowest bit. -/
  | strobe (value : UInt8)
  | plug (port : Port) (kind : Option DeviceKind)
  | update (port : Port) (input : DeviceInput)
  | read (port : Port) (light : Point → Bool)

namespace PortEvent

def reads (port : Port) : PortEvent → Bool
  | read other _ => other = port
  | _ => false

/-- The event moves the strobe. -/
def Strobes : PortEvent → Prop
  | strobe _ => True
  | _ => False

/-- The event changes which device is in a port. -/
def Plugs (port : Port) : PortEvent → Prop
  | plug other _ => other = port
  | _ => False

/-- The event leaves the device in a port where it is, and the strobe low. -/
def Spares (port : Port) : PortEvent → Prop
  | strobe value => bit value 0 = false
  | plug other _ => other ≠ port
  | _ => True

theorem Spares.not_plugs {port : Port} {e : PortEvent} (h : e.Spares port) : ¬ e.Plugs port := by
  cases e <;> simp_all [Spares, Plugs]

/-- A port has been given something in a row of events, or it has not. -/
theorem last_plug (port : Port) (events : List PortEvent) :
    (∀ e ∈ events, ¬ e.Plugs port) ∨
      ∃ before kind after, events = before ++ plug port kind :: after ∧ ∀ e ∈ after, ¬ e.Plugs port := by
  induction events with
  | nil => simp
  | cons e events ih =>
    rcases ih with none | ⟨before, kind, after, rfl, none⟩
    · by_cases here : e.Plugs port
      · right
        cases e with
        | plug other kind =>
          obtain rfl : other = port := here
          exact ⟨[], kind, events, rfl, none⟩
        | _ => exact absurd here id
      · left
        simpa using ⟨here, none⟩
    · right
      exact ⟨e :: before, kind, after, rfl, none⟩

end PortEvent

/-! ## One joypad -/

namespace Joypad

variable {port : Port} {pad : Joypad} {e : PortEvent} {bits : List Bool}

/-- A joypad that has been asked to change; it takes changes of its buttons only. -/
def changed (pad : Joypad) : DeviceInput → Joypad
  | .buttons held => pad.setButtons held
  | .button changed pressed => pad.setButtons (pad.buttons.set changed pressed)
  | .pointer _ => pad
  | .trigger _ => pad

/-- Whatever it is asked for, a joypad is left as it is or given other buttons. -/
theorem changed_cases (pad : Joypad) (input : DeviceInput) :
    pad.changed input = pad ∨ ∃ held, pad.changed input = pad.setButtons held := by
  cases input with
  | buttons held => exact .inr ⟨held, rfl⟩
  | button changed pressed => exact .inr ⟨_, rfl⟩
  | pointer target => exact .inl rfl
  | trigger pulled => exact .inl rfl

/-- The joypad in a port behind an event that leaves it there. -/
def behind (port : Port) (pad : Joypad) : PortEvent → Joypad
  | .strobe value => pad.setStrobe (bit value 0)
  | .plug _ _ => pad
  | .update other input => if other = port then pad.changed input else pad
  | .read other _ => if other = port then pad.read.2 else pad

/-- The strobe is high, and the register holds the buttons. -/
structure Follows (pad : Joypad) : Prop where
  strobe : pad.strobe = true
  pending : pad.pending = pad.buttons.toList

/-- The strobe is low, and these bits are left in the register. -/
structure Shows (pad : Joypad) (bits : List Bool) : Prop where
  strobe : pad.strobe = false
  pending : pad.pending = bits

theorem follows_setStrobe (pad : Joypad) : (pad.setStrobe true).Follows := ⟨rfl, rfl⟩

theorem Follows.setButtons (h : pad.Follows) (held : Buttons) : (pad.setButtons held).Follows :=
  ⟨h.strobe, by simp [Joypad.setButtons, h.strobe]⟩

theorem Follows.falls (h : pad.Follows) : (pad.setStrobe false).Shows pad.buttons.toList :=
  ⟨rfl, h.pending⟩

theorem Follows.behind (h : pad.Follows) (steady : ¬ e.Strobes) : (pad.behind port e).Follows := by
  cases e with
  | strobe value => exact absurd trivial steady
  | plug other kind => exact h
  | update other input =>
    rw [Joypad.behind]
    split
    · rcases pad.changed_cases input with same | ⟨held, made⟩
      · rwa [same]
      · rw [made]
        exact h.setButtons held
    · exact h
  | read other light =>
    have unmoved : pad.read.2 = pad := by simp [read, h.strobe]
    simpa [Joypad.behind, unmoved] using h

theorem Shows.setButtons (h : pad.Shows bits) (held : Buttons) : (pad.setButtons held).Shows bits :=
  ⟨h.strobe, by simp [Joypad.setButtons, h.strobe, h.pending]⟩

theorem Shows.falls (h : pad.Shows bits) : (pad.setStrobe false).Shows bits := ⟨rfl, h.pending⟩

/-- A read takes one bit out; there is no end of ones behind the last. -/
theorem Shows.read (h : pad.Shows bits) : pad.read.1 = bits.getD 0 true ∧ pad.read.2.Shows bits.tail := by
  obtain ⟨low, rfl⟩ := h
  cases left : pad.pending with
  | nil => simpa [Joypad.read, low, left] using ⟨low, left⟩
  | cons b rest => simpa [Joypad.read, low, left] using ⟨rfl, rfl⟩

theorem Shows.behind (h : pad.Shows bits) (spared : e.Spares port) :
    (pad.behind port e).Shows (if e.reads port then bits.tail else bits) := by
  cases e with
  | strobe value =>
    rw [Joypad.behind, show bit value 0 = false from spared]
    exact h.falls
  | plug other kind => exact h
  | update other input =>
    rw [Joypad.behind]
    split
    · rcases pad.changed_cases input with same | ⟨held, made⟩
      · rwa [same]
      · rw [made]
        exact h.setButtons held
    · exact h
  | read other light =>
    by_cases same : other = port
    · simpa [Joypad.behind, PortEvent.reads, same] using h.read.2
    · simpa [Joypad.behind, PortEvent.reads, same] using h

end Joypad

/-! ## Both ports -/

namespace Ports

variable {p : Ports} {port : Port} {pad : Joypad} {e : PortEvent} {bits : List Bool}

def happen (p : Ports) : PortEvent → Ports
  | .strobe value => p.setStrobe (bit value 0)
  | .plug port kind => p.plug port kind
  | .update port input => (p.update port input).toOption.getD p
  | .read port light => (p.read port light).2

def behind (p : Ports) (events : List PortEvent) : Ports := events.foldl happen p

def answers (port : Port) (p : Ports) : List PortEvent → List UInt8
  | [] => []
  | .read other light :: later =>
    if other = port then (p.read port light).1 :: (p.happen (.read other light)).answers port later
    else (p.happen (.read other light)).answers port later
  | e :: later => (p.happen e).answers port later

def reads (port : Port) (events : List PortEvent) : Nat := events.countP (PortEvent.reads port)

@[simp] theorem behind_nil (p : Ports) : p.behind [] = p := rfl

@[simp] theorem behind_cons (p : Ports) (e : PortEvent) (events : List PortEvent) :
    p.behind (e :: events) = (p.happen e).behind events := rfl

@[simp] theorem behind_append (p : Ports) (first second : List PortEvent) :
    p.behind (first ++ second) = (p.behind first).behind second := List.foldl_append

@[simp] theorem reads_nil (port : Port) : reads port [] = 0 := rfl

theorem reads_cons (port : Port) (e : PortEvent) (events : List PortEvent) :
    reads port (e :: events) = reads port events + if e.reads port then 1 else 0 :=
  List.countP_cons

/-- A change reaches the joypad in its own port only. -/
theorem update_joypad_iff (other : Port) (input : DeviceInput) :
    ((p.update other input).toOption.getD p).get port = some (.joypad pad) ↔
      ∃ before, p.get port = some (.joypad before) ∧
        (if other = port then before.changed input else before) = pad := by
  cases held : p.get other with
  | none =>
    have refused : p.update other input = .error (.emptyPort other) := by simp [update, held]
    by_cases same : other = port
    · subst same
      simp [refused, held, Except.toOption]
    · simp [refused, same, Except.toOption]
  | some device =>
    by_cases same : other = port
    · subst same
      cases device <;> cases input <;>
        simp [update, held, Device.update, Functor.map, Except.map, Except.toOption, Joypad.changed]
    · cases device <;> cases input <;>
        simp [update, held, Device.update, Functor.map, Except.map, Except.toOption,
          get_set_of_ne _ _ same, same]

/-- A read takes a bit out of the joypad in its own port only. -/
theorem read_joypad_iff (other : Port) (light : Point → Bool) :
    (p.read other light).2.get port = some (.joypad pad) ↔
      ∃ before, p.get port = some (.joypad before) ∧
        (if other = port then before.read.2 else before) = pad := by
  by_cases same : other = port
  · subst same
    cases held : p.get other with
    | none => simp [read, held]
    | some device => cases device <;> simp [read, held]
  · cases held : p.get other with
    | none => simp [read, held, same]
    | some device => cases device <;> simp [read, held, get_set_of_ne _ _ same, same]

/-- The strobe reaches the joypads in both ports. -/
theorem setStrobe_joypad_iff (high : Bool) :
    (p.setStrobe high).get port = some (.joypad pad) ↔
      ∃ before, p.get port = some (.joypad before) ∧ before.setStrobe high = pad := by
  obtain ⟨one, two⟩ := p
  cases port with
  | one =>
    cases one with
    | none => simp [setStrobe, get]
    | some device => cases device <;> simp [setStrobe, get]
  | two =>
    cases two with
    | none => simp [setStrobe, get]
    | some device => cases device <;> simp [setStrobe, get]

/-- A joypad stays in its port, and what happens at the other port does not touch it. -/
theorem happen_joypad_iff (stays : ¬ e.Plugs port) :
    (p.happen e).get port = some (.joypad pad) ↔
      ∃ before, p.get port = some (.joypad before) ∧ before.behind port e = pad := by
  cases e with
  | strobe value => exact setStrobe_joypad_iff _
  | plug other kind =>
    have elsewhere : other ≠ port := stays
    simp [happen, plug, get_set_of_ne _ _ elsewhere, Joypad.behind]
  | update other input => exact update_joypad_iff other input
  | read other light => exact read_joypad_iff other light

/-! ## Rows of events -/

/-- While the strobe is high a joypad that stays in its port follows its buttons. -/
theorem follows_behind {events : List PortEvent}
    (start : ∀ pad, p.get port = some (.joypad pad) → pad.Follows)
    (steady : ∀ e ∈ events, ¬ e.Strobes) (stays : ∀ e ∈ events, ¬ e.Plugs port)
    (holds : (p.behind events).get port = some (.joypad pad)) : pad.Follows := by
  induction events generalizing p with
  | nil => exact start pad holds
  | cons e events ih =>
    rw [List.forall_mem_cons] at steady stays
    refine ih ?_ steady.2 stays.2 holds
    intro next there
    obtain ⟨before, here, rfl⟩ := (happen_joypad_iff stays.1).mp there
    exact (start before here).behind steady.1

/-- While the strobe is low each read of a joypad takes one bit out. -/
theorem shows_behind {events : List PortEvent}
    (start : ∀ pad, p.get port = some (.joypad pad) → pad.Shows bits)
    (spared : ∀ e ∈ events, e.Spares port)
    (holds : (p.behind events).get port = some (.joypad pad)) :
    pad.Shows (bits.drop (reads port events)) := by
  induction events generalizing p bits with
  | nil => exact start pad holds
  | cons e events ih =>
    rw [List.forall_mem_cons] at spared
    have first : ∀ next, (p.happen e).get port = some (.joypad next) →
        next.Shows (if e.reads port then bits.tail else bits) := by
      intro next there
      obtain ⟨before, here, rfl⟩ := (happen_joypad_iff spared.1.not_plugs).mp there
      exact (start before here).behind spared.1
    have last := ih first spared.2 holds
    by_cases isRead : e.reads port
    · simpa [isRead, reads_cons] using last
    · simpa [isRead, reads_cons] using last

/-- The bits of a joypad come out one by one, and ones behind them. -/
theorem answers_joypad {events : List PortEvent} (holds : p.get port = some (.joypad pad))
    (shows : pad.Shows bits) (spared : ∀ e ∈ events, e.Spares port) :
    p.answers port events =
      (List.range (reads port events)).map fun i => (bits.getD i true).toUInt8 := by
  induction events generalizing p pad bits with
  | nil => simp [answers]
  | cons e events ih =>
    rw [List.forall_mem_cons] at spared
    have there : (p.happen e).get port = some (.joypad (pad.behind port e)) :=
      (happen_joypad_iff spared.1.not_plugs).mpr ⟨pad, holds, rfl⟩
    have later := ih there (shows.behind spared.1) spared.2
    by_cases isRead : e.reads port
    · cases e with
      | read other light =>
        obtain rfl : other = port := by simpa [PortEvent.reads] using isRead
        have now : (p.read other light).1 = (bits.getD 0 true).toUInt8 := by
          simp [read, holds, shows.read.1]
        rw [if_pos isRead] at later
        simp [answers, now, later, reads_cons, isRead, List.range_succ_eq_map]
      | _ => simp [PortEvent.reads] at isRead
    · have silent : p.answers port (e :: events) = (p.happen e).answers port events := by
        cases e <;> simp_all [answers, PortEvent.reads]
      simp [silent, later, reads_cons, isRead]

/-! ## What is reported -/

/-- Whatever else happens, as long as the device stays in its port and the strobe stays low, the reads of
a port report the buttons of a set in their order, and then ones. -/
def Reports (p : Ports) (port : Port) (held : Buttons) : Prop :=
  ∀ later : List PortEvent, (∀ e ∈ later, e.Spares port) →
    p.answers port later =
      (List.range (reads port later)).map fun i => (if i < 8 then bit held.mask i else true).toUInt8

theorem reports_iff {held : Buttons} (holds : p.get port = some (.joypad pad)) (shows : pad.Shows bits) :
    p.Reports port held ↔ ∀ i, bits.getD i true = if i < 8 then bit held.mask i else true := by
  constructor
  · intro reports i
    let later : List PortEvent := List.replicate (i + 1) (.read port fun _ => false)
    have spared : ∀ e ∈ later, e.Spares port := by
      intro e mem
      rw [List.eq_of_mem_replicate mem]
      trivial
    have all : reads port later = i + 1 := by
      simp [later, reads, PortEvent.reads, List.countP_replicate]
    have told := reports later spared
    rw [answers_joypad holds shows spared, all, List.map_inj_left] at told
    have here := told i (by simp)
    revert here
    cases bits.getD i true <;> cases (if i < 8 then bit held.mask i else true) <;> decide
  · intro same later spared
    rw [answers_joypad holds shows spared]
    simp only [same]

/-- The buttons in the order in which they are read, with ones behind them. -/
theorem getD_toList (held : Buttons) (i : Nat) :
    held.toList.getD i true = if i < 8 then bit held.mask i else true := by
  rw [Buttons.toList, List.getD_eq_getElem?_getD, List.getElem?_map]
  split
  next inside => simp [List.getElem?_range inside]
  next behind => simp [List.getElem?_eq_none (l := List.range 8) (by simpa using behind)]

/-- A fresh register, of which some bits have been read. -/
theorem getD_fresh (n i : Nat) : (Buttons.none.toList.drop n).getD i true = decide (8 ≤ i + n) := by
  have rest : (Buttons.none.toList.drop n).getD i true = Buttons.none.toList.getD (i + n) true := by
    simp [List.getD_eq_getElem?_getD, Nat.add_comm]
  rw [rest, getD_toList]
  split
  next inside => simp [Buttons.none, bit, inside]
  next behind => simpa using behind

section Fall

variable {high low : UInt8} {between : List PortEvent}

/-- A joypad that has been in its port since the strobe was raised shows its buttons when it falls. -/
theorem shows_kept (rises : bit high 0 = true) (falls : bit low 0 = false)
    (steady : ∀ e ∈ between, ¬ e.Strobes) (stays : ∀ e ∈ between, ¬ e.Plugs port)
    (holds : (p.behind (.strobe high :: between ++ [.strobe low])).get port = some (.joypad pad)) :
    pad.Shows pad.buttons.toList := by
  have follows : ∀ pad, (p.happen (.strobe high)).get port = some (.joypad pad) → pad.Follows := by
    intro pad there
    obtain ⟨before, -, rfl⟩ := (happen_joypad_iff id).mp there
    rw [Joypad.behind, rises]
    exact before.follows_setStrobe
  obtain ⟨last, atLast, rfl⟩ : ∃ last, ((p.happen (.strobe high)).behind between).get port =
      some (.joypad last) ∧ last.setStrobe false = pad := by
    simpa [happen, falls, setStrobe_joypad_iff] using holds
  exact (follows_behind follows steady stays atLast).falls

/-- A joypad that has been plugged in since shows what is left in a fresh register. -/
theorem shows_fresh {before after : List PortEvent} {kind : Option DeviceKind}
    (falls : bit low 0 = false) (steady : ∀ e ∈ after, ¬ e.Strobes)
    (stays : ∀ e ∈ after, ¬ e.Plugs port)
    (holds : (p.behind (before ++ .plug port kind :: after ++ [.strobe low])).get port =
      some (.joypad pad)) :
    pad.Shows (Buttons.none.toList.drop (reads port after)) := by
  have start : ∀ pad, ((p.behind before).plug port kind).get port = some (.joypad pad) →
      pad.Shows Buttons.none.toList := by
    intro pad there
    simp only [plug, get_set, Option.map_eq_some_iff] at there
    obtain ⟨kind, -, made⟩ := there
    cases kind with
    | joypad =>
      cases made
      exact ⟨rfl, rfl⟩
    | zapper => cases made
  have spared : ∀ e ∈ after ++ [.strobe low], e.Spares port := by
    intro e mem
    rcases List.mem_append.mp mem with mem | mem
    · have still := steady e mem
      have stays := stays e mem
      cases e <;> simp_all [PortEvent.Spares, PortEvent.Strobes, PortEvent.Plugs]
    · obtain rfl := List.mem_singleton.mp mem
      exact falls
  simpa [reads, PortEvent.reads] using shows_behind start spared (by simpa [happen] using holds)

end Fall

/-- A joypad that is in its port when the strobe falls reports the buttons that are held then, unless it
has been plugged in while the strobe was high. Then it reports what is left in a fresh register, which is
the same only if the bits that have not been read are zeros and the others ones. -/
theorem reports_held_iff (p : Ports) (port : Port) (pad : Joypad) (high low : UInt8)
    (between : List PortEvent) (rises : bit high 0 = true) (falls : bit low 0 = false)
    (steady : ∀ e ∈ between, ¬ e.Strobes)
    (holds : (p.behind (.strobe high :: between ++ [.strobe low])).get port = some (.joypad pad)) :
    (p.behind (.strobe high :: between ++ [.strobe low])).Reports port pad.buttons ↔
      ∀ before kind after, between = before ++ .plug port kind :: after →
        (∀ e ∈ after, ¬ e.Plugs port) →
        ∀ i < 8, bit pad.buttons.mask i = decide (8 ≤ i + reads port after) := by
  have plugged (before kind after) (split : between = before ++ .plug port kind :: after)
      (stays : ∀ e ∈ after, ¬ e.Plugs port) :
      (p.behind (.strobe high :: between ++ [.strobe low])).Reports port pad.buttons ↔
        ∀ i < 8, bit pad.buttons.mask i = decide (8 ≤ i + reads port after) := by
    have shows : pad.Shows (Buttons.none.toList.drop (reads port after)) := by
      subst split
      have holds : (p.behind ((.strobe high :: before) ++ .plug port kind :: after ++
        [.strobe low])).get port = some (.joypad pad) := holds
      exact shows_fresh falls (fun e mem => steady e (by simp [mem])) stays holds
    rw [reports_iff holds shows]
    refine forall_congr' fun i => ?_
    rw [getD_fresh]
    by_cases inside : i < 8
    · simp [inside, eq_comm]
    · simp [inside]
      omega
  rcases PortEvent.last_plug port between with none | ⟨before, kind, after, split, stays⟩
  · constructor
    · rintro - before kind after rfl
      exact absurd rfl (none (.plug port kind) (by simp))
    · intro _
      rw [reports_iff holds (shows_kept rises falls steady none holds)]
      exact getD_toList pad.buttons
  · constructor
    · intro reports before kind after split stays
      exact (plugged before kind after split stays).mp reports
    · intro chance
      exact (plugged before kind after split stays).mpr (chance before kind after split stays)

/-- Button A is held on a joypad that has been plugged in while the strobe was high, and is not
reported. -/
theorem not_reports_plugged :
    let pad : Joypad := ⟨⟨1⟩, false, Buttons.none.toList⟩
    let between : List PortEvent := [.plug .one (some .joypad), .update .one (.buttons ⟨1⟩)]
    bit 1 0 = true ∧ bit 0 0 = false ∧ (∀ e ∈ between, ¬ e.Strobes) ∧
      (empty.behind (.strobe 1 :: between ++ [.strobe 0])).get .one = some (.joypad pad) ∧
      ¬ (empty.behind (.strobe 1 :: between ++ [.strobe 0])).Reports .one pad.buttons := by
  intro pad between
  have steady : ∀ e ∈ between, ¬ e.Strobes := by simp [between, PortEvent.Strobes]
  have holds : (empty.behind (.strobe 1 :: between ++ [.strobe 0])).get .one = some (.joypad pad) := by
    decide
  refine ⟨by decide, by decide, steady, holds, ?_⟩
  rw [reports_held_iff empty .one pad 1 0 between (by decide) (by decide) steady holds]
  intro chance
  have first := chance [] (some .joypad) [.update .one (.buttons ⟨1⟩)] rfl
    (by simp [PortEvent.Plugs]) 0 (by decide)
  simp [pad, bit, reads, PortEvent.reads] at first

end Ports

end Famiclone
