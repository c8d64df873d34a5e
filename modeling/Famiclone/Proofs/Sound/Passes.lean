import Famiclone.Proofs.Sound.Past
import Famiclone.Proofs.Sound.Supply

/-!
# The passes of a sample

The sample channel reads its bytes in passes. A pass has the address and the length that the registers had
when it began, and its bytes are asked for one by one; a byte comes only when one is wanted, and an
interrupt at most with the last one. The channel itself keeps the next address and the number of bytes that
are left. A past tells the same from the beginning of the pass and the number of bytes that have come.
-/
namespace Famiclone

/-- The registers of the channel. -/
theorem Delta.address_cases {address : UInt16} (own : 0x4010 ≤ address ∧ address ≤ 0x4013) :
    address = 0x4010 ∨ address = 0x4011 ∨ address = 0x4012 ∨ address = 0x4013 := by
  have low : 0x4010 ≤ address.toNat := own.1
  have high : address.toNat ≤ 0x4013 := own.2
  simp only [← UInt16.toNat_inj]
  show address.toNat = 0x4010 ∨ address.toNat = 0x4011 ∨ address.toNat = 0x4012 ∨
    address.toNat = 0x4013
  omega

namespace Sound

/-- A pass through the bytes of a sample. -/
structure Pass where
  /-- Of its first byte. -/
  address : UInt16
  /-- In bytes. -/
  length : Nat
  /-- The bytes that have come. -/
  taken : Nat

def Pass.next (p : Pass) : UInt16 := Delta.next^[p.taken] p.address

/-- What takes the rest of a pass away. -/
inductive Stops : Event → Prop where
  | disable {value : UInt8} (clear : bit value 4 = false) : Stops (.write 0x4015 value)
  | reset : Stops .reset
  | powerOn : Stops .powerOn

/-- What begins a pass, unless one is under way. -/
inductive Enables : Event → Prop where
  | enable {value : UInt8} (set : bit value 4 = true) : Enables (.write 0x4015 value)

def Event.isDelivery : Event → Bool
  | deliver _ => true
  | _ => false

namespace Past

/-! ## The registers and the pass under way -/

/-- The registers that passes depend on. -/
def passRegisters : List UInt16 := [0x4010, 0x4012, 0x4013]

def sampleAddress (past : Past) : UInt16 := UInt16.ofNat (0xC000 + (past.last 0x4012).toNat * 64)

def sampleLength (past : Past) : Nat := (past.last 0x4013).toNat * 16 + 1

/-- Whether a pass follows a pass. -/
def looping (past : Past) : Bool := bit (past.last 0x4010) 6

def irqEnabled (past : Past) : Bool := bit (past.last 0x4010) 7

/-- A pass that begins, as the registers have it. -/
def newPass (past : Past) : Pass := ⟨past.sampleAddress, past.sampleLength, 0⟩

/-- The pass that a byte leaves: the same one while bytes are to come, and behind the last one a new one or
none. -/
def passBehind (past : Past) (pass : Pass) : Option Pass :=
  if pass.taken + 1 < pass.length then some { pass with taken := pass.taken + 1 }
  else if past.looping then some past.newPass
  else none

/-- The pass that is under way. -/
def pass? : Past → Option Pass
  | [] => none
  | .powerOn :: _ => none
  | .reset :: _ => none
  | .write address value :: before =>
    if address = 0x4015 then
      if bit value 4 then (pass? before).or (some (newPass before)) else none
    else pass? before
  | .deliver _ :: before => (pass? before).bind (passBehind before)
  | _ :: before => pass? before

def deliveries (past : Past) : Nat := past.countP Event.isDelivery

/-- A pass keeps the address and the length that it began with until all of its bytes have come, whatever
the registers are set to. -/
theorem pass?_of_unstopped {before later : Past} {address : UInt16} {length : Nat}
    (begins : before.pass? = some ⟨address, length, 0⟩) (goes : ∀ event ∈ later, ¬ Stops event)
    (more : deliveries later < length) :
    Past.pass? (later ++ before) = some ⟨address, length, deliveries later⟩ := by
  induction later with
  | nil => exact begins
  | cons event later ih =>
    have stays : ¬ Stops event := goes event List.mem_cons_self
    have count : deliveries (event :: later) = deliveries later + event.isDelivery.toNat := by
      unfold deliveries
      rw [List.countP_cons]
      cases event.isDelivery <;> rfl
    have ih := ih (fun other member => goes other (List.mem_cons_of_mem _ member)) (by omega)
    rw [List.cons_append, count]
    cases event with
    | powerOn => exact absurd .powerOn stays
    | reset => exact absurd .reset stays
    | deliver value =>
      rw [count] at more
      rw [pass?, ih]
      exact if_pos more
    | write register value =>
      rw [pass?]
      split_ifs with status set
      · rw [ih]
        rfl
      · subst status
        exact absurd (.disable (Bool.not_eq_true _ ▸ set)) stays
      · exact ih
    | tick | readStatus | takeSamples | setSettings => exact ih

/-- Without a pass none begins before the channel is enabled. -/
theorem pass?_of_none {before later : Past} (idle : before.pass? = none)
    (rests : ∀ event ∈ later, ¬ Enables event) : Past.pass? (later ++ before) = none := by
  induction later with
  | nil => exact idle
  | cons event later ih =>
    have ih := ih fun other member => rests other (List.mem_cons_of_mem _ member)
    rw [List.cons_append]
    cases event with
    | powerOn | reset => rfl
    | deliver value =>
      rw [pass?, ih]
      rfl
    | write register value =>
      rw [pass?]
      split_ifs with status set
      · subst status
        exact absurd (.enable set) (rests _ List.mem_cons_self)
      · rfl
      · exact ih
    | tick | readStatus | takeSamples | setSettings => exact ih

end Past

/-! ## The reader of a unit with a past -/

/-- A past in which bytes were handed over only when one was wanted. -/
def Served (s : Sound) : Past → Prop
  | [] => True
  | event :: before =>
    (event.isDelivery → (s.aged before).chip.delta.request.isSome) ∧ Served s before

/-- The reader stands in a pass, or has none. -/
def StandsIn (c : Delta) : Option Pass → Prop
  | none => c.remaining = 0
  | some pass =>
    c.address = pass.next ∧ pass.taken < pass.length ∧ c.remaining = pass.length - pass.taken

/-- The reader stands where the past has brought it. -/
structure Reading (past : Past) (c : Delta) : Prop where
  sampleAddress : c.sampleAddress = past.sampleAddress
  sampleLength : c.sampleLength = past.sampleLength
  looping : c.looping = past.looping
  irqEnabled : c.irqEnabled = past.irqEnabled
  pass : StandsIn c past.pass?

namespace Reading

variable {past : Past} {c : Delta}

theorem remaining_of_none (h : Reading past c) (none : past.pass? = none) : c.remaining = 0 := by
  have stands := h.pass
  rwa [none] at stands

theorem stands (h : Reading past c) {pass : Pass} (under : past.pass? = some pass) :
    c.address = pass.next ∧ pass.taken < pass.length ∧ c.remaining = pass.length - pass.taken := by
  have stands := h.pass
  rwa [under] at stands

/-- A pass that begins. -/
theorem newPass (h : Reading past c) : StandsIn c.restart (some past.newPass) :=
  ⟨h.sampleAddress, Nat.succ_pos _, h.sampleLength⟩

theorem initial (region : Region) {past : Past} (fresh : ∀ register, past.last register = 0)
    (none : past.pass? = none) : Reading past (.initial region) := by
  refine ⟨?_, ?_, ?_, ?_, ?_⟩
  · rw [Past.sampleAddress, fresh]
    rfl
  · rw [Past.sampleLength, fresh]
    rfl
  · rw [Past.looping, fresh]
    rfl
  · rw [Past.irqEnabled, fresh]
    rfl
  · rw [none]
    rfl

/-- What the registers and the pass are not changed by. -/
theorem other (h : Reading past c) (later : Past)
    (registers : ∀ r ∈ Past.passRegisters, later.last r = past.last r)
    (pass : later.pass? = past.pass?) {d : Delta} (sampleAddress : d.sampleAddress = c.sampleAddress)
    (sampleLength : d.sampleLength = c.sampleLength) (looping : d.looping = c.looping)
    (irqEnabled : d.irqEnabled = c.irqEnabled) (address : d.address = c.address)
    (remaining : d.remaining = c.remaining) : Reading later d := by
  have control : later.last 0x4010 = past.last 0x4010 := registers _ (by decide)
  have start : later.last 0x4012 = past.last 0x4012 := registers _ (by decide)
  have length : later.last 0x4013 = past.last 0x4013 := registers _ (by decide)
  refine ⟨?_, ?_, ?_, ?_, ?_⟩
  · rw [sampleAddress, h.sampleAddress, Past.sampleAddress, Past.sampleAddress, start]
  · rw [sampleLength, h.sampleLength, Past.sampleLength, Past.sampleLength, length]
  · rw [looping, h.looping, Past.looping, Past.looping, control]
  · rw [irqEnabled, h.irqEnabled, Past.irqEnabled, Past.irqEnabled, control]
  · have stands := h.pass
    rw [pass]
    unfold StandsIn at *
    rwa [address, remaining]

/-- The output unit leaves the reader alone. -/
theorem tick (h : Reading past c) : Reading (.tick :: past) c.clockTimer := by
  obtain ⟨_, _, _, _, _, _, same⟩ := c.clockTimer_eq
  rw [same]
  exact h.other (.tick :: past) (fun _ _ => rfl) rfl rfl rfl rfl rfl rfl rfl

/-- A write to the status stops a pass, begins one, or lets it go on. -/
theorem enable (h : Reading past c) (value : UInt8) :
    Reading (.write 0x4015 value :: past) (c.setEnabled (bit value 4)) := by
  have pass : Past.pass? (.write 0x4015 value :: past) =
      if bit value 4 then past.pass?.or (some past.newPass) else none := rfl
  cases set : bit value 4 with
  | false =>
    rw [set, if_neg Bool.false_ne_true] at pass
    refine ⟨h.sampleAddress, h.sampleLength, h.looping, h.irqEnabled, ?_⟩
    rw [pass]
    rfl
  | true =>
    rw [set, if_pos rfl] at pass
    cases under : past.pass? with
    | none =>
      have begins : c.setEnabled true = c.restart := if_pos (h.remaining_of_none under)
      rw [begins]
      refine ⟨h.sampleAddress, h.sampleLength, h.looping, h.irqEnabled, ?_⟩
      rw [pass, under]
      exact h.newPass
    | some running =>
      have stands := h.stands under
      have stays : c.setEnabled true = c := if_neg (show ¬ c.remaining = 0 by omega)
      rw [stays]
      refine ⟨h.sampleAddress, h.sampleLength, h.looping, h.irqEnabled, ?_⟩
      rw [pass, under]
      exact stands

/-- A write to a register changes nothing but what the register is for. -/
theorem write (h : Reading past c) (address : UInt16) (value : UInt8) :
    Reading (.write address value :: past) (c.writeAt address value) := by
  unfold Delta.writeAt
  split_ifs with own status
  · rcases Delta.address_cases own with rfl | rfl | rfl | rfl
    · exact ⟨h.sampleAddress, h.sampleLength, rfl, rfl, h.pass⟩
    · exact ⟨h.sampleAddress, h.sampleLength, h.looping, h.irqEnabled, h.pass⟩
    · exact ⟨rfl, h.sampleLength, h.looping, h.irqEnabled, h.pass⟩
    · exact ⟨h.sampleAddress, rfl, h.looping, h.irqEnabled, h.pass⟩
  · subst status
    have begun := h.enable value
    exact ⟨begun.sampleAddress, begun.sampleLength, begun.looping, begun.irqEnabled, begun.pass⟩
  · refine h.other (.write address value :: past) (fun r inside => if_neg ?_) (if_neg status) rfl rfl
      rfl rfl rfl rfl
    rintro rfl
    simp only [Past.passRegisters, List.mem_cons, List.not_mem_nil, or_false] at inside
    rcases inside with rfl | rfl | rfl <;> exact own (by decide)

/-- A byte that is wanted belongs to a pass. -/
theorem pass_of_request (h : Reading past c) (wanted : c.request.isSome) :
    ∃ pass, past.pass? = some pass ∧ c.request = some pass.next := by
  have parts : c.buffer.isNone ∧ 0 < c.remaining := by
    by_contra none
    rw [Delta.request, if_neg none] at wanted
    contradiction
  cases under : past.pass? with
  | none =>
    have left := h.remaining_of_none under
    omega
  | some pass =>
    refine ⟨pass, rfl, ?_⟩
    rw [Delta.request, if_pos parts, (h.stands under).1]

/-- What is wanted, as long as the buffer is empty, is the next byte of the pass. -/
theorem request_eq (h : Reading past c) :
    c.request = if c.buffer.isNone then past.pass?.map Pass.next else none := by
  unfold Delta.request
  cases under : past.pass? with
  | none =>
    rw [h.remaining_of_none under]
    simp
  | some pass =>
    obtain ⟨address, more, left⟩ := h.stands under
    have pos : 0 < c.remaining := by omega
    simp [pos, address]

theorem pass?_deliver {pass : Pass} (under : past.pass? = some pass) (value : UInt8) :
    Past.pass? (.deliver value :: past) = past.passBehind pass := by
  rw [Past.pass?, under]
  rfl

/-- Within a pass a byte brings it on. -/
theorem deliver_inside (h : Reading past c) {pass : Pass} (under : past.pass? = some pass)
    (inside : pass.taken + 1 < pass.length) (value : UInt8) :
    Reading (.deliver value :: past) (c.fill value) ∧ (c.fill value).irqFlag = c.irqFlag := by
  obtain ⟨address, -, left⟩ := h.stands under
  have behind := pass?_deliver under value
  have goes : ¬ c.remaining - 1 = 0 := by omega
  rw [Past.passBehind, if_pos inside] at behind
  unfold Delta.fill
  dsimp only
  rw [if_neg goes]
  refine ⟨⟨h.sampleAddress, h.sampleLength, h.looping, h.irqEnabled, ?_⟩, rfl⟩
  rw [behind]
  refine ⟨?_, inside, ?_⟩
  · show Delta.next c.address = Delta.next^[pass.taken + 1] pass.address
    rw [address, Function.iterate_succ_apply']
    rfl
  · show c.remaining - 1 = pass.length - (pass.taken + 1)
    omega

/-- The last byte of a pass begins the next one, or ends it and asks for the interrupt. -/
theorem deliver_last (h : Reading past c) {pass : Pass} (under : past.pass? = some pass)
    (last : pass.taken + 1 = pass.length) (value : UInt8) :
    Reading (.deliver value :: past) (c.fill value) ∧
      (c.fill value).irqFlag = (c.irqFlag || (!past.looping && past.irqEnabled)) := by
  obtain ⟨-, -, left⟩ := h.stands under
  have behind := pass?_deliver under value
  have ended : c.remaining - 1 = 0 := by omega
  have stops : ¬ pass.taken + 1 < pass.length := by omega
  rw [Past.passBehind, if_neg stops, ← h.looping] at behind
  unfold Delta.fill
  dsimp only
  rw [if_pos ended, ← h.looping, ← h.irqEnabled]
  cases loops : c.looping with
  | true =>
    rw [loops, if_pos rfl] at behind
    refine ⟨⟨h.sampleAddress, h.sampleLength, loops.symm.trans h.looping, h.irqEnabled, ?_⟩, ?_⟩
    · rw [behind]
      exact h.newPass
    · exact (Bool.or_false _).symm
  | false =>
    rw [loops, if_neg Bool.false_ne_true] at behind
    refine ⟨⟨h.sampleAddress, h.sampleLength, loops.symm.trans h.looping, h.irqEnabled, ?_⟩, rfl⟩
    rw [behind]
    exact ended

/-- A byte brings a pass on, or ends it. -/
theorem deliver (h : Reading past c) {pass : Pass} (under : past.pass? = some pass) (value : UInt8) :
    Reading (.deliver value :: past) (c.fill value) ∧
      (c.fill value).irqFlag = (c.irqFlag ||
        (decide (pass.taken + 1 = pass.length) && !past.looping && past.irqEnabled)) := by
  obtain ⟨-, more, -⟩ := h.stands under
  by_cases last : pass.taken + 1 = pass.length
  · rw [decide_eq_true last, Bool.true_and]
    exact h.deliver_last under last value
  · rw [decide_eq_false last, Bool.false_and, Bool.false_and, Bool.or_false]
    exact h.deliver_inside under (by omega) value

end Reading

theorem aged_reading (region : Region) (settings : AudioSettings) {past : Past}
    (served : (initial region settings).Served past) :
    Reading past ((initial region settings).aged past).chip.delta := by
  induction past with
  | nil => exact .initial region (fun _ => rfl) rfl
  | cons event before ih =>
    have ih := ih served.2
    have wanted := served.1
    rw [aged_cons]
    generalize (initial region settings).aged before = s at ih wanted ⊢
    cases event with
    | tick =>
      show Reading _ s.tick.chip.delta
      rw [s.tick_delta]
      exact ih.tick
    | write address value =>
      show Reading _ (s.chip.write address value).delta
      rw [s.chip.write_delta]
      exact ih.write address value
    | deliver value =>
      obtain ⟨pass, under, -⟩ := ih.pass_of_request (wanted rfl)
      exact (ih.deliver under value).1
    | reset =>
      exact ⟨ih.sampleAddress, ih.sampleLength, ih.looping, ih.irqEnabled, rfl⟩
    | powerOn => exact .initial s.region (fun _ => rfl) rfl
    | readStatus | takeSamples | setSettings =>
      exact ih.other (_ :: before) (fun _ _ => rfl) rfl rfl rfl rfl rfl rfl rfl

/-! ## The bytes of a pass -/

/-- The addresses of the bytes that were handed over, the first one first. -/
def answered (s : Sound) : Past → List UInt16
  | [] => []
  | event :: before => s.answered before ++
      if event.isDelivery then (s.aged before).chip.delta.request.toList else []

/-- The bytes of a pass are those at its address and the next ones, in order. -/
theorem answered_of_unstopped (region : Region) (settings : AudioSettings) {before later : Past}
    (served : (initial region settings).Served (later ++ before)) {address : UInt16} {length : Nat}
    (begins : before.pass? = some ⟨address, length, 0⟩) (goes : ∀ event ∈ later, ¬ Stops event)
    (few : Past.deliveries later ≤ length) :
    ((initial region settings).aged before).answered later =
      (List.range (Past.deliveries later)).map (Delta.next^[·] address) := by
  induction later with
  | nil => rfl
  | cons event later ih =>
    have goes' : ∀ event ∈ later, ¬ Stops event :=
      fun other member => goes other (List.mem_cons_of_mem _ member)
    cases delivers : event.isDelivery with
    | false =>
      have count : Past.deliveries (event :: later) = Past.deliveries later :=
        List.countP_cons_of_neg (by rw [delivers]; exact Bool.false_ne_true)
      rw [answered, delivers, count]
      rw [count] at few
      exact (List.append_nil _).trans (ih served.2 goes' few)
    | true =>
      have count : Past.deliveries (event :: later) = Past.deliveries later + 1 :=
        List.countP_cons_of_pos delivers
      rw [count] at few ⊢
      have under := Past.pass?_of_unstopped begins goes' (Nat.lt_of_succ_le few)
      have reading : Reading (later ++ before) _ := aged_reading region settings served.2
      obtain ⟨pass, found, asked⟩ := reading.pass_of_request (served.1 delivers)
      obtain rfl := Option.some.inj (found.symm.trans under)
      rw [aged_append] at asked
      rw [answered, delivers, if_pos rfl, asked, ih served.2 goes' (Nat.le_of_succ_le few),
        List.range_succ, List.map_append]
      rfl

end Sound

end Famiclone
