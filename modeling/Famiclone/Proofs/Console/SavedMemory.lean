import Famiclone.Proofs.Console.Slot
import Famiclone.Proofs.Histories
import Famiclone.Storage.Memory
import Mathlib.Logic.Function.Basic

/-!
# Saved memory comes back

Consoles share a storage in memory. Their hosts play on them in any way, exchange their cartridges, save
their work RAM and fill it again. Whatever they do, under the identifier of a cartridge there is what was
saved last under that identifier, and nothing that any console has saved under another.
-/
namespace Famiclone

/-! ## One console and its storage -/

/-- Work RAM with saved bytes over its start, as many as there are of both. -/
def Storage.front (ram saved : Array UInt8) : Array UInt8 :=
  (copyFront ram.toVector saved (min saved.size ram.size)).toArray

theorem Storage.getElem?_front (ram saved : Array UInt8) (place : Nat) :
    (front ram saved)[place]? =
      if place < min saved.size ram.size then saved[place]? else ram[place]? :=
  getElem?_copyFront ram.toVector saved place

namespace Console

/-- What a console saves under an identifier: its work RAM, if the cartridge has that identifier and the
RAM a battery. -/
def saves? (c : Console) (id : String) : Option (Array UInt8) :=
  if c.label.map Label.id = some id then c.batteryRam? else none

/-- A console with other contents of its work RAM. -/
def withWork (c : Console) (ram : Array UInt8) : Console :=
  c.mapBus fun m => { m with board := m.board.mapWorkRam fun _ => ram }

/-- A cartridge in the slot whose work RAM has a battery. -/
structure Battery (c : Console) (label : Label) (ram : Array UInt8) : Prop where
  label : c.label = some label
  keeps : c.bus.board.Keeps ram

variable {c : Console} {label : Label} {ram : Array UInt8} {s : MemoryStorage}

/-- What the header declares of the work RAM and its battery is so. -/
theorem Labelled.battery_iff (h : c.Labelled) (labelled : c.label = some label) :
    (∃ ram, c.Battery label ram) ↔ label.header.hasBattery = true ∧ label.header.workRamSize ≠ 0 := by
  obtain ⟨m, found, size, battery⟩ := h.workRam labelled
  rw [← size, ← battery, Ne, Array.size_eq_zero_iff]
  constructor
  · rintro ⟨ram, -, kept, held, powered, rfl, some⟩
    rw [Option.some_inj.mp (found.symm.trans held)]
    exact ⟨powered, some⟩
  · rintro ⟨powered, some⟩
    exact ⟨m.workRam, labelled, m, found, powered, rfl, some⟩

theorem Labelled.battery_size (h : c.Labelled) (battery : c.Battery label ram) :
    ram.size = label.header.workRamSize := by
  obtain ⟨m, found, size, -⟩ := h.workRam battery.label
  obtain ⟨kept, held, -, rfl, -⟩ := battery.keeps
  rw [← Option.some_inj.mp (found.symm.trans held), size]

namespace Battery

variable (h : c.Battery label ram)
include h

theorem batteryRam : c.batteryRam? = some ram := batteryRam?_eq_some_iff.mpr h.keeps

theorem withWork {filled : Array UInt8} (size : filled.size = ram.size) :
    (c.withWork filled).Battery label filled :=
  ⟨h.label, h.keeps.mapWorkRam size⟩

theorem withWork_self : c.withWork ram = c := by
  have same : c.machine.bus.board.mapWorkRam (fun _ => ram) = c.machine.bus.board :=
    h.keeps.mapWorkRam_self
  unfold Console.withWork mapBus
  dsimp only
  rw [same]

theorem withWork_withWork (filled : Array UInt8) : (c.withWork filled).withWork ram = c := by
  have back := Board.mapWorkRam_mapWorkRam c.machine.bus.board filled ram
  refine Eq.trans ?_ h.withWork_self
  unfold Console.withWork mapBus
  dsimp only
  rw [back]

theorem saves? : c.saves? label.id = some ram := by
  unfold Console.saves?
  rw [h.label, Option.map_some, if_pos rfl, h.batteryRam]

theorem save : c.save s = (.ok true, { s with ram := s.ram.put label.id ram }) := by
  unfold Console.save
  rw [h.label, h.batteryRam]
  rfl

theorem restore_of_some {saved : Array UInt8} (found : s.ram.get? label.id = some saved) :
    c.restore s = .ok (true, c.withWork (Storage.front ram saved)) := by
  unfold Console.restore
  rw [h.label, h.batteryRam]
  unfold Storage.load instStorageMemoryStorage MemoryStorage.load
  dsimp only
  rw [found]
  rfl

theorem restore_of_none (found : s.ram.get? label.id = none) : c.restore s = .ok (false, c) := by
  unfold Console.restore
  rw [h.label, h.batteryRam]
  unfold Storage.load instStorageMemoryStorage MemoryStorage.load
  dsimp only
  rw [found]
  exact congrArg (fun d => Except.ok (false, d)) h.withWork_self

end Battery

/-- A save changes what is stored under the identifier of the cartridge, and nothing else. -/
theorem save_get? (c : Console) (s : MemoryStorage) (id : String) :
    (c.save s).2.ram.get? id = (c.saves? id).or (s.ram.get? id) := by
  unfold Console.save Console.saves?
  cases labelled : c.label with
  | none => rfl
  | some label =>
    cases battery : c.batteryRam? with
    | none => simp
    | some ram =>
      show (s.ram.put label.id ram).get? id = _
      rw [Blobs.get?_put]
      by_cases same : label.id = id <;> simp [same]

/-- Without a battery, or without work RAM, nothing is saved and nothing is filled. -/
theorem unbacked (labelled : c.label = some label) (none : ∀ ram, ¬ c.bus.board.Keeps ram) :
    c.save s = (.ok false, s) ∧ c.restore s = .ok (false, c) := by
  have nothing : c.batteryRam? = .none :=
    Option.eq_none_iff_forall_ne_some.mpr fun ram held => none ram (batteryRam?_eq_some_iff.mp held)
  unfold Console.save Console.restore
  rw [labelled, nothing]
  exact ⟨rfl, rfl⟩

/-- Only what is stored under the identifier of its cartridge matters to a console. -/
theorem restore_congr {t : MemoryStorage}
    (same : ∀ label, c.label = some label → t.ram.get? label.id = s.ram.get? label.id) :
    c.restore t = c.restore s := by
  unfold Console.restore
  cases labelled : c.label with
  | none => rfl
  | some label =>
    cases c.batteryRam? with
    | none => rfl
    | some ram =>
      unfold Storage.load instStorageMemoryStorage MemoryStorage.load
      dsimp only
      rw [same label labelled]

end Console

/-! ## Consoles that share a storage -/

/-- Consoles and the storage that they share. -/
structure Sharing (ι : Type) where
  console : ι → Console
  storage : MemoryStorage

/-- Something that is done with one of the consoles. -/
inductive Deed (ι : Type) where
  /-- Its host calls it in any way, also to fill it from a storage that is not shared. -/
  | call (i : ι) (call : Call MemoryStorage)
  /-- Its work RAM is saved. -/
  | save (i : ι)
  /-- Its work RAM is filled. -/
  | restore (i : ι)

namespace Sharing

variable {ι : Type} [DecidableEq ι]

/-- Consoles in any state, and a storage that holds nothing. -/
def start (console : ι → Console) : Sharing ι := ⟨console, .empty⟩

def next (w : Sharing ι) : Deed ι → Sharing ι
  | .call i call => { w with console := Function.update w.console i ((w.console i).perform call) }
  | .save i => { w with storage := ((w.console i).save w.storage).2 }
  | .restore i =>
    { w with console := Function.update w.console i ((w.console i).perform (.restore w.storage)) }

def behind (w : Sharing ι) (deeds : List (Deed ι)) : Sharing ι := deeds.foldl next w

/-- What a deed saves under an identifier. -/
def saves? (id : String) (w : Sharing ι) : Deed ι → Option (Array UInt8)
  | .save i => (w.console i).saves? id
  | _ => none

/-- What a row of deeds saves under an identifier last. -/
def lastSave? (id : String) (w : Sharing ι) (deeds : List (Deed ι)) : Option (Array UInt8) :=
  History.last? next (saves? id) w deeds

/-- Something is saved under an identifier if some console saves it there. -/
theorem lastSave?_isSome_iff (id : String) (w : Sharing ι) (deeds : List (Deed ι)) :
    (lastSave? id w deeds).isSome = true ↔ ∃ before j after, deeds = before ++ .save j :: after ∧
      (((w.behind before).console j).saves? id).isSome = true := by
  unfold lastSave?
  rw [History.last?_isSome_iff]
  constructor
  · rintro ⟨before, deed, after, split, saved⟩
    cases deed with
    | save j => exact ⟨before, j, after, split, saved⟩
    | _ => contradiction
  · rintro ⟨before, j, after, split, saved⟩
    exact ⟨before, .save j, after, split, saved⟩

theorem next_labelled {w : Sharing ι} {i : ι} (h : (w.console i).Labelled) (deed : Deed ι) :
    ((w.next deed).console i).Labelled := by
  have changed (j : ι) (call : Call MemoryStorage) :
      (Function.update w.console j ((w.console j).perform call) i).Labelled := by
    by_cases same : i = j
    · rw [← same, Function.update_self]
      exact h.perform call
    · rw [Function.update_of_ne same]
      exact h
  cases deed with
  | call j call => exact changed j call
  | save j => exact h
  | restore j => exact changed j _

/-- Whatever is done with the consoles, what is in a slot is what the label says. -/
theorem behind_labelled {w : Sharing ι} {i : ι} (h : (w.console i).Labelled) (deeds : List (Deed ι)) :
    ((w.behind deeds).console i).Labelled := by
  induction deeds generalizing w with
  | nil => exact h
  | cons deed rest ih => exact ih (next_labelled h deed)

theorem next_get? (id : String) (w : Sharing ι) (deed : Deed ι) :
    (w.next deed).storage.ram.get? id = (saves? id w deed).or (w.storage.ram.get? id) := by
  cases deed with
  | call i call => rfl
  | save i => exact (w.console i).save_get? w.storage id
  | restore i => rfl

/-- Under an identifier there is what was saved last under it. -/
theorem behind_get? (id : String) (console : ι → Console) (deeds : List (Deed ι)) :
    ((start console).behind deeds).storage.ram.get? id = lastSave? id (start console) deeds := by
  have takes (w : Sharing ι) (deed : Deed ι) : (w.next deed).storage.ram.get? id =
      ((saves? id w deed).map some).getD (w.storage.ram.get? id) := by
    rw [next_get?]
    cases saves? id w deed <;> rfl
  have held := History.foldl_cell (fun w : Sharing ι => w.storage.ram.get? id) some takes
    (start console) deeds
  unfold behind lastSave?
  rw [held]
  cases History.last? next (saves? id) (start console) deeds <;> rfl

/-- What is to be said of a console and its saved memory behind a row of deeds. -/
structure ComesBack (console : ι → Console) (deeds : List (Deed ι)) (i : ι) : Prop where
  /-- Where cartridges come into an empty slot, their headers say which of them have work RAM with a
  battery, and how much. -/
  declared : (console i).label = none → let now := (start console).behind deeds
    ∀ label, (now.console i).label = some label →
      ((∃ ram, (now.console i).Battery label ram) ↔
        label.header.hasBattery = true ∧ label.header.workRamSize ≠ 0) ∧
      ∀ ram, (now.console i).Battery label ram → ram.size = label.header.workRamSize
  /-- Work RAM with a battery is filled if some console has saved such RAM under the identifier of the
  cartridge, from the last such save, as far as both reach. Nothing else in the console changes. -/
  returns : let now := (start console).behind deeds
    ∀ label ram, (now.console i).Battery label ram → ∃ found filled restored,
      (now.console i).restore now.storage = .ok (found, restored) ∧
      (found = true ↔ ∃ before j after, deeds = before ++ .save j :: after ∧
        ((((start console).behind before).console j).saves? label.id).isSome = true) ∧
      restored.Battery label filled ∧ restored.withWork ram = now.console i ∧
      filled.size = ram.size ∧
      ∀ k, filled[k]? = match lastSave? label.id (start console) deeds with
        | some saved => if k < min saved.size ram.size then saved[k]? else ram[k]?
        | none => ram[k]?
  /-- A save under another identifier makes no difference. -/
  apart : let now := (start console).behind deeds
    ∀ j, (now.console j).label.map Label.id ≠ (now.console i).label.map Label.id →
      (now.console i).restore ((now.console j).save now.storage).2 =
        (now.console i).restore now.storage
  /-- Without a battery, or without work RAM, nothing is saved and nothing is filled. -/
  unbacked : let now := (start console).behind deeds
    ∀ label, (now.console i).label = some label → (∀ ram, ¬ (now.console i).bus.board.Keeps ram) →
      (now.console i).save now.storage = (.ok false, now.storage) ∧
        (now.console i).restore now.storage = .ok (false, now.console i)
  /-- A console that is filled right behind its save is as it was. -/
  again : let now := (start console).behind deeds
    ∀ label ram, (now.console i).Battery label ram →
      ((now.console i).save now.storage).1 = .ok true ∧
        (now.console i).restore ((now.console i).save now.storage).2 = .ok (true, now.console i)

/-- Saved memory comes back, and to the right game only, whatever is done with the consoles. -/
theorem saves_come_back (console : ι → Console) (deeds : List (Deed ι)) (i : ι) :
    ComesBack console deeds i where
  declared vacant label labelled := by
    have slot : (((start console).behind deeds).console i).Labelled :=
      behind_labelled (Console.labelled_of_none vacant) deeds
    exact ⟨slot.battery_iff labelled, fun ram => slot.battery_size⟩
  returns := by
    intro now label ram battery
    have stored := behind_get? label.id console deeds
    have found := lastSave?_isSome_iff label.id (start console) deeds
    cases last : lastSave? label.id (start console) deeds with
    | none =>
      rw [last] at stored found
      exact ⟨false, ram, now.console i, battery.restore_of_none stored, found, battery,
        battery.withWork_self, rfl, fun k => rfl⟩
    | some saved =>
      rw [last] at stored found
      have size : (Storage.front ram saved).size = ram.size := Vector.size_toArray _
      exact ⟨true, Storage.front ram saved, _, battery.restore_of_some stored, found,
        battery.withWork size, battery.withWork_withWork _, size, Storage.getElem?_front ram saved⟩
  apart := by
    intro now j other
    refine Console.restore_congr fun label labelled => ?_
    have silent : (now.console j).saves? label.id = none := by
      rw [labelled] at other
      exact if_neg other
    rw [Console.save_get?, silent, Option.none_or]
  unbacked _ labelled none := Console.unbacked labelled none
  again := by
    intro now label ram battery
    have same : Storage.front ram ram = ram := by
      refine Array.ext_getElem? fun k => ?_
      rw [Storage.getElem?_front, ite_self]
    have stored : ((now.console i).save now.storage).2.ram.get? label.id = some ram := by
      rw [Console.save_get?, battery.saves?, Option.some_or]
    refine ⟨congrArg Prod.fst battery.save, ?_⟩
    rw [battery.restore_of_some stored, same, battery.withWork_self]

/-- A console without a picture, in it a cartridge without a program and with a few bytes of work RAM on
a battery. -/
def pocket (ram : Array UInt8) : Console :=
  let banks : Banks := ⟨#[], #[], false, ram, true, .replicate 4 0, .replicate 8 0⟩
  let console := (Console.build {} .blank .standard).mapBus fun m =>
    { m with board := .latch (.mount .fixed banks .horizontal) }
  { console with label := some ⟨⟨0, 0, 0x02, 0, 0, 0, 0, 0, 0⟩, "00000000"⟩ }

/-- The shorter memory of another console comes back over the start of a longer one. -/
theorem shorter_memory_comes_back :
    ∃ restored, (pocket #[7, 8, 9]).restore
        ((start fun i : Fin 2 => pocket (if i = 0 then #[1, 2] else #[7, 8, 9])).behind
          [.save 0]).storage = .ok (true, restored) ∧
      restored.batteryRam? = some #[1, 2, 9] := by
  let console (i : Fin 2) := pocket (if i = 0 then #[1, 2] else #[7, 8, 9])
  have saved : lastSave? "00000000" (start console) [.save 0] = some #[1, 2] := rfl
  obtain ⟨found, filled, restored, answer, some, battery, -, size, bytes⟩ :=
    (saves_come_back console [.save 0] 1).returns _ #[7, 8, 9] ⟨rfl, _, rfl, rfl, rfl, by decide⟩
  have true : found = true := some.mpr ⟨[], 0, [], rfl, rfl⟩
  have contents : filled = #[1, 2, 9] := by
    refine Array.ext_getElem? fun k => ?_
    rw [bytes k, saved]
    match k with
    | 0 | 1 | 2 => rfl
    | k + 3 => simp
  rw [true] at answer
  rw [contents] at battery
  exact ⟨restored, answer, battery.batteryRam⟩

end Sharing

end Famiclone
