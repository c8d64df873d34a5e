import Famiclone.Proofs.Board.PowerCycle

/-!
# Work RAM as a memory

Between `$6000` and `$8000` a board shows its work RAM, a small one several times over. On most boards a
write there is a write to a memory. Three of the latch boards show their work RAM but do not take writes
to it: there a program reads what was in the RAM before, and a write is lost.
-/
namespace Famiclone

/-- The part of processor space in which work RAM shows. -/
def WorkPlace (address : UInt16) : Prop := 0x6000 ≤ address.toNat ∧ address.toNat < 0x8000

theorem WorkPlace.lower {address : UInt16} (place : WorkPlace address) : 0x6000 ≤ address :=
  UInt16.le_iff_toNat_le.mpr place.1

theorem WorkPlace.upper {address : UInt16} (place : WorkPlace address) : ¬ 0x8000 ≤ address :=
  fun high => absurd (UInt16.le_iff_toNat_le.mp high) (Nat.not_le.mpr place.2)

namespace Banks

/-- The same cell shows at two places that are a whole number of memories apart. -/
theorem workOffset_eq_iff (b : Banks) {first second : UInt16} (hf : WorkPlace first)
    (hs : WorkPlace second) :
    b.workOffset first = b.workOffset second ↔
      first.toNat ≡ second.toNat [MOD b.workRam.size] := by
  have start : first.toNat - 0x6000 + 0x6000 = first.toNat := Nat.sub_add_cancel hf.1
  have other : second.toNat - 0x6000 + 0x6000 = second.toNat := Nat.sub_add_cancel hs.1
  rw [← start, ← other]
  exact ⟨fun same => Nat.ModEq.add_right 0x6000 same, fun same => Nat.ModEq.add_right_cancel' 0x6000 same⟩

theorem writeWork_prg (b : Banks) (address : UInt16) (value : UInt8) :
    (b.writeWork address value).prg = b.prg := by
  unfold writeWork
  generalize b.workOffset address = cell
  rfl

theorem writeWork_prgWindows (b : Banks) (address : UInt16) (value : UInt8) :
    (b.writeWork address value).prgWindows = b.prgWindows := by
  unfold writeWork
  generalize b.workOffset address = cell
  rfl

theorem writeWork_chrWindows (b : Banks) (address : UInt16) (value : UInt8) :
    (b.writeWork address value).chrWindows = b.chrWindows := by
  unfold writeWork
  generalize b.workOffset address = cell
  rfl

/-- What shows in work RAM behind a write. -/
theorem readWork_writeWork (b : Banks) (nonempty : b.workRam.size ≠ 0) (address read : UInt16)
    (value : UInt8) :
    (b.writeWork address value).readWork read =
      if b.workOffset address = b.workOffset read then some value else b.readWork read := by
  have inside : b.workOffset address < b.workRam.size :=
    Nat.mod_lt _ (Nat.pos_of_ne_zero nonempty)
  have place : (b.writeWork address value).workOffset read = b.workOffset read := by
    unfold workOffset writeWork
    rw [Array.size_setIfInBounds]
  unfold readWork
  rw [place]
  unfold writeWork
  rw [Array.getElem?_setIfInBounds]
  by_cases same : b.workOffset address = b.workOffset read
  · rw [if_pos same, if_pos same, if_pos inside]
  · rw [if_neg same, if_neg same]

end Banks

namespace Board

/-- Whether the work RAM answers the processor. -/
def answersWork : Board → Bool
  | empty => false
  | latch _ => true
  | mmc1 b => b.workEnabled
  | mmc3 b => b.workEnabled

/-- Whether a program has protected the work RAM from writes. -/
def guardsWork : Board → Bool
  | mmc3 b => b.workProtected
  | _ => false

/-- Whether the board passes writes on to its work RAM at all. -/
def wiresWork : Board → Bool
  | latch b => LatchBoard.writesWork b.wiring
  | _ => true

/-- The numbers of the boards that show their work RAM and take no writes to it. -/
def deafMappers : List Nat := [7, 11, 66]

section

variable {number : Nat} {wired : Mirroring} {banks : Banks} {b : Board}

theorem wiresWork_of_mapper (known : ofMapper? number wired banks = some b) :
    b.wiresWork = true ↔ number ∉ deafMappers := by
  unfold ofMapper? at known
  split at known <;> cases known <;>
    simp [wiresWork, LatchBoard.writesWork, LatchBoard.mount, deafMappers]

/-- On a freshly mounted board the work RAM answers and is not protected. -/
theorem open_of_mapper (known : ofMapper? number wired banks = some b) :
    b.answersWork = true ∧ b.guardsWork = false := by
  unfold ofMapper? at known
  split at known <;> cases known
  case h_2 => exact ⟨Mmc1.mount_workEnabled banks, rfl⟩
  all_goals exact ⟨rfl, rfl⟩

end

theorem Like.wiresWork {fresh b : Board} (like : fresh.Like b) : b.wiresWork = fresh.wiresWork := by
  cases like with
  | latch h => exact congrArg LatchBoard.writesWork h.wiring
  | mmc1 h => rfl
  | mmc3 h => rfl

variable {b : Board} {m : Banks} {address : UInt16}

theorem readPrg_of_workPlace (found : b.banks? = some m) (place : WorkPlace address) :
    b.readPrg address = if b.answersWork then m.readWork address else none := by
  cases b with
  | empty => contradiction
  | latch b =>
    cases found
    show LatchBoard.read b address = _
    unfold LatchBoard.read
    rw [if_neg place.upper, if_pos place.lower]
    exact (if_pos rfl).symm
  | mmc1 b =>
    cases found
    show Mmc1.read b address = _
    unfold Mmc1.read
    rw [if_neg place.upper, if_congr (and_iff_right place.lower) rfl rfl]
    rfl
  | mmc3 b =>
    cases found
    show Mmc3.read b address = _
    unfold Mmc3.read
    rw [if_neg place.upper, if_congr (and_iff_right place.lower) rfl rfl]
    rfl

/-- A write to work RAM changes that memory or nothing. -/
theorem writePrg_of_workPlace (b : Board) (place : WorkPlace address) (value : UInt8) :
    b.writePrg address value =
      if b.answersWork ∧ b.guardsWork = false ∧ b.wiresWork then
        b.mapBanks fun m => m.writeWork address value
      else b := by
  cases b with
  | empty => rfl
  | latch b =>
    show latch (b.write address value) = _
    unfold LatchBoard.write
    rw [if_neg place.upper]
    simp only [place.lower, true_and, answersWork, guardsWork, wiresWork]
    split <;> rfl
  | mmc1 b =>
    show mmc1 (b.write address value) = _
    unfold Mmc1.write
    rw [if_neg place.upper]
    simp only [place.lower, true_and, answersWork, guardsWork, wiresWork, and_true]
    split <;> rfl
  | mmc3 b =>
    show mmc3 (b.write address value) = _
    unfold Mmc3.write
    rw [if_neg place.upper]
    simp only [place.lower, true_and, answersWork, guardsWork, wiresWork, and_true,
      Bool.not_eq_true]
    split <;> rfl

/-- A write at a place of work RAM, as a write to a memory of `size` cells that shows over and over:
its cell holds the value, every place of the cell shows it, and nothing else changes. -/
structure StoresWork (b : Board) (size : Nat) (address : UInt16) (value : UInt8) : Prop where
  shows : ∀ read, WorkPlace read → (b.writePrg address value).readPrg read =
    if address.toNat ≡ read.toNat [MOD size] then some value else b.readPrg read
  holds : ((b.writePrg address value).workRam?.bind fun ram =>
    ram[(address.toNat - 0x6000) % size]?) = some value
  view : (b.writePrg address value).view = b.view
  irq : (b.writePrg address value).irq = b.irq

theorem answersWork_mapBanks (f : Banks → Banks) (b : Board) :
    (b.mapBanks f).answersWork = b.answersWork := by
  cases b <;> rfl

theorem view_mapBanks {f : Banks → Banks} (prg : ∀ m, (f m).prgWindows = m.prgWindows)
    (chr : ∀ m, (f m).chrWindows = m.chrWindows) (b : Board) : (b.mapBanks f).view = b.view := by
  cases b with
  | empty => rfl
  | latch b =>
    show some (LatchBoard.view _) = some (LatchBoard.view _)
    unfold LatchBoard.view
    dsimp only
    rw [prg, chr]
  | mmc1 b =>
    show some (Mmc1.view _) = some (Mmc1.view _)
    unfold Mmc1.view
    dsimp only
    rw [prg, chr]
    rfl
  | mmc3 b =>
    show some (Mmc3.view _) = some (Mmc3.view _)
    unfold Mmc3.view
    dsimp only
    rw [prg, chr]

theorem irq_mapBanks (f : Banks → Banks) (b : Board) : (b.mapBanks f).irq = b.irq := by
  cases b <;> rfl

/-- Where the write line is connected, work RAM is a memory. -/
theorem storesWork_of_wired (found : b.banks? = some m) (nonempty : m.workRam.size ≠ 0)
    (place : WorkPlace address) (answers : b.answersWork = true) (unguarded : b.guardsWork = false)
    (wired : b.wiresWork = true) (value : UInt8) :
    b.StoresWork m.workRam.size address value := by
  have written : b.writePrg address value = b.mapBanks fun m => m.writeWork address value := by
    rw [writePrg_of_workPlace b place, if_pos ⟨answers, unguarded, wired⟩]
  have chips : (b.mapBanks fun m => m.writeWork address value).banks? =
      some (m.writeWork address value) := by
    rw [banks?_mapBanks, found]
    rfl
  have inside : m.workOffset address < m.workRam.size :=
    Nat.mod_lt _ (Nat.pos_of_ne_zero nonempty)
  refine ⟨?_, ?_, ?_, ?_⟩
  · intro read showing
    rw [written, readPrg_of_workPlace chips showing, answersWork_mapBanks, if_pos answers,
      m.readWork_writeWork nonempty, readPrg_of_workPlace found showing, if_pos answers]
    exact if_congr (m.workOffset_eq_iff place showing) rfl rfl
  · have size : (m.writeWork address value).workRam.size = m.workRam.size :=
      Array.size_setIfInBounds
    have full : (m.writeWork address value).workRam.isEmpty = false := by
      rw [Array.isEmpty_eq_false_iff, ← Array.size_pos_iff]
      omega
    have ram : (b.writePrg address value).workRam? = some (m.writeWork address value).workRam := by
      unfold workRam?
      rw [written, chips, Option.map_some, Option.filter_some, full]
      exact if_pos rfl
    have cell : (address.toNat - 0x6000) % m.workRam.size = m.workOffset address := rfl
    have memory : (m.writeWork address value).workRam =
        m.workRam.setIfInBounds (m.workOffset address) value := rfl
    rw [ram, Option.bind_some, cell, memory]
    exact Array.getElem?_setIfInBounds_self_of_lt inside
  · rw [written]
    exact view_mapBanks (fun m => m.writeWork_prgWindows address value)
      (fun m => m.writeWork_chrWindows address value) b
  · rw [written, irq_mapBanks]

/-- Where it is not, a write is lost. -/
theorem writePrg_of_unwired (place : WorkPlace address) (unwired : b.wiresWork = false)
    (value : UInt8) : b.writePrg address value = b := by
  rw [writePrg_of_workPlace b place, if_neg]
  rintro ⟨-, -, wired⟩
  rw [unwired] at wired
  contradiction

variable {image : Array UInt8} {cartridge : Cartridge}

/-- Whatever has been done to a board, its work RAM has the size that the header declares. -/
theorem workRam_of_course (accepted : Cartridge.ofImage image = .ok cartridge)
    (course : cartridge.board.Course b) :
    ∃ m, b.banks? = some m ∧ m.workRam.size = cartridge.header.workRamSize := by
  obtain ⟨m, found, chips⟩ := Cartridge.ofImage_chips accepted course
  exact ⟨m, found, chips.workSize.trans Array.size_replicate⟩

/-- Wherever work RAM answers and is not protected, it is a memory of the declared size, on every board
but three; on those three it only answers. -/
theorem work_is_memory_iff (accepted : Cartridge.ofImage image = .ok cartridge)
    (course : cartridge.board.Course b) (place : WorkPlace address)
    (answers : (b.readPrg address).isSome) (unguarded : b.guardsWork = false) :
    ((∀ value, b.StoresWork cartridge.header.workRamSize address value) ↔
        cartridge.header.mapper ∉ deafMappers) ∧
      (cartridge.header.mapper ∈ deafMappers → ∀ value, b.writePrg address value = b) := by
  obtain ⟨m, found, size⟩ := workRam_of_course accepted course
  have like := (Cartridge.ofImage_mounted accepted).like.course course
  have wired : b.wiresWork = true ↔ cartridge.header.mapper ∉ deafMappers := by
    rw [like.wiresWork]
    exact wiresWork_of_mapper (Cartridge.ofImage_accepted accepted).board
  have lost (deaf : cartridge.header.mapper ∈ deafMappers) (value : UInt8) :
      b.writePrg address value = b := by
    refine writePrg_of_unwired place ?_ value
    rw [Bool.eq_false_iff, ne_eq, wired]
    exact not_not_intro deaf
  rw [readPrg_of_workPlace found place] at answers
  have enabled : b.answersWork = true := by
    by_contra silent
    rw [if_neg silent] at answers
    contradiction
  rw [if_pos enabled] at answers
  have nonempty : m.workRam.size ≠ 0 := by
    obtain ⟨inside, -⟩ := Array.getElem?_eq_some_iff.mp (Option.eq_some_of_isSome answers)
    omega
  refine ⟨⟨?_, ?_⟩, lost⟩
  · -- One of two values is not what the RAM shows already.
    intro stores deaf
    have shown (value : UInt8) : b.readPrg address = some value := by
      have now := (stores value).shows address place
      rw [if_pos (Nat.ModEq.refl _), lost deaf] at now
      exact now
    have same := (shown 0).symm.trans (shown 1)
    contradiction
  · intro hearing value
    rw [← size]
    exact storesWork_of_wired found nonempty place enabled unguarded (wired.mpr hearing) value

/-- On a freshly mounted board the work RAM answers, if there is any. -/
theorem answers_of_accepted (accepted : Cartridge.ofImage image = .ok cartridge)
    (nonempty : cartridge.header.workRamSize ≠ 0) (place : WorkPlace address) :
    (cartridge.board.readPrg address).isSome ∧ cartridge.board.guardsWork = false := by
  obtain ⟨m, found, size⟩ := workRam_of_course accepted .refl
  obtain ⟨answers, unguarded⟩ := open_of_mapper (Cartridge.ofImage_accepted accepted).board
  have inside : m.workOffset address < m.workRam.size := Nat.mod_lt _ (by omega)
  refine ⟨?_, unguarded⟩
  rw [readPrg_of_workPlace found place, if_pos answers]
  exact Option.isSome_iff_exists.mpr ⟨_, Array.getElem?_eq_getElem inside⟩

/-- The header of an AxROM board with 32 KiB of program. -/
def axromHeader : Header := ⟨2, 0, 0x70, 0, 0, 0, 0, 0, 0⟩

def axromImage : Array UInt8 :=
  #[0x4E, 0x45, 0x53, 0x1A, 2, 0, 0x70, 0, 0, 0, 0, 0, 0, 0, 0, 0] ++ Array.replicate 0x8000 0

/-- A plain board keeps a value in its work RAM and an AxROM board loses it. -/
theorem work_lost_on_axrom :
    (∃ plain, Cartridge.ofImage (Cartridge.imageOfProgram [0x4C, 0x00, 0x80] 0x8000) = .ok plain ∧
      ∀ value, plain.board.StoresWork 0x2000 0x6000 value) ∧
    ∃ axrom, Cartridge.ofImage axromImage = .ok axrom ∧
      (¬ ∀ value, axrom.board.StoresWork 0x2000 0x6000 value) ∧
      axrom.board.writePrg 0x6000 90 = axrom.board := by
  have place : WorkPlace 0x6000 := ⟨by decide, by decide⟩
  constructor
  · obtain ⟨plain, accepted⟩ := Cartridge.ofImage_imageOfProgram [0x4C, 0x00, 0x80] 0x8000
    have header : plain.header = Cartridge.programHeader := Except.ok.inj
      ((Cartridge.ofImage_accepted accepted).header.symm.trans (Cartridge.parse_imageOfProgram _ _))
    obtain ⟨answers, unguarded⟩ :=
      answers_of_accepted accepted (by rw [header]; decide) place
    have kept := work_is_memory_iff accepted .refl place answers unguarded
    rw [header] at kept
    exact ⟨plain, accepted, kept.1.mpr (by decide)⟩
  · have parsed : Header.parse axromImage = .ok axromHeader := Cartridge.parse_append rfl _
    obtain ⟨axrom, accepted⟩ := Cartridge.ofImage_accepts parsed (by decide)
      (by rw [axromImage, Array.size_append, Array.size_replicate]; decide) fun _ => rfl
    have header : axrom.header = axromHeader :=
      Except.ok.inj ((Cartridge.ofImage_accepted accepted).header.symm.trans parsed)
    obtain ⟨answers, unguarded⟩ :=
      answers_of_accepted accepted (by rw [header]; decide) place
    have lost := work_is_memory_iff accepted .refl place answers unguarded
    rw [header] at lost
    exact ⟨axrom, accepted, fun stores => lost.1.mp stores (by decide), lost.2 (by decide) 90⟩

end Board

end Famiclone
