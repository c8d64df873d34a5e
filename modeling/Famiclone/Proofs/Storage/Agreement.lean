import Famiclone.Proofs.Cartridge.Image
import Famiclone.Proofs.Settings.RoundTrip
import Mathlib.Data.Finmap

/-!
# All storages are the same store

A storage in memory and one in a directory keep what they are given in different forms. By their replies
they are one and the same store, which holds settings or none, and a finite map from the identifiers of
cartridges to their saved memory.
-/
namespace Famiclone

/-! ## What is stored -/

/-- Settings that a text can hold: the sample rate has 32 bits, and the volume has a numeral. -/
structure Settings.Storable (s : Settings) : Prop where
  rate : s.audio.sampleRate < UInt32.size
  volume : s.audio.volume.isFinite = true

/-- Such settings are read from every spelling of them. -/
theorem Settings.Storable.reads {s : Settings} (h : s.Storable)
    (numeral : AudioSettings.VolumeReadsBack s.audio.volume) {written : String}
    (spelling : s.value.Spells (Json.utf8 written)) : ofBytes written.toUTF8.toList = .ok s := by
  rw [ofBytes_of_spells h.rate numeral spelling, readBack, if_pos h.volume]

namespace Storage

/-- Eight hexadecimal digits, with letters in lower case. -/
def IsIdentifier (id : String) : Prop :=
  id.toList.length = 8 ∧ id.toList ⊆ "0123456789abcdef".toList

theorem mem_toDigits {n : Nat} {c : Char} (h : c ∈ Nat.toDigits 16 n) :
    c ∈ "0123456789abcdef".toList := by
  have digit : ∀ d < 16, Nat.digitChar d ∈ "0123456789abcdef".toList := by decide
  induction n using Nat.strongRecOn with
  | ind n ih =>
    by_cases small : n < 16
    · rw [Nat.toDigits_of_lt_base small, List.mem_singleton] at h
      exact h ▸ digit n small
    · rw [Nat.toDigits_of_base_le (by decide) (by omega), List.mem_append, List.mem_singleton] at h
      cases h with
      | inl front => exact ih (n / 16) (by omega) front
      | inr last => exact last ▸ digit _ (Nat.mod_lt n (by decide))

theorem isIdentifier_padded {n : Nat} (h : n < 2 ^ 32) : IsIdentifier (Hex.padded 8 n) := by
  have short : (Nat.toDigits 16 n).length ≤ 8 := Nat.toDigits_length 16 n 8 (by decide) h
  unfold IsIdentifier Hex.padded
  rw [String.toList_ofList]
  refine ⟨?_, fun _ mem => ?_⟩
  · rw [List.length_leftpad]
    omega
  · rw [List.leftpad, List.mem_append] at mem
    cases mem with
    | inl zero =>
      obtain ⟨-, rfl⟩ := List.mem_replicate.mp zero
      decide
    | inr digit => exact mem_toDigits digit

/-- The identifiers of cartridges are such. -/
theorem isIdentifier_of_accepted {image : Array UInt8} {cartridge : Cartridge}
    (accepted : Cartridge.ofImage image = .ok cartridge) : IsIdentifier cartridge.id := by
  rw [(Cartridge.ofImageBy_ok accepted).2]
  exact isIdentifier_padded (UInt32.toNat_lt _)

/-! ## What is done with a storage -/

/-- What can be asked of a storage. -/
inductive Operation where
  | readSettings
  | writeSettings (settings : Settings)
  | deleteSettings
  /-- Fill a memory from what is saved under an identifier. -/
  | load (id : String) (memory : Array UInt8)
  | writeRam (id : String) (bytes : Array UInt8)
  | deleteRam (id : String)
  | deleteAllRam

inductive Reply where
  | done (answer : Except StorageError Unit)
  | settings (answer : Except StorageError (Option Settings))
  /-- Whether something is saved, and the memory behind the request. -/
  | memory (answer : Except StorageError (Bool × Array UInt8))

namespace Operation

/-- The settings can be stored, and the identifier is one. -/
def Proper : Operation → Prop
  | writeSettings settings => settings.Storable
  | load id _ | writeRam id _ | deleteRam id => IsIdentifier id
  | readSettings | deleteSettings | deleteAllRam => True

/-- The operation is about saved memory. -/
def OnRam : Operation → Prop
  | load .. | writeRam .. | deleteRam _ | deleteAllRam => True
  | readSettings | writeSettings _ | deleteSettings => False

/-- The operation is about the memory saved under an identifier. -/
def Touches (id : String) : Operation → Prop
  | load other _ | writeRam other _ | deleteRam other => other = id
  | deleteAllRam => True
  | readSettings | writeSettings _ | deleteSettings => False

end Operation

section

variable {σ : Type} [Storage σ]

def perform (s : σ) : Operation → Reply × σ
  | .readSettings => (.settings (readSettings s), s)
  | .writeSettings settings => (.done (writeSettings s settings).1, (writeSettings s settings).2)
  | .deleteSettings => (.done (deleteSettings s).1, (deleteSettings s).2)
  | .load id memory =>
    (.memory ((load s id memory.toVector).map fun (found, filled) => (found, filled.toArray)), s)
  | .writeRam id bytes => (.done (writeRam s id bytes).1, (writeRam s id bytes).2)
  | .deleteRam id => (.done (deleteRam s id).1, (deleteRam s id).2)
  | .deleteAllRam => (.done (deleteAllRam s).1, (deleteAllRam s).2)

def replies (s : σ) : List Operation → List Reply
  | [] => []
  | op :: ops => (perform s op).1 :: replies (perform s op).2 ops

end

/-! ## The store that they all are -/

/-- Settings or none, and memory under identifiers. -/
structure Ideal where
  settings : Option Settings
  ram : Finmap fun _ : String => Array UInt8

namespace Ideal

def empty : Ideal := ⟨none, ∅⟩

def after (i : Ideal) : Operation → Ideal
  | .writeSettings settings => { i with settings := some settings }
  | .deleteSettings => { i with settings := none }
  | .writeRam id bytes => { i with ram := i.ram.insert id bytes }
  | .deleteRam id => { i with ram := i.ram.erase id }
  | .deleteAllRam => { i with ram := ∅ }
  | .readSettings | .load .. => i

/-- A memory filled from what is saved: where there are bytes of both, the saved ones. -/
def fill (i : Ideal) (id : String) (memory : Array UInt8) : Bool × Array UInt8 :=
  match i.ram.lookup id with
  | none => (false, memory)
  | some saved =>
    (true, .ofFn fun place : Fin memory.size => saved.getD place.val (memory.getD place.val 0))

def reply (i : Ideal) : Operation → Reply
  | .readSettings => .settings (.ok i.settings)
  | .load id memory => .memory (.ok (i.fill id memory))
  | .writeSettings _ | .deleteSettings | .writeRam .. | .deleteRam _ | .deleteAllRam => .done (.ok ())

def replies (i : Ideal) : List Operation → List Reply
  | [] => []
  | op :: ops => i.reply op :: (i.after op).replies ops

/-- Operations on other identifiers leave the memory under an identifier alone. -/
theorem after_ram {op : Operation} {id : String} (other : ¬ op.Touches id) (i : Ideal) :
    (i.after op).ram.lookup id = i.ram.lookup id := by
  cases op with
  | writeRam id' bytes => exact Finmap.lookup_insert_of_ne _ (Ne.symm other)
  | deleteRam id' => exact Finmap.lookup_erase_ne (Ne.symm other)
  | deleteAllRam => exact absurd trivial other
  | readSettings | writeSettings _ | deleteSettings | load _ _ => rfl

/-- Operations on saved memory leave the settings alone. -/
theorem after_settings {op : Operation} (memory : op.OnRam) (i : Ideal) :
    (i.after op).settings = i.settings := by
  cases op with
  | load _ _ | writeRam _ _ | deleteRam _ | deleteAllRam => rfl
  | readSettings | writeSettings _ | deleteSettings => exact memory.elim

end Ideal

/-! ## One operation -/

/-- What comes over the start of a memory, byte by byte. -/
theorem copyFront_eq (memory saved : Array UInt8) :
    (copyFront memory.toVector saved (min saved.size memory.size)).toArray =
      .ofFn fun place : Fin memory.size => saved.getD place.val (memory.getD place.val 0) := by
  refine Array.ext_getElem? fun place => ?_
  rw [getElem?_copyFront, Array.getElem?_ofFn]
  by_cases inside : place < memory.size
  · rw [dif_pos inside]
    by_cases both : place < saved.size <;> simp [inside, both, Array.getD]
  · rw [dif_neg inside, if_neg (by omega), Array.getElem?_eq_none (by simpa using inside)]

/-- Storages that reply to one operation as the store does, and hold what it holds behind the operation,
reply so to all of them. -/
theorem replies_eq {σ : Type} [Storage σ] {Holds : σ → Ideal → Prop} {Allowed : Operation → Prop}
    (step : ∀ {s i op}, Holds s i → Allowed op →
      (perform s op).1 = i.reply op ∧ Holds (perform s op).2 (i.after op))
    {ops : List Operation} (allowed : ∀ op ∈ ops, Allowed op) {s : σ} {i : Ideal} (holds : Holds s i) :
    replies s ops = i.replies ops := by
  induction ops generalizing s i with
  | nil => rfl
  | cons op ops ih =>
    obtain ⟨same, behind⟩ := step holds (allowed op (List.mem_cons_self ..))
    unfold replies Ideal.replies
    rw [same, ih (fun next mem => allowed next (List.mem_cons_of_mem _ mem)) behind]

theorem lookup_empty_eq (id : String) :
    (∅ : Finmap fun _ : String => Array UInt8).lookup id = none := Finmap.lookup_empty id

theorem lookup_insert_eq (ram : Finmap fun _ : String => Array UInt8) (key id : String)
    (bytes : Array UInt8) :
    (ram.insert key bytes).lookup id = if key = id then some bytes else ram.lookup id := by
  split
  next same => rw [← same, Finmap.lookup_insert]
  next other => exact Finmap.lookup_insert_of_ne _ (Ne.symm other)

theorem lookup_erase_eq (ram : Finmap fun _ : String => Array UInt8) (key id : String) :
    (ram.erase key).lookup id = if key = id then none else ram.lookup id := by
  split
  next same => rw [← same, Finmap.lookup_erase]
  next other => exact Finmap.lookup_erase_ne (Ne.symm other)

/-- The numeral of the volume, where one is written, reads back. -/
def Operation.NumeralReadsBack : Operation → Prop
  | .writeSettings settings => AudioSettings.VolumeReadsBack settings.audio.volume
  | _ => True

end Storage

open Storage (Ideal Operation)

/-! ## Storage in memory -/

namespace MemoryStorage

/-- A storage that holds what the store holds. -/
structure Holds (s : MemoryStorage) (i : Ideal) : Prop where
  settings : s.readSettings = .ok i.settings
  ram : ∀ id, s.ram.get? id = i.ram.lookup id

/-- It fills a memory as the store does. -/
theorem Holds.load {s : MemoryStorage} {i : Ideal} (h : s.Holds i) (id : String)
    (memory : Array UInt8) : (s.load id memory.toVector).map (fun (found, filled) =>
      (found, filled.toArray)) = .ok (i.fill id memory) := by
  unfold MemoryStorage.load Ideal.fill
  rw [h.ram]
  cases i.ram.lookup id with
  | none => rfl
  | some saved =>
    exact congrArg (fun filled => Except.ok (true, filled)) (Storage.copyFront_eq memory saved)

theorem Holds.perform {s : MemoryStorage} {i : Ideal} {op : Operation} (h : s.Holds i)
    (allowed : op.Proper ∧ op.NumeralReadsBack) :
    (Storage.perform s op).1 = i.reply op ∧ (Storage.perform s op).2.Holds (i.after op) := by
  obtain ⟨proper, numeral⟩ := allowed
  cases op with
  | readSettings => exact ⟨congrArg Storage.Reply.settings h.settings, h⟩
  | writeSettings settings =>
    refine ⟨rfl, ?_, h.ram⟩
    have read := proper.reads numeral settings.value.compact_spells
    show ((Settings.ofBytes settings.compact.toUTF8.toList).map some).mapError _ = _
    rw [Settings.compact, read]
    rfl
  | deleteSettings => exact ⟨rfl, rfl, h.ram⟩
  | load id memory => exact ⟨congrArg Storage.Reply.memory (h.load id memory), h⟩
  | writeRam key bytes =>
    refine ⟨rfl, h.settings, fun id => ?_⟩
    show (s.ram.put key bytes).get? id = (i.ram.insert key bytes).lookup id
    rw [Blobs.get?_put, Storage.lookup_insert_eq, h.ram]
  | deleteRam key =>
    refine ⟨rfl, h.settings, fun id => ?_⟩
    show (s.ram.erase key).get? id = (i.ram.erase key).lookup id
    rw [Blobs.get?_erase, Storage.lookup_erase_eq, h.ram]
  | deleteAllRam => exact ⟨rfl, h.settings, fun id => (Storage.lookup_empty_eq id).symm⟩

end MemoryStorage

/-! ## Storage in a directory -/

theorem Blobs.get?_filter {κ : Type} [DecidableEq κ] (b : Blobs κ) (keep : κ → Bool) (key : κ) :
    Blobs.get? (b.filter fun e => keep e.1) key = if keep key then b.get? key else none := by
  induction b with
  | nil => cases keep key <;> rfl
  | cons e b ih =>
    by_cases here : e.1 = key
    · subst here
      cases kept : keep e.1 with
      | true => simp [get?, kept]
      | false =>
        rw [kept, if_neg Bool.false_ne_true] at ih
        rw [List.filter_cons_of_neg (by simp [kept]), if_neg Bool.false_ne_true]
        exact ih
    · have skip (rest : Blobs κ) : get? (e :: rest) key = rest.get? key := by simp [get?, here]
      rw [List.filter_cons, skip]
      split
      · rw [skip]
        exact ih
      · exact ih

namespace FilePlace

/-- The file of the memory saved under an identifier. -/
def save (root : Root) (id : String) : FilePlace := ⟨root.saves, String.ofList (path id)⟩

theorem save_inj {root : Root} {a b : String} : save root a = save root b ↔ a = b := by
  refine ⟨fun same => ?_, congrArg (save root)⟩
  have path : path a = path b := String.ofList_injective (congrArg FilePlace.name same)
  exact String.toList_injective (List.append_cancel_right path)

theorem save_ne_settings (root : Root) (id : String) : save root id ≠ root.settingsPlace := by
  intro same
  have folder : "battery" :: root.folder = root.folder := congrArg FilePlace.folder same
  exact absurd (congrArg List.length folder) (Nat.succ_ne_self _)

/-- The characters of the name of a file with saved memory. -/
def pathLetters : List Char := "0123456789abcdef.sv".toList

theorem path_subset {id : String} (h : Storage.IsIdentifier id) : path id ⊆ pathLetters := by
  have widen : "0123456789abcdef".toList ⊆ pathLetters := by decide
  have ending : ".sav".toList ⊆ pathLetters := by decide
  intro c mem
  cases List.mem_append.mp mem with
  | inl name => exact widen (h.2 name)
  | inr tail => exact ending tail

/-- Each of them takes one byte. -/
theorem byteCount_of_subset {cs : List Char} (all : cs ⊆ pathLetters) :
    Path.byteCount cs = cs.length := by
  have ascii : pathLetters.all (fun c => c.utf8Size = 1) := by decide
  induction cs with
  | nil => rfl
  | cons c cs ih =>
    obtain ⟨first, rest⟩ := List.cons_subset.mp all
    have size : c.utf8Size = 1 := of_decide_eq_true (List.all_eq_true.mp ascii c first)
    rw [Path.byteCount, size, ih rest, List.length_cons, Nat.add_comm]

theorem byteCount_append (cs ds : List Char) :
    Path.byteCount (cs ++ ds) = Path.byteCount cs + Path.byteCount ds := by
  induction cs with
  | nil => exact (Nat.zero_add _).symm
  | cons c cs ih => rw [List.cons_append, Path.byteCount, Path.byteCount, ih, Nat.add_assoc]

/-- The folder of saved memory has a path with room for a name of twelve bytes. -/
theorem pathToSaves_plain (root : Root) :
    '\x00' ∉ root.pathToSaves ∧ Path.byteCount root.pathToSaves + 12 ≤ Path.pathLimit := by
  have short := root.short
  have name : Path.byteCount "battery/".toList = 8 := by decide
  have slash : Path.byteCount ['/'] = 1 := by decide
  have none : Path.byteCount [] = 0 := rfl
  unfold Root.pathToSaves
  dsimp only
  rw [byteCount_append, byteCount_append, name, List.mem_append, List.mem_append]
  split_ifs
  · rw [none]
    exact ⟨by simp [root.plain], by omega⟩
  · rw [slash]
    exact ⟨by simp [root.plain], by omega⟩

/-- An identifier is the name of a file in the folder of saved memory, if there is that folder. -/
theorem locate_identifier (root : Root) {id : String} (h : Storage.IsIdentifier id) (t : Tree) :
    locate root t id = if t.hasFolder root.saves then .ok (save root id) else .error .missing := by
  have letters := path_subset h
  have size : Path.byteCount (path id) = 12 := by
    rw [byteCount_of_subset letters, path, List.length_append, h.1]
    rfl
  have slash : '/' ∉ path id := fun mem => absurd (letters mem) (by decide)
  have relative : isAbsolute (path id) = false := by
    rw [isAbsolute, decide_eq_false_iff_not]
    exact fun first => slash (List.mem_of_head? first)
  obtain ⟨plain, room⟩ := pathToSaves_plain root
  have full : fullPath root (path id) = root.pathToSaves ++ path id := by
    unfold fullPath
    rw [relative, if_neg Bool.false_ne_true]
  have zero : (root.pathToSaves ++ path id).contains '\x00' = false := by
    rw [Bool.eq_false_iff, Ne, List.contains_iff_mem, List.mem_append]
    rintro (mem | mem)
    · exact plain mem
    · exact absurd (letters mem) (by decide)
  have short : ¬ Path.pathLimit < Path.byteCount (root.pathToSaves ++ path id) := by
    rw [byteCount_append, size]
    exact Nat.not_lt.mpr room
  have name : ¬ Path.nameLimit < Path.byteCount (path id) := by
    rw [size]
    decide
  unfold locate
  dsimp only
  rw [names_of_not_mem slash, full, zero, relative, if_neg Bool.false_ne_true, if_neg short,
    if_neg Bool.false_ne_true]
  dsimp only [follow]
  rw [if_neg name]
  rfl

end FilePlace

namespace DirectoryStorage

open FilePlace (save)

/-- A storage that holds what the store holds. Without the folder there is no saved memory. -/
structure Holds (s : DirectoryStorage) (i : Ideal) : Prop where
  settings : s.readSettings = .ok i.settings
  ram : ∀ id, s.files.get? (save s.root id) = i.ram.lookup id
  folder : s.hasSaves = false → ∀ id, i.ram.lookup id = none

theorem readSettings_congr {s t : DirectoryStorage}
    (same : t.files.get? t.root.settingsPlace = s.files.get? s.root.settingsPlace) :
    t.readSettings = s.readSettings := by
  unfold readSettings
  rw [same]

/-! ### Saved memory under an identifier -/

section Identifier

variable {id : String} (proper : Storage.IsIdentifier id) (s : DirectoryStorage)

/-- Of the folders that there can be, that of saved memory is there or not. -/
theorem tree_hasFolder_saves : s.tree.hasFolder s.root.saves = s.hasSaves := by
  have inner : ¬ s.root.saves <:+ s.root.folder := by
    intro suffix
    exact absurd suffix.length_le (Nat.not_le.mpr (Nat.lt_succ_self _))
  unfold tree
  simp [inner]

include proper

theorem readSave_identifier :
    s.readSave id = .ok (if s.hasSaves then s.files.get? (save s.root id) else none) := by
  unfold readSave locate
  rw [FilePlace.locate_identifier s.root proper, tree_hasFolder_saves]
  cases s.hasSaves <;> rfl

theorem writeRam_identifier (bytes : Array UInt8) : s.writeRam id bytes =
    (.ok (), { s with files := s.files.put (save s.root id) bytes, hasSaves := true }) := by
  have made := tree_hasFolder_saves { s with hasSaves := true }
  unfold writeRam locate
  dsimp only at made ⊢
  rw [FilePlace.locate_identifier s.root proper, made]
  rfl

theorem deleteRam_identifier :
    s.deleteRam id =
      (.ok (), if s.hasSaves then { s with files := s.files.erase (save s.root id) } else s) := by
  unfold deleteRam locate
  rw [FilePlace.locate_identifier s.root proper, tree_hasFolder_saves]
  cases s.hasSaves <;> rfl

end Identifier

variable {s : DirectoryStorage} {i : Ideal}

theorem Holds.readSave (h : s.Holds i) {id : String} (proper : Storage.IsIdentifier id) :
    s.readSave id = .ok (i.ram.lookup id) := by
  rw [readSave_identifier proper]
  cases saves : s.hasSaves with
  | true => exact congrArg Except.ok (h.ram id)
  | false => exact congrArg Except.ok (h.folder saves id).symm

/-- It fills a memory as the store does. -/
theorem Holds.load (h : s.Holds i) {id : String} (proper : Storage.IsIdentifier id)
    (memory : Array UInt8) : (s.load id memory.toVector).map (fun (found, filled) =>
      (found, filled.toArray)) = .ok (i.fill id memory) := by
  unfold DirectoryStorage.load Ideal.fill
  rw [h.readSave proper]
  cases i.ram.lookup id with
  | none => rfl
  | some saved =>
    exact congrArg (fun filled => Except.ok (true, filled)) (Storage.copyFront_eq memory saved)

theorem Holds.writeSettings (h : s.Holds i) {settings : Settings} (proper : settings.Storable)
    (numeral : AudioSettings.VolumeReadsBack settings.audio.volume) :
    (s.putSettings settings.pretty.toUTF8.toList.toArray).Holds { i with settings := some settings } := by
  refine ⟨?_, fun id => ?_, h.folder⟩
  · unfold readSettings putSettings
    rw [Blobs.get?_put, if_pos rfl]
    dsimp only
    rw [Settings.pretty, proper.reads numeral (settings.value.pretty_spells 0)]
    rfl
  · unfold putSettings
    rw [Blobs.get?_put, if_neg (FilePlace.save_ne_settings s.root id).symm]
    exact h.ram id

theorem Holds.deleteSettings (h : s.Holds i) :
    { s with files := s.files.erase s.root.settingsPlace }.Holds { i with settings := none } := by
  refine ⟨?_, fun id => ?_, h.folder⟩
  · unfold readSettings
    rw [Blobs.get?_erase, if_pos rfl]
  · rw [Blobs.get?_erase, if_neg (FilePlace.save_ne_settings s.root id).symm]
    exact h.ram id

theorem Holds.writeRam (h : s.Holds i) (key : String) (bytes : Array UInt8) :
    Holds { s with files := s.files.put (save s.root key) bytes, hasSaves := true }
      { i with ram := i.ram.insert key bytes } := by
  refine ⟨?_, fun id => ?_, nofun⟩
  · rw [← h.settings]
    refine readSettings_congr ?_
    rw [Blobs.get?_put, if_neg (FilePlace.save_ne_settings s.root key)]
  · rw [Blobs.get?_put, Storage.lookup_insert_eq, h.ram]
    exact if_congr FilePlace.save_inj rfl rfl

theorem Holds.deleteRam (h : s.Holds i) (key : String) :
    (if s.hasSaves then { s with files := s.files.erase (save s.root key) } else s).Holds
      { i with ram := i.ram.erase key } := by
  cases saves : s.hasSaves with
  | true =>
    refine ⟨?_, fun id => ?_, nofun⟩
    · rw [← h.settings]
      refine readSettings_congr ?_
      rw [if_pos rfl, Blobs.get?_erase, if_neg (FilePlace.save_ne_settings s.root key)]
    · rw [if_pos rfl, Blobs.get?_erase, Storage.lookup_erase_eq, h.ram]
      exact if_congr FilePlace.save_inj rfl rfl
  | false =>
    have absent (id : String) : (i.ram.erase key).lookup id = none := by
      rw [Storage.lookup_erase_eq, h.folder saves, ite_self]
    refine ⟨h.settings, fun id => ?_, fun _ => absent⟩
    rw [absent id, ← h.folder saves id]
    exact h.ram id

theorem Holds.deleteAllRam (h : s.Holds i) : s.deleteAllRam.Holds { i with ram := ∅ } := by
  have kept (place : FilePlace) : s.deleteAllRam.files.get? place =
      if place.folder ≠ s.root.saves then s.files.get? place else none := by
    have filtered := Blobs.get?_filter s.files (fun place => place.folder ≠ s.root.saves) place
    show Blobs.get? (s.files.filter fun e => e.1.folder ≠ s.root.saves) place = _
    simpa only [decide_eq_true_eq] using filtered
  have outside : s.root.folder ≠ s.root.saves := fun same =>
    absurd (congrArg List.length same) (Nat.succ_ne_self _).symm
  refine ⟨?_, fun id => ?_, fun _ => Storage.lookup_empty_eq⟩
  · rw [← h.settings]
    refine readSettings_congr ?_
    rw [kept]
    exact if_pos outside
  · rw [kept, if_neg (fun other => other rfl)]
    exact (Storage.lookup_empty_eq id).symm

theorem Holds.perform {op : Operation} (h : s.Holds i) (allowed : op.Proper ∧ op.NumeralReadsBack) :
    (Storage.perform s op).1 = i.reply op ∧ (Storage.perform s op).2.Holds (i.after op) := by
  obtain ⟨proper, numeral⟩ := allowed
  cases op with
  | readSettings => exact ⟨congrArg Storage.Reply.settings h.settings, h⟩
  | writeSettings settings => exact ⟨rfl, h.writeSettings proper numeral⟩
  | deleteSettings => exact ⟨rfl, h.deleteSettings⟩
  | load id memory => exact ⟨congrArg Storage.Reply.memory (h.load proper memory), h⟩
  | writeRam key bytes =>
    have answer : Storage.writeRam s key bytes = _ := writeRam_identifier proper s bytes
    unfold Storage.perform
    dsimp only
    rw [answer]
    exact ⟨rfl, h.writeRam key bytes⟩
  | deleteRam key =>
    have answer : Storage.deleteRam s key = _ := deleteRam_identifier proper s
    unfold Storage.perform
    dsimp only
    rw [answer]
    exact ⟨rfl, h.deleteRam key⟩
  | deleteAllRam => exact ⟨rfl, h.deleteAllRam⟩

end DirectoryStorage

namespace Storage

/-- From their creation on, all storages reply to every row of operations as the store does. In that
store an operation on one identifier leaves the memory under the others alone, and one on saved memory
leaves the settings alone. The numeral of a volume is taken to read back as the volume. -/
theorem all_reply_alike (root : Root) {ops : List Operation} (proper : ∀ op ∈ ops, op.Proper)
    (numerals : ∀ op ∈ ops, op.NumeralReadsBack) :
    replies MemoryStorage.empty ops = Ideal.empty.replies ops ∧
      replies (DirectoryStorage.empty root) ops = Ideal.empty.replies ops ∧
      ∀ (i : Ideal) (op : Operation),
        (∀ id, ¬ op.Touches id → (i.after op).ram.lookup id = i.ram.lookup id) ∧
          (op.OnRam → (i.after op).settings = i.settings) := by
  have allowed (op : Operation) (mem : op ∈ ops) : op.Proper ∧ op.NumeralReadsBack :=
    ⟨proper op mem, numerals op mem⟩
  have inMemory : MemoryStorage.empty.Holds Ideal.empty :=
    ⟨rfl, fun id => (lookup_empty_eq id).symm⟩
  have inDirectory : (DirectoryStorage.empty root).Holds Ideal.empty :=
    ⟨rfl, fun id => (lookup_empty_eq id).symm, fun _ => lookup_empty_eq⟩
  refine ⟨replies_eq (fun h ok => h.perform ok) allowed inMemory,
    replies_eq (fun h ok => h.perform ok) allowed inDirectory,
    fun i op => ⟨fun id other => Ideal.after_ram other i, fun memory => Ideal.after_settings memory i⟩⟩

/-- Settings and three bytes are stored and looked for, and the bytes are deleted in between. -/
def storedAndFound : List Operation := [
  .writeSettings { audio := { volume := 0.25 } }, .writeRam "0badf00d" #[1, 2, 3],
  .load "0badf00d" #[7, 7, 7, 7], .load "deadbeef" #[7], .deleteAllRam, .load "0badf00d" #[7],
  .readSettings]

def playerRoot : Root where
  folder := ["saves", "player", "home"]
  path := "/home/player/saves".toList
  plain := by decide
  short := by decide

/-- A memory of four bytes keeps its last one, and behind the deletion the settings are still there. -/
theorem stored_and_found :
    let found : List Reply := [.done (.ok ()), .done (.ok ()), .memory (.ok (true, #[1, 2, 3, 7])),
      .memory (.ok (false, #[7])), .done (.ok ()), .memory (.ok (false, #[7])),
      .settings (.ok (some { audio := { volume := 0.25 } }))]
    replies MemoryStorage.empty storedAndFound = found ∧
      replies (DirectoryStorage.empty playerRoot) storedAndFound = found := by
  intro found
  have first : IsIdentifier "0badf00d" := by
    unfold IsIdentifier
    decide +kernel
  have second : IsIdentifier "deadbeef" := by
    unfold IsIdentifier
    decide +kernel
  have finite : (0.25 : Float32).isFinite = true := by decide +kernel
  have proper : ∀ op ∈ storedAndFound, op.Proper := by
    unfold storedAndFound
    simp only [List.forall_mem_cons]
    exact ⟨⟨by decide, finite⟩, first, first, second, trivial, first, trivial, List.forall_mem_nil _⟩
  have numerals : ∀ op ∈ storedAndFound, op.NumeralReadsBack := by
    unfold storedAndFound
    simp only [List.forall_mem_cons]
    exact ⟨AudioSettings.quarter_readsBack, trivial, trivial, trivial, trivial, trivial, trivial,
      List.forall_mem_nil _⟩
  have ideal : Ideal.empty.replies storedAndFound = found := by
    have others : ("0badf00d" : String) ≠ "deadbeef" := by decide
    simp only [storedAndFound, Ideal.replies, Ideal.reply, Ideal.after, Ideal.fill, Ideal.empty,
      lookup_insert_eq, lookup_empty_eq, if_true, if_neg others]
    rfl
  obtain ⟨inMemory, inDirectory, -⟩ := all_reply_alike playerRoot proper numerals
  exact ⟨inMemory.trans ideal, inDirectory.trans ideal⟩

end Storage

end Famiclone
