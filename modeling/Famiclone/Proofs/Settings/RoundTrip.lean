import Famiclone.Proofs.Json.Numbers
import Famiclone.Proofs.Json.Records
import Famiclone.Storage.Directory
import Famiclone.Storage.Memory

/-!
# Settings that are written and read again

Settings that have been read from some text are written as text, and that text is read again. All of
them come back but for one field: a volume that is too large for its type has become infinite, an
infinite number has no numeral, and what is written in its place is refused as a number.
-/
namespace Famiclone

open Json (ReadsAs Filled Yields)

namespace RegionChoice

theorem reader_readsAs (r : RegionChoice) : ReadsAs reader (.string r.name) (.ok r) := by
  have hdistinct : (words.map fun c => Json.asciiBytes c.1).Nodup := by decide +kernel
  have hplain : Json.Plain r.name := by cases r <;> decide +kernel
  exact Json.choice_readsAs hdistinct hplain (by cases r <;> simp [words, name])

end RegionChoice

namespace DeviceKind

theorem reader_readsAs (d : Option DeviceKind) : ReadsAs reader (value d) (.ok d) := by
  have hdistinct : (words.map fun c => Json.asciiBytes c.1).Nodup := by decide +kernel
  cases d with
  | none => exact Json.optional_null _
  | some kind =>
    have hplain : Json.Plain kind.name := by cases kind <;> decide +kernel
    exact Json.optional_string hplain
      (Json.choice_readsAs hdistinct hplain (by cases kind <;> simp [words, name]))

end DeviceKind

/-! ## Records -/

theorem ChannelSwitches.record_readsAs (s start : ChannelSwitches) :
    ReadsAs (Json.record fields start) s.value (.ok s) := by
  have hfilled : Filled fields [("pulse1", .bool s.pulse1), ("pulse2", .bool s.pulse2),
      ("triangle", .bool s.triangle), ("noise", .bool s.noise), ("dmc", .bool s.delta)] start (.ok s) :=
    .field ((Json.bool_readsAs s.pulse1).map _) <|
    .field ((Json.bool_readsAs s.pulse2).map _) <|
    .field ((Json.bool_readsAs s.triangle).map _) <|
    .field ((Json.bool_readsAs s.noise).map _) <|
    .field ((Json.bool_readsAs s.delta).map _) <|
    .done s
  exact Json.record_readsAs (by decide +kernel) hfilled

theorem DeviceSettings.record_readsAs (s start : DeviceSettings) :
    ReadsAs (Json.record fields start) s.value (.ok s) := by
  have hfilled : Filled fields [("port1", DeviceKind.value s.port1), ("port2", DeviceKind.value s.port2)]
      start (.ok s) :=
    .field ((DeviceKind.reader_readsAs s.port1).map _) <|
    .field ((DeviceKind.reader_readsAs s.port2).map _) <|
    .done s
  exact Json.record_readsAs (by decide +kernel) hfilled

namespace AudioSettings

/-- A volume that has a numeral is what is read from the numeral. -/
def VolumeReadsBack (volume : Float32) : Prop :=
  ∀ numeral, Decimal.singleText? volume = some numeral →
    Json.single numeral.toUTF8.toList = .ok (volume, [])

theorem quarter_readsBack : VolumeReadsBack 0.25 := by
  intro numeral h
  have htext : Decimal.singleText? 0.25 = some "0.25" := by decide +kernel
  obtain rfl : "0.25" = numeral := by simpa [htext] using h
  decide +kernel

theorem volumeValue_readsAs {volume : Float32} (hfinite : volume.isFinite = true)
    (h : VolumeReadsBack volume) : ReadsAs Json.single (volumeValue volume) (.ok volume) := by
  rw [← Decimal.singleText?_isSome] at hfinite
  obtain ⟨numeral, hnumeral⟩ := Option.isSome_iff_exists.mp hfinite
  rw [volumeValue, hnumeral]
  exact Json.single_readsAs (Json.toUTF8_toList numeral ▸ h numeral hnumeral)

/-- What stands for a volume without a numeral is no number. -/
theorem volumeValue_refused {volume : Float32} (hfinite : volume.isFinite = false) :
    ReadsAs Json.single (volumeValue volume) (.error .mismatch) := by
  rw [← Decimal.singleText?_isSome, Option.isSome_eq_false_iff, Option.isNone_iff_eq_none] at hfinite
  rw [volumeValue, hfinite]
  exact Json.single_null

theorem record_readsAs (s start : AudioSettings) (hrate : s.sampleRate < UInt32.size)
    (hvolume : VolumeReadsBack s.volume) :
    ReadsAs (Json.record fields start) s.value
      (if s.volume.isFinite then .ok s else .error .mismatch) := by
  have hlimit : UInt32.size ≤ UInt64.size := by decide
  have hfilled : Filled fields [("enabled", .bool s.enabled), ("sample_rate", .number (toString s.sampleRate)),
      ("volume", volumeValue s.volume), ("channels", s.channels.value)] start
      (if s.volume.isFinite then .ok s else .error .mismatch) := by
    refine .field ((Json.bool_readsAs s.enabled).map _) ?_
    refine .field ((Json.natBelow_readsAs hrate hlimit).map _) ?_
    cases hfinite : s.volume.isFinite with
    | true =>
      refine .field ((volumeValue_readsAs hfinite hvolume).map _) ?_
      exact .field ((s.channels.record_readsAs {}).map _) (.done s)
    | false => exact .fault ((volumeValue_refused hfinite).map _)
  exact Json.record_readsAs (by decide +kernel) hfilled

/-- Every sample rate that is read fits in 32 bits. -/
theorem reader_yields : Yields reader fun s => s.sampleRate < UInt32.size := by
  refine Json.record_yields (fun f hf s hs => ?_) (by decide)
  simp only [fields, List.mem_cons, List.not_mem_nil, or_false] at hf
  rcases hf with rfl | rfl | rfl | rfl
  · exact .behind fun _ => .pure hs
  · exact .bind (Json.natBelow_yields _) fun _ hrate => .pure hrate
  · exact .behind fun _ => .pure hs
  · exact .behind fun _ => .pure hs

end AudioSettings

namespace Settings

/-- What is read where the settings have been written. -/
def readBack (s : Settings) : Except Json.Fault Settings :=
  if s.audio.volume.isFinite then .ok s else .error .mismatch

theorem reader_readsAs (s : Settings) (hrate : s.audio.sampleRate < UInt32.size)
    (hvolume : AudioSettings.VolumeReadsBack s.audio.volume) : ReadsAs reader s.value s.readBack := by
  have haudio := s.audio.record_readsAs {} hrate hvolume
  have hfilled : Filled fields [("region", .string s.region.name), ("strict_opcodes", .bool s.strictOpcodes),
      ("audio", s.audio.value), ("devices", s.devices.value)] {} s.readBack := by
    refine .field ((RegionChoice.reader_readsAs s.region).map _) ?_
    refine .field ((Json.bool_readsAs s.strictOpcodes).map _) ?_
    rw [readBack]
    cases hfinite : s.audio.volume.isFinite with
    | true =>
      rw [hfinite] at haudio
      exact .field (haudio.map _) (.field ((s.devices.record_readsAs {}).map _) (.done s))
    | false =>
      rw [hfinite] at haudio
      exact .fault (haudio.map _)
  exact Json.record_readsAs (by decide +kernel) hfilled

theorem reader_yields : Yields reader fun s => s.audio.sampleRate < UInt32.size := by
  refine Json.record_yields (fun f hf s hs => ?_) (by decide)
  simp only [fields, List.mem_cons, List.not_mem_nil, or_false] at hf
  rcases hf with rfl | rfl | rfl | rfl
  · exact .behind fun _ => .pure hs
  · exact .behind fun _ => .pure hs
  · exact .bind AudioSettings.reader_yields fun _ hrate => .pure hrate
  · exact .behind fun _ => .pure hs

/-- Settings whose sample rate has 32 bits are read from every spelling of them. -/
theorem ofBytes_of_spells {s : Settings} (hrate : s.audio.sampleRate < UInt32.size)
    (hvolume : AudioSettings.VolumeReadsBack s.audio.volume) {written : String}
    (hwritten : s.value.Spells (Json.utf8 written)) : ofBytes written.toUTF8.toList = s.readBack := by
  have hread := reader_readsAs s hrate hvolume _ hwritten [] [] Json.Blank.nil (by simp [Json.Stops])
  rw [List.nil_append, List.append_nil] at hread
  rw [Json.toUTF8_toList, ofBytes, Json.readAll, hread]
  cases s.readBack <;> rfl

/-- Settings that come from a text are read from every spelling of them. -/
theorem ofBytes_spelling {text : List UInt8} {s : Settings} (hs : ofBytes text = .ok s)
    (hvolume : AudioSettings.VolumeReadsBack s.audio.volume) {written : String}
    (hwritten : s.value.Spells (Json.utf8 written)) : ofBytes written.toUTF8.toList = s.readBack :=
  ofBytes_of_spells (reader_yields.of_readAll hs) hvolume hwritten

end Settings

/-! ## Storages -/

/-- Every storage takes the settings, and this is what is read from it afterwards. -/
def Storage.ReadsBack (σ : Type) [Storage σ] (s : Settings)
    (result : Except StorageError (Option Settings)) : Prop :=
  ∀ storage : σ, ∃ after, writeSettings storage s = (.ok (), after) ∧ readSettings after = result

/-- Settings that have been read from some text come back from both storages as they are, unless
their volume is infinite. -/
theorem Settings.survive_saving {text : List UInt8} {s : Settings} (hs : ofBytes text = .ok s)
    (hvolume : AudioSettings.VolumeReadsBack s.audio.volume) :
    Storage.ReadsBack MemoryStorage s
        (if s.audio.volume.isFinite then .ok (some s) else .error (.unreadable .mismatch)) ∧
      Storage.ReadsBack DirectoryStorage s
        (if s.audio.volume.isFinite then .ok (some s) else .error (.unreadable .mismatch)) := by
  have hresult : (s.readBack.map some).mapError StorageError.unreadable =
      if s.audio.volume.isFinite then .ok (some s) else .error (.unreadable .mismatch) := by
    rw [readBack]
    split <;> rfl
  have hcompact : ofBytes s.compact.toUTF8.toList = s.readBack :=
    ofBytes_spelling hs hvolume s.value.compact_spells
  have hpretty : ofBytes s.pretty.toUTF8.toList = s.readBack :=
    ofBytes_spelling hs hvolume (s.value.pretty_spells 0)
  rw [← hresult]
  refine ⟨fun storage => ⟨_, rfl, ?_⟩, fun storage => ⟨_, rfl, ?_⟩⟩
  · simp only [Storage.readSettings, MemoryStorage.readSettings, hcompact]
  · simp only [Storage.readSettings, DirectoryStorage.readSettings, DirectoryStorage.putSettings,
      Blobs.get?_put, if_true, hpretty]

instance exceptDecidableEq {ε α : Type} [DecidableEq ε] [DecidableEq α] : DecidableEq (Except ε α)
  | .ok a, .ok b => decidable_of_iff (a = b) ⟨congrArg Except.ok, Except.ok.inj⟩
  | .error e, .error f => decidable_of_iff (e = f) ⟨congrArg Except.error, Except.error.inj⟩
  | .ok _, .error _ | .error _, .ok _ => isFalse nofun

deriving instance DecidableEq for AudioSettings, Settings

/-- A quarter of the volume comes back; ten to the power of 39 is read as an infinite volume, and
nothing comes back. -/
theorem Settings.quarter_survives_infinite_is_lost :
    let quarter : Settings := { audio := { volume := 0.25 } }
    let infinite : Settings := { audio := { volume := .ofBits 0x7F800000 } }
    ofBytes "\x7b\"audio\":\x7b\"volume\":0.25\x7d\x7d".toUTF8.toList = .ok quarter ∧
      ofBytes "\x7b\"audio\":\x7b\"volume\":1e39\x7d\x7d".toUTF8.toList = .ok infinite ∧
      Storage.ReadsBack MemoryStorage quarter (.ok (some quarter)) ∧
      Storage.ReadsBack DirectoryStorage infinite (.error (.unreadable .mismatch)) := by
  intro quarter infinite
  have hquarter : ofBytes "\x7b\"audio\":\x7b\"volume\":0.25\x7d\x7d".toUTF8.toList = .ok quarter := by
    decide +kernel
  have hinfinite : ofBytes "\x7b\"audio\":\x7b\"volume\":1e39\x7d\x7d".toUTF8.toList = .ok infinite := by
    decide +kernel
  have hnumeral : AudioSettings.VolumeReadsBack quarter.audio.volume := AudioSettings.quarter_readsBack
  have hnone : AudioSettings.VolumeReadsBack infinite.audio.volume := by
    intro numeral h
    have htext : Decimal.singleText? infinite.audio.volume = none := by decide +kernel
    simp [htext] at h
  have hkept := survive_saving hquarter hnumeral
  have hlost := survive_saving hinfinite hnone
  rw [if_pos (by decide +kernel)] at hkept
  rw [if_neg (by decide +kernel)] at hlost
  exact ⟨hquarter, hinfinite, hkept.1, hlost.2⟩

end Famiclone
