import Famiclone.Decimal.Single
import Famiclone.Json.Printer
import Famiclone.Json.Record
import Famiclone.Settings

/-!
# Settings as text

Settings are kept as JSON objects. Fields that a text leaves out have their default values; fields
it does not know are passed over.
-/
namespace Famiclone

open Json (Reader Value)

/-- The names of the regions that can be asked for. -/
def RegionChoice.words : List (String × RegionChoice) :=
  [("auto", .auto), ("ntsc", .ntsc), ("pal", .pal)]

def RegionChoice.name : RegionChoice → String
  | auto => "auto"
  | ntsc => "ntsc"
  | pal => "pal"

def RegionChoice.reader : Reader RegionChoice := Json.choice words

/-- The names of the kinds of devices. -/
def DeviceKind.words : List (String × DeviceKind) := [("joypad", .joypad), ("zapper", .zapper)]

def DeviceKind.reader : Reader (Option DeviceKind) := Json.optional (Json.choice words)

def DeviceKind.value : Option DeviceKind → Value
  | some kind => .string kind.name
  | none => .null

namespace ChannelSwitches

def fields : List (Json.Field ChannelSwitches) := [
  ⟨"pulse1", fun s => return { s with pulse1 := ← Json.bool }⟩,
  ⟨"pulse2", fun s => return { s with pulse2 := ← Json.bool }⟩,
  ⟨"triangle", fun s => return { s with triangle := ← Json.bool }⟩,
  ⟨"noise", fun s => return { s with noise := ← Json.bool }⟩,
  ⟨"dmc", fun s => return { s with delta := ← Json.bool }⟩]

def value (s : ChannelSwitches) : Value := .object [
  ("pulse1", .bool s.pulse1), ("pulse2", .bool s.pulse2), ("triangle", .bool s.triangle),
  ("noise", .bool s.noise), ("dmc", .bool s.delta)]

end ChannelSwitches

namespace AudioSettings

def fields : List (Json.Field AudioSettings) := [
  ⟨"enabled", fun s => return { s with enabled := ← Json.bool }⟩,
  ⟨"sample_rate", fun s => return { s with sampleRate := ← Json.natBelow UInt32.size }⟩,
  ⟨"volume", fun s => return { s with volume := ← Json.single }⟩,
  ⟨"channels", fun s => return { s with channels := ← Json.record ChannelSwitches.fields {} }⟩]

def reader : Reader AudioSettings := Json.record fields {}

/-- A volume as a value; one that is not finite has no numeral. -/
def volumeValue (volume : Float32) : Value :=
  match Decimal.singleText? volume with
  | some text => .number text
  | none => .null

def value (s : AudioSettings) : Value := .object [
  ("enabled", .bool s.enabled), ("sample_rate", .number (toString s.sampleRate)),
  ("volume", volumeValue s.volume), ("channels", s.channels.value)]

end AudioSettings

namespace DeviceSettings

def fields : List (Json.Field DeviceSettings) := [
  ⟨"port1", fun s => return { s with port1 := ← DeviceKind.reader }⟩,
  ⟨"port2", fun s => return { s with port2 := ← DeviceKind.reader }⟩]

def value (s : DeviceSettings) : Value := .object [
  ("port1", DeviceKind.value s.port1), ("port2", DeviceKind.value s.port2)]

end DeviceSettings

namespace Settings

def fields : List (Json.Field Settings) := [
  ⟨"region", fun s => return { s with region := ← RegionChoice.reader }⟩,
  ⟨"strict_opcodes", fun s => return { s with strictOpcodes := ← Json.bool }⟩,
  ⟨"audio", fun s => return { s with audio := ← AudioSettings.reader }⟩,
  ⟨"devices", fun s => return { s with devices := ← Json.record DeviceSettings.fields {} }⟩]

def reader : Reader Settings := Json.record fields {}

/-- The settings that a text in UTF-8 bytes holds. -/
def ofBytes (bytes : List UInt8) : Except Json.Fault Settings := Json.readAll reader bytes

def value (s : Settings) : Value := .object [
  ("region", .string s.region.name), ("strict_opcodes", .bool s.strictOpcodes),
  ("audio", s.audio.value), ("devices", s.devices.value)]

/-- The settings in one line. -/
def compact (s : Settings) : String := s.value.compact

/-- The settings over several lines. -/
def pretty (s : Settings) : String := s.value.pretty 0

end Settings

end Famiclone
