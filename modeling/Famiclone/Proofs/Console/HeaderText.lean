import Famiclone.Proofs.Board.WorkRam
import Famiclone.Proofs.Cartridge.Acceptance
import Famiclone.Proofs.Console.Configuration

/-!
# Text in the header

Many old images carry text from the eighth byte of the header on. The header of such an image is read
without its eighth byte, but the ninth is still taken for the size of the work RAM and the tenth for the
region. So what the text says matters for these two and for nothing else.
-/
namespace Famiclone

namespace Image

variable {first second : Array UInt8}

/-- Two images differ in bytes 7 to 15 at most, where text may stand. -/
structure AlikeButText (first second : Array UInt8) : Prop where
  size : second.size = first.size
  outside : ∀ place, place < 7 ∨ 16 ≤ place → second[place]? = first[place]?

theorem AlikeButText.byte (alike : AlikeButText first second) {place : Nat} (early : place < 7) :
    byte second place = byte first place := by
  simp [Image.byte, Array.getD_eq_getD_getElem?, alike.outside place (.inl early)]

/-- The memory behind the header is the same. -/
theorem AlikeButText.extract (alike : AlikeButText first second) {start : Nat} (behind : 16 ≤ start)
    (stop : Nat) : second.extract start stop = first.extract start stop := by
  ext place inside inside'
  · simp [alike.size]
  · have same := alike.outside (start + place) (.inr (by omega))
    rw [Array.size_extract] at inside inside'
    rw [Array.getElem?_eq_getElem (by omega), Array.getElem?_eq_getElem (by omega)] at same
    rw [Array.getElem_extract, Array.getElem_extract, Option.some_inj.mp same]

end Image

/-! ## Headers -/

namespace Header

open Image

/-- The header of an image that carries text. -/
def underText (image : Array UInt8) : Header where
  prgUnits := byte image 4
  chrUnits := byte image 5
  flags6 := image.getD 6 0
  flags7 := 0
  byte8 := image.getD 8 0
  byte9 := image.getD 9 0
  byte10 := image.getD 10 0
  byte11 := image.getD 11 0
  byte12 := image.getD 12 0

theorem parse_underText {image : Array UInt8} (header : 16 ≤ image.size)
    (magic : [0, 1, 2, 3].map (byte image) = ['N'.toNat, 'E'.toNat, 'S'.toNat, 0x1A])
    (text : CarriesText image) : parse image = .ok (underText image) := by
  have long : ¬ image.size < size := Nat.not_lt.mpr header
  have found := (magic_iff header (by omega) (by omega) (by omega) (by omega)).mpr magic
  have get (place : Nat) (inside : place < 16) : image.getD place 0 = image[place] := by
    simp [Array.getD, show place < image.size by omega]
  unfold parse
  rw [dif_neg long]
  dsimp only
  rw [if_neg (not_not.mpr found), carriesText_eq header, extended_eq]
  simp [text, text.1, underText, get, byte]

/-- The eighth byte is not there, so the layout is the old one. -/
theorem extended_underText (image : Array UInt8) : (underText image).extended = false := by
  have old : announcesExtended 0 = false := by decide
  exact old

theorem workRamSize_underText (image : Array UInt8) :
    (underText image).workRamSize = max (byte image 8) 1 * 0x2000 := by
  rw [workRamSize, extended_underText]
  simp [underText, byte]

theorem lowestBit_iff : ∀ b : UInt8, (b &&& 0x01 != 0) = true ↔ b.toNat % 2 = 1 := by
  decide +kernel

theorem regionHint_underText (image : Array UInt8) :
    (underText image).regionHint = if byte image 9 % 2 = 1 then some .pal else none := by
  rw [regionHint, extended_underText, if_neg Bool.false_ne_true]
  exact if_congr (lowestBit_iff _) rfl rfl

/-- Two headers agree in all but the size of the work RAM and the region. -/
structure AlikeButText (h k : Header) : Prop where
  number : k.mapper = h.mapper
  variant : k.submapper = h.submapper
  program : k.prgUnits = h.prgUnits
  patterns : k.chrUnits = h.chrUnits
  patternRam : k.chrRamSize = h.chrRamSize
  mirroring : k.mirroring = h.mirroring
  battery : k.hasBattery = h.hasBattery
  trainer : k.hasTrainer = h.hasTrainer

variable {h k : Header}

theorem underText_alike {first second : Array UInt8} (alike : Image.AlikeButText first second) :
    (underText first).AlikeButText (underText second) := by
  have flags : (underText second).flags6 = (underText first).flags6 := by
    simp [underText, Array.getD_eq_getD_getElem?, alike.outside 6 (by decide)]
  have old := extended_underText first
  have old' := extended_underText second
  refine ⟨?_, ?_, alike.byte (by decide), alike.byte (by decide), ?_, ?_, ?_, ?_⟩
  · have eighth (image : Array UInt8) : (underText image).flags7 = 0 := rfl
    rw [mapper, mapper, old, old', flags, eighth, eighth]
    simp
  · simp [submapper, old, old']
  · simp [chrRamSize, declaredChrRam, old, old']
  · rw [mirroring, mirroring, flags]
  · rw [hasBattery, hasBattery, flags]
  · rw [hasTrainer, hasTrainer, flags]

namespace AlikeButText

theorem prgStart (alike : h.AlikeButText k) : k.prgStart = h.prgStart := by
  rw [Header.prgStart, Header.prgStart, alike.trainer]

theorem chrStart (alike : h.AlikeButText k) : k.chrStart = h.chrStart := by
  rw [Header.chrStart, Header.chrStart, prgSize, prgSize, alike.prgStart, alike.program]

theorem romEnd (alike : h.AlikeButText k) : k.romEnd = h.romEnd := by
  rw [Header.romEnd, Header.romEnd, chrSize, chrSize, alike.chrStart, alike.patterns]

/-- The same memory is mounted, up to the size of the work RAM. -/
theorem mount (alike : h.AlikeButText k) (prg chr : Array UInt8) :
    Banks.mount k prg chr =
      { Banks.mount h prg chr with workRam := Array.replicate k.workRamSize 0 } := by
  simp only [Banks.mount, alike.patternRam, alike.battery]
  rfl

end AlikeButText

end Header

/-! ## Cartridges -/

/-- How a chip sets the windows does not depend on the work RAM. -/
theorem Mmc1.update_setWork (b : Mmc1) (work : Array UInt8) :
    { b with banks := { b.banks with workRam := work } }.update =
      { b.update with banks := { b.update.banks with workRam := work } } := by
  simp only [update, selectPrg, selectChr]
  split <;> split <;> rfl

theorem Mmc3.update_setWork (b : Mmc3) (work : Array UInt8) :
    { b with banks := { b.banks with workRam := work } }.update =
      { b.update with banks := { b.update.banks with workRam := work } } := by
  simp only [update, selectPrg, selectChr]
  split <;> rfl

theorem Mmc1.mount_setWork (m : Banks) (work : Array UInt8) :
    mount { m with workRam := work } =
      { mount m with banks := { (mount m).banks with workRam := work } } := by
  rw [mount, mount, ← update_setWork]

theorem Mmc3.mount_setWork (m : Banks) (wired : Mirroring) (work : Array UInt8) :
    mount { m with workRam := work } wired =
      { mount m wired with banks := { (mount m wired).banks with workRam := work } } := by
  rw [mount, mount, ← update_setWork]

/-- How a board is mounted does not depend on its work RAM. -/
theorem Board.ofMapper?_setWork (number : Nat) (wired : Mirroring) (m : Banks) (work : Array UInt8) :
    ofMapper? number wired { m with workRam := work } =
      (ofMapper? number wired m).map (mapWorkRam fun _ => work) := by
  unfold ofMapper?
  split
  case h_2 => simp [mapWorkRam, mapBanks, Mmc1.mount_setWork]
  case h_5 => simp [mapWorkRam, mapBanks, Mmc3.mount_setWork]
  all_goals rfl

namespace Cartridge

open Image

variable {first second : Array UInt8} {c d : Cartridge}

/-- The same cartridge, up to the size of its work RAM and its region. -/
structure LoadedAlike (c d : Cartridge) : Prop where
  header : c.header.AlikeButText d.header
  id : d.id = c.id
  board : d.board = c.board.mapWorkRam fun _ => Array.replicate d.header.workRamSize 0

/-- With headers that agree in all but text two images are refused for the same error, or they hold the
same cartridge. -/
theorem ofImage_of_headers {h k : Header} (alike : Image.AlikeButText first second)
    (parsed : Header.parse first = .ok h) (parsed' : Header.parse second = .ok k)
    (same : h.AlikeButText k) :
    (∃ e, ofImage first = .error e ∧ ofImage second = .error e) ∨
      ∃ c d, ofImage first = .ok c ∧ ofImage second = .ok d ∧ c.header = h ∧ d.header = k ∧
        c.LoadedAlike d := by
  have behind : 16 ≤ h.prgStart := Nat.le_add_right _ _
  have behind' : 16 ≤ h.chrStart := behind.trans (Nat.le_add_right _ _)
  rw [ofImage, ofImage, ofImageBy_of_parsed parsed, ofImageBy_of_parsed parsed', same.program, same.romEnd, same.prgStart,
    same.chrStart, same.number, same.mirroring, alike.size, alike.extract behind,
    alike.extract behind, alike.extract behind', same.mount,
    Board.ofMapper?_setWork h.mapper h.mirroring (Banks.mount h _ _) (.replicate k.workRamSize 0)]
  by_cases program : h.prgUnits = 0
  · exact .inl ⟨_, if_pos program, if_pos program⟩
  rw [if_neg program, if_neg program]
  by_cases cut : first.size < h.romEnd
  · exact .inl ⟨_, if_pos cut, if_pos cut⟩
  rw [if_neg cut, if_neg cut]
  cases Board.ofMapper? h.mapper h.mirroring (.mount h (first.extract h.prgStart h.chrStart)
    (first.extract h.chrStart h.romEnd)) with
  | none => exact .inl ⟨_, rfl, rfl⟩
  | some board => exact .inr ⟨_, _, rfl, rfl, rfl, rfl, same, rfl, rfl⟩

/-- Two images that differ in their texts are refused for the same error, or they hold the same
cartridge. -/
theorem ofImage_alike (alike : Image.AlikeButText first second) (text : CarriesText first)
    (text' : CarriesText second) :
    (∃ e, ofImage first = .error e ∧ ofImage second = .error e) ∨
      ∃ c d, ofImage first = .ok c ∧ ofImage second = .ok d ∧ c.header = .underText first ∧
        d.header = .underText second ∧ c.LoadedAlike d := by
  have magic : [0, 1, 2, 3].map (byte second) = [0, 1, 2, 3].map (byte first) := by
    refine List.map_congr_left fun place inside => alike.byte ?_
    simp only [List.mem_cons, List.not_mem_nil, or_false] at inside
    omega
  have refused {e : LoadError} (bad : Header.parse first = .error e)
      (bad' : Header.parse second = .error e) :
      ∃ e, ofImage first = .error e ∧ ofImage second = .error e := by
    refine ⟨e, ?_, ?_⟩
    · rw [ofImage, ofImageBy, bad]
      rfl
    · rw [ofImage, ofImageBy, bad']
      rfl
  by_cases header : 16 ≤ first.size
  · have header' : 16 ≤ second.size := alike.size ▸ header
    by_cases marked : [0, 1, 2, 3].map (byte first) = ['N'.toNat, 'E'.toNat, 'S'.toNat, 0x1A]
    · exact ofImage_of_headers alike (Header.parse_underText header marked text)
        (Header.parse_underText header' (magic.trans marked) text') (Header.underText_alike alike)
    · exact .inl (refused (Header.parse_unmarked header marked)
        (Header.parse_unmarked header' (magic ▸ marked)))
  · have short := Nat.not_le.mp header
    have short' : second.size < 16 := alike.size ▸ short
    have bad' := Header.parse_short short'
    rw [alike.size] at bad'
    exact .inl (refused (Header.parse_short short) bad')

/-! ## What the text matters for -/

theorem insert_region (console : Console) (c : Cartridge) :
    (console.insert c).region = console.settings.region.resolve c.header.regionHint := by
  rw [Console.insert_eq]
  exact (Console.fixture_eq_iff.mp (console.fill_fixture c)).2.1

theorem workRamSize_eq_iff :
    (Header.underText second).workRamSize = (Header.underText first).workRamSize ↔
      max (byte second 8) 1 = max (byte first 8) 1 := by
  rw [Header.workRamSize_underText, Header.workRamSize_underText]
  omega

theorem regionHint_eq_iff :
    (Header.underText second).regionHint = (Header.underText first).regionHint ↔
      byte second 9 % 2 = byte first 9 % 2 := by
  rw [Header.regionHint_underText, Header.regionHint_underText]
  split <;> split <;> simp <;> omega

theorem resolve_eq_iff (choice : RegionChoice) :
    choice.resolve (Header.underText second).regionHint =
        choice.resolve (Header.underText first).regionHint ↔
      (choice = .auto → byte second 9 % 2 = byte first 9 % 2) := by
  cases choice with
  | ntsc => simp [RegionChoice.resolve]
  | pal => simp [RegionChoice.resolve]
  | auto =>
    rw [Header.regionHint_underText, Header.regionHint_underText]
    split <;> split <;> simp [RegionChoice.resolve] <;> omega

/-- A fresh board has nothing but zeros in its work RAM. -/
theorem Accepted.cleared {image : Array UInt8} (known : Accepted image c) :
    (c.board.mapWorkRam fun _ => Array.replicate c.header.workRamSize 0) = c.board := by
  have told := congrArg (Option.map (Board.mapWorkRam fun _ => .replicate c.header.workRamSize 0))
    known.board
  rw [← Board.ofMapper?_setWork] at told
  -- The memory that is mounted has been cleared already.
  exact Option.some_inj.mp (told.symm.trans known.board)

/-- The board is the same if and only if it has as much work RAM. -/
theorem LoadedAlike.board_eq_iff (alike : c.LoadedAlike d) (accepted : ofImage first = .ok c)
    (accepted' : ofImage second = .ok d) :
    d.board = c.board ↔ d.header.workRamSize = c.header.workRamSize := by
  obtain ⟨m, found, size⟩ := Board.workRam_of_course accepted .refl
  obtain ⟨n, found', size'⟩ := Board.workRam_of_course accepted' .refl
  constructor
  · intro same
    rw [same, found, Option.some_inj] at found'
    rw [← size, ← size', found']
  · intro same
    rw [alike.board, same, (ofImage_accepted accepted).cleared]

/-- Two images that carry text and differ in nothing else are refused for the same error, or they hold the
same cartridge up to the size of the work RAM and the region. The ninth byte decides on the one and the
tenth on the other, as if they were not text. -/
theorem text_outcome (alike : Image.AlikeButText first second) (text : CarriesText first)
    (text' : CarriesText second) :
    (∀ e, ofImage second = .error e ↔ ofImage first = .error e) ∧
    ∀ c d, ofImage first = .ok c → ofImage second = .ok d →
      c.LoadedAlike d ∧
      (d.header.workRamSize = c.header.workRamSize ↔ max (byte second 8) 1 = max (byte first 8) 1) ∧
      (d.board = c.board ↔ max (byte second 8) 1 = max (byte first 8) 1) ∧
      (d.header.regionHint = c.header.regionHint ↔ byte second 9 % 2 = byte first 9 % 2) ∧
      ∀ console : Console, (console.insert d).region = (console.insert c).region ↔
        (console.settings.region = .auto → byte second 9 % 2 = byte first 9 % 2) := by
  rcases ofImage_alike alike text text' with ⟨e, refused, refused'⟩ |
    ⟨c, d, accepted, accepted', header, header', same⟩
  · simp [refused, refused']
  · refine ⟨by simp [accepted, accepted'], ?_⟩
    intro c' d' loaded loaded'
    obtain rfl : c = c' := Except.ok.inj (accepted.symm.trans loaded)
    obtain rfl : d = d' := Except.ok.inj (accepted'.symm.trans loaded')
    rw [same.board_eq_iff accepted accepted', header, header']
    refine ⟨same, workRamSize_eq_iff, workRamSize_eq_iff, regionHint_eq_iff, fun console => ?_⟩
    rw [insert_region, insert_region, header, header']
    exact resolve_eq_iff console.settings.region

def titledImage (title : List UInt8) : Array UInt8 :=
  ([0x4E, 0x45, 0x53, 0x1A, 2, 1, 0] ++ title).toArray ++ Array.replicate 0xA000 0

theorem byte_titledImage {title : List UInt8} (whole : title.length = 9) {place : Nat}
    (inside : place < 16) :
    byte (titledImage title) place =
      (([0x4E, 0x45, 0x53, 0x1A, 2, 1, 0] ++ title)[place]?.getD 0).toNat := by
  rw [byte, Array.getD_eq_getD_getElem?, titledImage,
    Array.getElem?_append_left (by simp [whole, inside]), List.getElem?_toArray]

theorem titledImage_alike {title other : List UInt8} (whole : title.length = 9)
    (whole' : other.length = 9) : Image.AlikeButText (titledImage title) (titledImage other) := by
  refine ⟨by simp [titledImage, whole, whole'], ?_⟩
  rintro place (early | behind)
  · have before (text : List UInt8) : (titledImage text)[place]? =
        [0x4E, 0x45, 0x53, 0x1A, 2, 1, 0][place]? := by
      rw [titledImage, Array.getElem?_append_left (by simp; omega), List.getElem?_toArray,
        List.getElem?_append_left (by simpa using early)]
    rw [before, before]
  · have after {text : List UInt8} (size : text.length = 9) :
        (titledImage text)[place]? = (Array.replicate 0xA000 (0 : UInt8))[place - 16]? := by
      rw [titledImage, Array.getElem?_append_right (by simp; omega)]
      simp [size]
    rw [after whole, after whole']

/-- The text that many old images carry names a PAL cartridge, and one with another letter does not. -/
theorem disk_dude_is_pal :
    let dixie := titledImage [0x44, 0x69, 0x78, 0x69, 0x65, 0x44, 0x6F, 0x67, 0x21]
    let dude := titledImage [0x44, 0x69, 0x73, 0x6B, 0x44, 0x75, 0x64, 0x65, 0x21]
    Image.AlikeButText dixie dude ∧ CarriesText dixie ∧ CarriesText dude ∧
      ∃ c d, ofImage dixie = .ok c ∧ ofImage dude = .ok d ∧ c.LoadedAlike d ∧
        d.header.regionHint ≠ c.header.regionHint := by
  intro dixie dude
  have alike : Image.AlikeButText dixie dude := titledImage_alike rfl rfl
  have text : CarriesText dixie := by
    refine ⟨?_, 12, by simp, ?_⟩
    · rw [Extended, byte_titledImage rfl (by decide)]
      decide
    · rw [byte_titledImage rfl (by decide)]
      decide
  have text' : CarriesText dude := by
    refine ⟨?_, 12, by simp, ?_⟩
    · rw [Extended, byte_titledImage rfl (by decide)]
      decide
    · rw [byte_titledImage rfl (by decide)]
      decide
  have parsed : Header.parse dixie = .ok ⟨2, 1, 0, 0, 0x69, 0x78, 0x69, 0x65, 0x44⟩ :=
    parse_append rfl _
  have parsed' : Header.parse dude = .ok ⟨2, 1, 0, 0, 0x69, 0x73, 0x6B, 0x44, 0x75⟩ :=
    parse_append rfl _
  obtain ⟨c, accepted⟩ := ofImage_accepts parsed (by decide)
    (by simp [dixie, titledImage]; decide) fun _ => rfl
  obtain ⟨d, accepted'⟩ := ofImage_accepts parsed' (by decide)
    (by simp [dude, titledImage]; decide) fun _ => rfl
  obtain ⟨same, -, -, region, -⟩ := (text_outcome alike text text').2 c d accepted accepted'
  refine ⟨alike, text, text', c, d, accepted, accepted', same, ?_⟩
  rw [ne_eq, region, byte_titledImage rfl (by decide), byte_titledImage rfl (by decide)]
  decide

end Cartridge

end Famiclone
