import Famiclone.Proofs.Cartridge.Acceptance

/-!
# What of an image reaches the game

Of an image the game sees the program and the patterns, and of the header what it says about the board. To
show that nothing else matters, an image is taken apart into its header, the trainer, the program, the
patterns and what follows them: the trainer and the last part are not found again in what is loaded.
-/
namespace Famiclone

namespace Image

/-! ## Changes to an image -/

variable (image : Array UInt8)

/-- The header says that there is a trainer. -/
def HasTrainer : Prop := byte image 6 / 4 % 2 = 1

def program : Array UInt8 :=
  image.extract (programStart image) (programStart image + 16384 * programUnits image)

def patterns : Array UInt8 :=
  image.extract (programStart image + 16384 * programUnits image) (declaredSize image)

/-- The image with a trainer behind the header, which says so. -/
def insertTrainer (trainer : Array UInt8) : Array UInt8 :=
  (image.extract 0 16).modify 6 (· ||| 0x04) ++ trainer ++ image.extract 16 image.size

def replaceTrainer (trainer : Array UInt8) : Array UInt8 :=
  image.extract 0 16 ++ trainer ++ image.extract 528 image.size

end Image

/-! ## Headers with a trainer -/

namespace Header

/-- The header, saying that there is a trainer. -/
def withTrainer (h : Header) : Header := { h with flags6 := h.flags6 ||| 0x04 }

theorem trainer_bit : ∀ flags : UInt8, (flags ||| 0x04).toNat / 16 = flags.toNat / 16 ∧
    (flags ||| 0x04) &&& 0x08 = flags &&& 0x08 ∧ (flags ||| 0x04) &&& 0x02 = flags &&& 0x02 ∧
    (flags ||| 0x04) &&& 0x01 = flags &&& 0x01 ∧ ((flags ||| 0x04) &&& 0x04 != 0) = true := by
  decide +kernel

variable (h : Header)

theorem withTrainer_hasTrainer : h.withTrainer.hasTrainer = true := (trainer_bit h.flags6).2.2.2.2

/-- The board is the same. -/
theorem withTrainer_mapper : h.withTrainer.mapper = h.mapper := by
  obtain ⟨number, -⟩ := trainer_bit h.flags6
  exact congrArg (· + h.flags7.toNat / 16 * 16 + _) number

theorem withTrainer_mirroring : h.withTrainer.mirroring = h.mirroring := by
  obtain ⟨-, screens, -, vertical, -⟩ := trainer_bit h.flags6
  simp only [mirroring, withTrainer, screens, vertical]

/-- The same memory is mounted. -/
theorem withTrainer_mount (prg chr : Array UInt8) :
    Banks.mount h.withTrainer prg chr = Banks.mount h prg chr := by
  have battery : h.withTrainer.hasBattery = h.hasBattery := by
    simp only [hasBattery, withTrainer, trainer_bit h.flags6]
  simp only [Banks.mount, battery]
  rfl

/-- A change to the seventh byte is a change to the flags. -/
theorem parse_modify {head : Array UInt8} {h : Header} (parsed : parse head = .ok h)
    (f : UInt8 → UInt8) : parse (head.modify 6 f) = .ok { h with flags6 := f h.flags6 } := by
  unfold parse at parsed ⊢
  split at parsed
  · contradiction
  next long =>
    rw [dif_neg (by rwa [Array.size_modify])]
    simp only [Array.getElem_modify, Nat.reduceEqDiff, if_false, if_true] at parsed ⊢
    split at parsed
    · contradiction
    next marked =>
      rw [if_neg marked]
      cases parsed
      rfl

end Header

/-! ## The parts of an image -/

namespace Image

/-- The parts of an image. -/
structure Layout where
  head : Array UInt8
  /-- Empty if there is none. -/
  trainer : Array UInt8
  program : Array UInt8
  patterns : Array UInt8
  /-- What follows the memory that is declared. -/
  rest : Array UInt8

namespace Layout

def image (l : Layout) : Array UInt8 := l.head ++ l.trainer ++ l.program ++ l.patterns ++ l.rest

/-- The header is that of the image, and the parts are as long as it says. -/
structure Fits (l : Layout) (h : Header) : Prop where
  head : l.head.size = 16
  parsed : Header.parse l.head = .ok h
  trainer : l.trainer.size = if h.hasTrainer then 512 else 0
  program : l.program.size = h.prgSize
  patterns : l.patterns.size = h.chrSize

variable {l : Layout} {h : Header} {checksum : Array UInt8 → UInt32}

theorem Fits.parse_image (fits : l.Fits h) : Header.parse l.image = .ok h := by
  rw [← fits.parsed, image, Array.append_assoc, Array.append_assoc, Array.append_assoc]
  exact Cartridge.parse_append fits.head _

theorem extract_middle {a b c : Array UInt8} {start stop : Nat} (before : a.size = start)
    (size : start + b.size = stop) : (a ++ b ++ c).extract start stop = b := by
  subst before size
  simp [Array.extract_append]

theorem Fits.prgStart (fits : l.Fits h) : (l.head ++ l.trainer).size = h.prgStart := by
  rw [Array.size_append, fits.head, fits.trainer]
  rfl

theorem Fits.chrStart (fits : l.Fits h) :
    (l.head ++ l.trainer ++ l.program).size = h.chrStart := by
  rw [Array.size_append, fits.prgStart, fits.program]
  rfl

theorem Fits.romEnd (fits : l.Fits h) :
    (l.head ++ l.trainer ++ l.program ++ l.patterns).size = h.romEnd := by
  rw [Array.size_append, fits.chrStart, fits.patterns]
  rfl

theorem Fits.extract_program (fits : l.Fits h) : l.image.extract h.prgStart h.chrStart = l.program := by
  rw [image, Array.append_assoc]
  exact extract_middle fits.prgStart (congrArg (h.prgStart + ·) fits.program)

theorem Fits.extract_patterns (fits : l.Fits h) :
    l.image.extract h.chrStart h.romEnd = l.patterns :=
  extract_middle fits.chrStart (congrArg (h.chrStart + ·) fits.patterns)

theorem Fits.extract_contents (fits : l.Fits h) :
    l.image.extract h.prgStart h.romEnd = l.program ++ l.patterns := by
  rw [← fits.extract_program, ← fits.extract_patterns, Array.extract_append_extract]
  have program : h.prgStart ≤ h.chrStart := Nat.le_add_right _ _
  have patterns : h.chrStart ≤ h.romEnd := Nat.le_add_right _ _
  rw [Nat.min_eq_left program, Nat.max_eq_right patterns]

/-- What becomes of an image does not depend on the trainer and on what follows the patterns. -/
theorem Fits.ofImageBy (fits : l.Fits h) (program : h.prgUnits ≠ 0) :
    Cartridge.ofImageBy checksum l.image =
      match Board.ofMapper? h.mapper h.mirroring (.mount h l.program l.patterns) with
      | none => .error (.unsupportedMapper h.mapper)
      | some board =>
        .ok ⟨h, Hex.padded 8 (checksum (l.program ++ l.patterns)).toNat, board⟩ := by
  have whole : h.romEnd ≤ l.image.size := by
    rw [image, Array.size_append, fits.romEnd]
    exact Nat.le_add_right _ _
  have parsed : Cartridge.ofImageBy checksum l.image = _ :=
    Cartridge.ofImageBy_of_parsed fits.parse_image
  rw [if_neg program, if_neg (Nat.not_lt.mpr whole), fits.extract_program, fits.extract_patterns,
    fits.extract_contents] at parsed
  exact parsed

/-- With the same header, program and patterns the same is loaded. -/
theorem Fits.ofImageBy_eq {k : Layout} (fits : l.Fits h) (fits' : k.Fits h) (some : h.prgUnits ≠ 0)
    (program : k.program = l.program) (patterns : k.patterns = l.patterns) :
    Cartridge.ofImageBy checksum k.image = Cartridge.ofImageBy checksum l.image := by
  rw [fits'.ofImageBy some, fits.ofImageBy some, program, patterns]

/-- A trainer is announced and put behind the header. -/
def withTrainer (l : Layout) (trainer : Array UInt8) : Layout :=
  { l with head := l.head.modify 6 (· ||| 0x04), trainer }

theorem Fits.withTrainer (fits : l.Fits h) {trainer : Array UInt8} (size : trainer.size = 512) :
    (l.withTrainer trainer).Fits h.withTrainer where
  head := Array.size_modify.trans fits.head
  parsed := Header.parse_modify fits.parsed (· ||| 0x04)
  trainer := by
    rw [h.withTrainer_hasTrainer, if_pos rfl]
    exact size
  program := fits.program
  patterns := fits.patterns

/-- A trainer that is put in is found in the header and nowhere else. -/
theorem Fits.ofImageBy_withTrainer (fits : l.Fits h) (some : h.prgUnits ≠ 0) {trainer : Array UInt8}
    (size : trainer.size = 512) {c : Cartridge}
    (accepted : Cartridge.ofImageBy checksum l.image = .ok c) :
    Cartridge.ofImageBy checksum (l.withTrainer trainer).image =
      .ok { c with header := c.header.withTrainer } := by
  have program : (l.withTrainer trainer).program = l.program := rfl
  have patterns : (l.withTrainer trainer).patterns = l.patterns := rfl
  rw [fits.ofImageBy some] at accepted
  rw [(fits.withTrainer size).ofImageBy some, program, patterns, h.withTrainer_mapper,
    h.withTrainer_mirroring, h.withTrainer_mount]
  split at accepted
  · contradiction
  · cases accepted
    rfl

/-- The parts of an image that a header describes. -/
def split (image : Array UInt8) (h : Header) : Layout where
  head := image.extract 0 16
  trainer := image.extract 16 h.prgStart
  program := image.extract h.prgStart h.chrStart
  patterns := image.extract h.chrStart h.romEnd
  rest := image.extract h.romEnd image.size

end Layout

end Image

namespace Cartridge

open Image

variable {image : Array UInt8} {c : Cartridge} {checksum : Array UInt8 → UInt32}

/-- An accepted image is its parts. -/
theorem Accepted.image_split (known : Accepted image c) :
    (Layout.split image c.header).image = image := by
  have whole := known.whole
  have first : 16 ≤ c.header.prgStart := Nat.le_add_right _ _
  have second : c.header.prgStart ≤ c.header.chrStart := Nat.le_add_right _ _
  have third : c.header.chrStart ≤ c.header.romEnd := Nat.le_add_right _ _
  simp only [Layout.image, Layout.split, Array.extract_append_extract, Nat.zero_min,
    Nat.max_eq_right, first, second, third, whole, Array.extract_size]

theorem Accepted.split_fits (known : Accepted image c) :
    (Layout.split image c.header).Fits c.header := by
  have whole := known.whole
  have first : c.header.prgStart = 16 + if c.header.hasTrainer then 512 else 0 := rfl
  have second : c.header.chrStart = c.header.prgStart + c.header.prgSize := rfl
  have third : c.header.romEnd = c.header.chrStart + c.header.chrSize := rfl
  have head : (image.extract 0 16).size = 16 := by
    rw [Array.size_extract]
    omega
  refine ⟨head, ?_, ?_, ?_, ?_⟩
  · have all : image = image.extract 0 16 ++ image.extract 16 image.size := by
      rw [Array.extract_append_extract, Nat.zero_min, Nat.max_eq_right (by omega), Array.extract_size]
    have parsed := known.header
    rw [all, parse_append head] at parsed
    exact parsed
  · simp only [Layout.split, Array.size_extract]
    omega
  · simp only [Layout.split, Array.size_extract]
    omega
  · simp only [Layout.split, Array.size_extract]
    omega

/-- The memory and what follows it. -/
theorem Accepted.extract_behind (known : Accepted image c) :
    let l := Layout.split image c.header
    l.program ++ l.patterns ++ l.rest = image.extract c.header.prgStart image.size := by
  have whole := known.whole
  have second : c.header.prgStart ≤ c.header.chrStart := Nat.le_add_right _ _
  have third : c.header.chrStart ≤ c.header.romEnd := Nat.le_add_right _ _
  simp only [Layout.split, Array.extract_append_extract, Nat.min_eq_left, Nat.max_eq_right, second,
    third, second.trans third, whole]

/-- Bytes that follow an image do not matter. -/
theorem ofImageBy_append (accepted : ofImageBy checksum image = .ok c) (extra : Array UInt8) :
    ofImageBy checksum (image ++ extra) = .ok c := by
  have known := (ofImageBy_ok accepted).1
  let l := Layout.split image c.header
  have fits : l.Fits c.header := known.split_fits
  have longer : ({ l with rest := l.rest ++ extra } : Layout).image = image ++ extra := by
    rw [← known.image_split]
    exact (Array.append_assoc ..).symm
  have fits' : ({ l with rest := l.rest ++ extra } : Layout).Fits c.header :=
    ⟨fits.head, fits.parsed, fits.trainer, fits.program, fits.patterns⟩
  rw [← longer, fits.ofImageBy_eq fits' known.program rfl rfl, known.image_split, accepted]

theorem Accepted.hasTrainer_iff (known : Accepted image c) :
    c.header.hasTrainer = true ↔ HasTrainer image := by
  have start : 16 + (if c.header.hasTrainer then 512 else 0) = programStart image :=
    known.describes.start
  unfold programStart at start
  unfold HasTrainer
  split_ifs at start <;> simp_all

theorem ofImageBy_insertTrainer (accepted : ofImageBy checksum image = .ok c) (none : ¬ HasTrainer image)
    {trainer : Array UInt8} (size : trainer.size = 512) :
    ofImageBy checksum (insertTrainer image trainer) = .ok { c with header := c.header.withTrainer } := by
  have known := (ofImageBy_ok accepted).1
  have start : c.header.prgStart = 16 := by
    rw [Header.prgStart, if_neg (known.hasTrainer_iff.not.mpr none)]
    rfl
  let l := Layout.split image c.header
  have parts : insertTrainer image trainer = (l.withTrainer trainer).image := by
    have behind := known.extract_behind
    rw [start] at behind
    rw [insertTrainer, ← behind, ← Array.append_assoc, ← Array.append_assoc]
    rfl
  have whole : ofImageBy checksum l.image = .ok c := by rw [known.image_split, accepted]
  rw [parts, known.split_fits.ofImageBy_withTrainer known.program size whole]

theorem ofImageBy_replaceTrainer (accepted : ofImageBy checksum image = .ok c) (there : HasTrainer image)
    {trainer : Array UInt8} (size : trainer.size = 512) :
    ofImageBy checksum (replaceTrainer image trainer) = .ok c := by
  have known := (ofImageBy_ok accepted).1
  have announced := known.hasTrainer_iff.mpr there
  have start : c.header.prgStart = 528 := by
    rw [Header.prgStart, if_pos announced]
    rfl
  let l := Layout.split image c.header
  have fits : l.Fits c.header := known.split_fits
  have parts : replaceTrainer image trainer = ({ l with trainer } : Layout).image := by
    have behind := known.extract_behind
    rw [start] at behind
    rw [replaceTrainer, ← behind, ← Array.append_assoc, ← Array.append_assoc]
    rfl
  have fits' : ({ l with trainer } : Layout).Fits c.header :=
    ⟨fits.head, fits.parsed, by rw [announced, if_pos rfl]; exact size, fits.program, fits.patterns⟩
  rw [parts, fits.ofImageBy_eq fits' known.program rfl rfl, known.image_split, accepted]

/-- Saved memory is found by the checksum of the program and the patterns that are declared. -/
theorem id_eq_checksum (accepted : ofImageBy checksum image = .ok c) :
    c.id = Hex.padded 8 (checksum (program image ++ patterns image)).toNat := by
  have ⟨known, id⟩ := ofImageBy_ok accepted
  have said := known.describes
  have start : programStart image + 16384 * programUnits image = c.header.chrStart := by
    rw [← said.start, ← said.program, Nat.mul_comm]
    rfl
  have contents := known.split_fits.extract_contents
  rw [known.image_split] at contents
  rw [id, contents, program, patterns, start, ← said.start, ← said.romEnd]
  rfl

/-- Nothing of an image but its program, its patterns and what the header says of the board reaches the
game. Bytes may follow, and a trainer may be put in or exchanged: the board is the same one, so it does the
same whatever is asked of it, and the identifier is the same, for it is the checksum of program and
patterns, whatever function of the bytes the checksum is. -/
theorem contents_reach_game (accepted : ofImageBy checksum image = .ok c) :
    (∀ extra, ofImageBy checksum (image ++ extra) = .ok c) ∧
    (¬ HasTrainer image → ∀ trainer : Array UInt8, trainer.size = 512 →
      ofImageBy checksum (insertTrainer image trainer) = .ok { c with header := c.header.withTrainer }) ∧
    (HasTrainer image → ∀ trainer : Array UInt8, trainer.size = 512 →
      ofImageBy checksum (replaceTrainer image trainer) = .ok c) ∧
    c.id = Hex.padded 8 (checksum (program image ++ patterns image)).toNat ∧
    ∀ other d, ofImageBy checksum other = .ok d → program other = program image →
      patterns other = patterns image → d.id = c.id := by
  refine ⟨ofImageBy_append accepted, fun none _ size => ofImageBy_insertTrainer accepted none size,
    fun there _ size => ofImageBy_replaceTrainer accepted there size, id_eq_checksum accepted,
    fun other d accepted' sameProgram samePatterns => ?_⟩
  rw [id_eq_checksum accepted, id_eq_checksum accepted', sameProgram, samePatterns]

/-- An image without a trainer takes one, and then another. -/
theorem plain_image_takes_trainers :
    let plain := imageOfProgram [] 0x8000
    let trained := insertTrainer plain (.replicate 512 0xEE)
    ∃ c d, ofImage plain = .ok c ∧ ¬ HasTrainer plain ∧ ofImage trained = .ok d ∧
      HasTrainer trained ∧ d.board = c.board ∧ d.id = c.id ∧
      ofImage (replaceTrainer trained (.replicate 512 0)) = .ok d ∧
      ofImage (plain ++ #[1, 2, 3]) = .ok c := by
  intro plain trained
  obtain ⟨c, accepted⟩ := ofImage_imageOfProgram [] 0x8000
  have known := ofImage_accepted accepted
  have header : c.header = programHeader :=
    Except.ok.inj (known.header.symm.trans (parse_imageOfProgram [] 0x8000))
  have none : ¬ HasTrainer plain := by
    rw [← known.hasTrainer_iff, header]
    decide
  obtain ⟨appended, inserted, -⟩ := contents_reach_game accepted
  have accepted' : ofImage trained = .ok { c with header := c.header.withTrainer } :=
    inserted none _ Array.size_replicate
  have there : HasTrainer trained :=
    (ofImage_accepted accepted').hasTrainer_iff.mp c.header.withTrainer_hasTrainer
  obtain ⟨-, -, replaced, -⟩ := contents_reach_game accepted'
  exact ⟨c, _, accepted, none, accepted', there, rfl, rfl, replaced there _ Array.size_replicate,
    appended #[1, 2, 3]⟩

end Cartridge

end Famiclone
