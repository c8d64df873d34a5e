import Famiclone.Proofs.Board.Bounds
import Famiclone.Proofs.Board.Checked

/-!
# Which images are cartridges

An image is taken as it comes, so whether it is accepted has to be plain from its bytes. The sizes
and the number of the board are read here off the bytes alone, as the two layouts of the header have
them. An image is refused for its header or its sizes first, and for its board only if nothing else
is wrong with it.
-/
namespace Famiclone

namespace Image

/-! ## What an image declares -/

variable (image : Array UInt8)

def byte (place : Nat) : Nat := (image.getD place 0).toNat

/-- The eighth byte announces the extended layout: of the bits 2 and 3 only the upper one is set. -/
def Extended : Prop := byte image 7 / 4 % 4 = 2

instance : Decidable (Extended image) := inferInstanceAs (Decidable (_ = _))

/-- An old header whose last four bytes are not all zero carries text from its eighth byte on. -/
def CarriesText : Prop := ¬ Extended image ∧ ∃ place ∈ [12, 13, 14, 15], byte image place ≠ 0

instance : Decidable (CarriesText image) := inferInstanceAs (Decidable (_ ∧ _))

/-- Units of 16 KiB of program. -/
def programUnits : Nat := byte image 4 + if Extended image then byte image 9 % 16 * 256 else 0

/-- Units of 8 KiB of patterns. -/
def patternUnits : Nat := byte image 5 + if Extended image then byte image 9 / 16 * 256 else 0

def boardNumber : Nat :=
  if Extended image then byte image 6 / 16 + byte image 7 / 16 * 16 + byte image 8 % 16 * 256
  else if CarriesText image then byte image 6 / 16
  else byte image 6 / 16 + byte image 7 / 16 * 16

/-- Where the program starts: behind the header and the trainer, if there is one. -/
def programStart : Nat := 16 + if byte image 6 / 4 % 2 = 1 then 512 else 0

/-- Bytes up to the end of the memory that is declared. -/
def declaredSize : Nat := programStart image + 16384 * programUnits image + 8192 * patternUnits image

/-- The image has a header and all of the memory that it declares, some program among it. -/
structure WellFormed : Prop where
  header : 16 ≤ image.size
  magic : [0, 1, 2, 3].map (byte image) = ['N'.toNat, 'E'.toNat, 'S'.toNat, 0x1A]
  program : 0 < programUnits image
  whole : declaredSize image ≤ image.size

/-- The numbers of the boards there are. -/
def boardNumbers : List Nat := [0, 1, 2, 3, 4, 7, 11, 34, 66]

theorem byte_eq {image : Array UInt8} {place : Nat} (inside : place < image.size) :
    byte image place = image[place].toNat := by
  simp [byte, inside]

end Image

/-! ## What the header says -/

namespace Header

open Image

/-- A header says of an image what its bytes say. -/
structure Describes (h : Header) (image : Array UInt8) : Prop where
  program : h.prgUnits = programUnits image
  patterns : h.chrUnits = patternUnits image
  number : h.mapper = boardNumber image
  start : h.prgStart = programStart image

theorem announcesExtended_iff :
    ∀ flags : UInt8, announcesExtended flags = true ↔ flags.toNat / 4 % 4 = 2 := by
  decide +kernel

theorem trainer_iff : ∀ flags : UInt8, (flags &&& 0x04 != 0) = true ↔ flags.toNat / 4 % 2 = 1 := by
  decide +kernel

variable {h : Header} {image : Array UInt8}

theorem Describes.romEnd (said : h.Describes image) : h.romEnd = declaredSize image := by
  unfold Header.romEnd chrStart prgSize chrSize declaredSize
  rw [said.start, said.program, said.patterns]
  omega

/-- The magic bytes, as numbers. Here and below the bounds of the bytes are arguments, so that a byte may
stand with any proof that it is in the image. -/
theorem magic_iff (header : 16 ≤ image.size) (_ : 0 < image.size) (_ : 1 < image.size)
    (_ : 2 < image.size) (_ : 3 < image.size) :
    [image[0], image[1], image[2], image[3]] = magic ↔
      [0, 1, 2, 3].map (byte image) = ['N'.toNat, 'E'.toNat, 'S'.toNat, 0x1A] := by
  have read (place : Nat) (inside : place < 4) : byte image place = (image[place]).toNat :=
    byte_eq (by omega)
  simp [magic, read, ← UInt8.toNat_inj]

theorem extended_eq (_ : 7 < image.size) :
    announcesExtended image[7] = decide (Extended image) := by
  rw [Bool.eq_iff_iff, announcesExtended_iff, decide_eq_true_iff, Extended, byte_eq]

theorem carriesText_eq (header : 16 ≤ image.size) (_ : 7 < image.size) (_ : 12 < image.size)
    (_ : 13 < image.size) (_ : 14 < image.size) (_ : 15 < image.size) :
    (!announcesExtended image[7] &&
      (image[12] != 0 || image[13] != 0 || image[14] != 0 || image[15] != 0)) =
      decide (CarriesText image) := by
  have read (place : Nat) (inside : place < 16) : byte image place = (image[place]).toNat :=
    byte_eq (by omega)
  rw [extended_eq, Bool.eq_iff_iff, decide_eq_true_iff]
  simp [CarriesText, read, ← UInt8.toNat_inj, or_assoc]

/-- An image with sixteen bytes and the magic has a header, which describes it. -/
theorem parse_describes (header : 16 ≤ image.size)
    (magic : [0, 1, 2, 3].map (byte image) = ['N'.toNat, 'E'.toNat, 'S'.toNat, 0x1A]) :
    ∃ h, parse image = .ok h ∧ h.Describes image := by
  have read (place : Nat) (inside : place < 16) : (image[place]).toNat = byte image place :=
    (byte_eq (by omega)).symm
  have long : ¬ image.size < size := Nat.not_lt.mpr header
  unfold parse
  rw [dif_neg long]
  dsimp only
  have found := (magic_iff header (by omega) (by omega) (by omega) (by omega)).mpr magic
  rw [if_neg (not_not.mpr found), carriesText_eq header, extended_eq]
  refine ⟨_, rfl, ?_, ?_, ?_, ?_⟩
  · simp [programUnits, read, Nat.mul_comm]
  · simp [patternUnits, read, Nat.mul_comm]
  · unfold mapper extended boardNumber
    by_cases long : Extended image
    · have plain : ¬ CarriesText image := fun text => text.1 long
      simp [long, plain, read, extended_eq]
    · by_cases text : CarriesText image
      · have old : announcesExtended 0 = false := by decide
        simp [long, text, read, old]
      · simp [long, text, read, extended_eq]
  · simp only [prgStart, hasTrainer, programStart, trainer_iff, read, Nat.reduceLT, size, trainerSize]

theorem parse_short (short : image.size < 16) : parse image = .error (.shorterThanHeader image.size) :=
  dif_pos short

theorem parse_unmarked (header : 16 ≤ image.size)
    (unmarked : [0, 1, 2, 3].map (byte image) ≠ ['N'.toNat, 'E'.toNat, 'S'.toNat, 0x1A]) :
    parse image = .error .missingMagic := by
  have long : ¬ image.size < size := Nat.not_lt.mpr header
  have magic : [image[0], image[1], image[2], image[3]] ≠ magic :=
    fun same => unmarked ((magic_iff header (by omega) (by omega) (by omega) (by omega)).mp same)
  unfold parse
  rw [dif_neg long]
  exact if_pos magic

/-- Without sixteen bytes or without the magic there is no header. -/
theorem parse_refuses (bad : ¬ (16 ≤ image.size ∧
      [0, 1, 2, 3].map (byte image) = ['N'.toNat, 'E'.toNat, 'S'.toNat, 0x1A])) :
    ∃ e, parse image = .error e ∧ e.isHeaderFault = true := by
  by_cases header : 16 ≤ image.size
  · exact ⟨.missingMagic, parse_unmarked header fun same => bad ⟨header, same⟩, rfl⟩
  · exact ⟨.shorterThanHeader image.size, parse_short (Nat.not_le.mp header), rfl⟩

/-- What is read of an image describes it. -/
theorem describes_of_parsed (parsed : parse image = .ok h) : h.Describes image := by
  by_cases headed : 16 ≤ image.size ∧
      [0, 1, 2, 3].map (byte image) = ['N'.toNat, 'E'.toNat, 'S'.toNat, 0x1A]
  · obtain ⟨k, parsed', said⟩ := parse_describes headed.1 headed.2
    rw [parsed] at parsed'
    cases parsed'
    exact said
  · obtain ⟨e, refused, -⟩ := parse_refuses headed
    rw [parsed] at refused
    contradiction

end Header

/-! ## What is loaded -/

theorem Board.ofMapper?_isSome_iff (number : Nat) (wired : Mirroring) (banks : Banks) :
    (ofMapper? number wired banks).isSome = true ↔ number ∈ Image.boardNumbers := by
  unfold ofMapper?
  split <;> simp_all [Image.boardNumbers]

namespace Cartridge

open Image

variable {image : Array UInt8}

/-- A well-formed image has a header, which describes it and passes all checks of sizes. -/
theorem parse_of_wellFormed (well : WellFormed image) :
    ∃ h, Header.parse image = .ok h ∧ h.Describes image ∧ h.prgUnits ≠ 0 ∧
      h.romEnd ≤ image.size := by
  obtain ⟨h, parsed, said⟩ := Header.parse_describes well.header well.magic
  refine ⟨h, parsed, said, ?_, ?_⟩
  · rw [said.program]
    exact Nat.pos_iff_ne_zero.mp well.program
  · rw [said.romEnd]
    exact well.whole

/-- An image that is not well-formed is refused for its header or its sizes. -/
theorem ofImage_refuses (ill : ¬ WellFormed image) :
    ∃ e, ofImage image = .error e ∧ e.isHeaderFault = true := by
  by_cases headed : 16 ≤ image.size ∧
      [0, 1, 2, 3].map (byte image) = ['N'.toNat, 'E'.toNat, 'S'.toNat, 0x1A]
  · obtain ⟨h, parsed, said⟩ := Header.parse_describes headed.1 headed.2
    rw [ofImage, ofImageBy_of_parsed parsed]
    by_cases program : h.prgUnits = 0
    · rw [if_pos program]
      exact ⟨_, rfl, rfl⟩
    · have cut : image.size < h.romEnd := by
        by_contra whole
        rw [said.romEnd, Nat.not_lt] at whole
        rw [said.program] at program
        exact ill ⟨headed.1, headed.2, Nat.pos_of_ne_zero program, whole⟩
      rw [if_neg program, if_pos cut]
      exact ⟨_, rfl, rfl⟩
  · obtain ⟨e, refused, fault⟩ := Header.parse_refuses headed
    unfold ofImage ofImageBy
    rw [refused]
    exact ⟨e, rfl, fault⟩

/-- A well-formed image with an unknown board is refused for the board. -/
theorem ofImage_unknown (well : WellFormed image) (unknown : boardNumber image ∉ boardNumbers) :
    ofImage image = .error (.unsupportedMapper (boardNumber image)) := by
  obtain ⟨h, parsed, said, program, whole⟩ := parse_of_wellFormed well
  rw [← said.number] at unknown ⊢
  have none : Board.ofMapper? h.mapper h.mirroring (.mount h
      (image.extract h.prgStart h.chrStart) (image.extract h.chrStart h.romEnd)) = none := by
    rw [← Option.not_isSome_iff_eq_none, Board.ofMapper?_isSome_iff]
    exact unknown
  rw [ofImage, ofImageBy_of_parsed parsed, if_neg program, if_neg (Nat.not_lt.mpr whole), none]

theorem ofImage_known (well : WellFormed image) (known : boardNumber image ∈ boardNumbers) :
    ∃ c, ofImage image = .ok c := by
  obtain ⟨h, parsed, said, program, whole⟩ := parse_of_wellFormed well
  rw [← said.number] at known
  exact ofImage_accepts parsed program whole
    fun banks => (Board.ofMapper?_isSome_iff _ _ banks).mpr known

end Cartridge

/-! ## What a fresh board shows -/

open Image

/-- At every address of the program a board shows a byte of the program of an image, at a place that
agrees with the address within a window. -/
def Board.ShowsProgram (b : Board) (image : Array UInt8) : Prop :=
  ∀ address : UInt16, 0x8000 ≤ address.toNat →
    ∃ place < 16384 * programUnits image, place % 8192 = address.toNat % 8192 ∧
      ∃ byte, image[programStart image + place]? = some byte ∧ b.readPrg address = some byte

namespace Cartridge

variable {image : Array UInt8} {c : Cartridge}

theorem wellFormed_of_accepted (accepted : ofImage image = .ok c) : WellFormed image := by
  by_contra ill
  obtain ⟨e, refused, -⟩ := ofImage_refuses ill
  rw [accepted] at refused
  contradiction

theorem Accepted.describes (known : Accepted image c) : c.header.Describes image :=
  Header.describes_of_parsed known.header

theorem ofImage_showsProgram (accepted : ofImage image = .ok c) : c.board.ShowsProgram image := by
  intro address high
  have known := ofImage_accepted accepted
  have said := known.describes
  have size : (image.extract c.header.prgStart c.header.chrStart).size =
      16384 * programUnits image := by
    rw [known.program_size, said.program, Nat.mul_comm]
  obtain ⟨chips, found, same⟩ := Board.chips_of_mapper known.board
  have program : chips.prg = image.extract c.header.prgStart c.header.chrStart := same.program
  obtain ⟨place, inside, agrees, read⟩ :=
    (ofImage_staysInside accepted chips found).program.readPrg address
  refine ⟨place, ?_, agrees, chips.prg[place], ?_, ?_⟩
  · rw [← size, ← program]
    exact inside
  · have within : place < min c.header.chrStart image.size - c.header.prgStart := by
      rw [← Array.size_extract, ← program]
      exact inside
    have bound : c.header.prgStart + place < image.size := by omega
    rw [← said.start, Array.getElem?_eq_getElem bound]
    simp only [program, Array.getElem_extract]
  · rw [Board.readPrg_of_high found high, read]

end Cartridge

/-! ## Slices -/

/-- A part of an image, none if it does not lie within. -/
def slice? (image : Array UInt8) (start stop : Nat) : Option (Array UInt8) :=
  if start ≤ stop ∧ stop ≤ image.size then some (image.extract start stop) else none

theorem slice?_eq_some {image : Array UInt8} {start stop : Nat} (order : start ≤ stop)
    (inside : stop ≤ image.size) : slice? image start stop = some (image.extract start stop) :=
  if_pos ⟨order, inside⟩

namespace Cartridge

/-- Loading with every slice of the image checked, and every division and every window when the board is
put around its chips; none if a check fails. -/
def ofImageChecked (image : Array UInt8) : Option (Except LoadError Cartridge) :=
  match Header.parse image with
  | .error e => some (.error e)
  | .ok header =>
    if header.prgUnits = 0 then some (.error .noProgram)
    else if image.size < header.romEnd then
      some (.error (.truncated (header.romEnd - Header.size) (image.size - Header.size)))
    else do
      let prg ← slice? image header.prgStart header.chrStart
      let chr ← slice? image header.chrStart header.romEnd
      let contents ← slice? image header.prgStart header.romEnd
      match ← Board.ofMapperChecked header.mapper header.mirroring (← Banks.mount? header prg chr) with
      | none => some (.error (.unsupportedMapper header.mapper))
      | some board => some (.ok { header, id := Hex.padded 8 (Checksum.crc32 contents).toNat, board })

/-- Loading takes no slice from outside of the image, divides by no zero and switches no window that is not
there. -/
theorem ofImageChecked_eq (image : Array UInt8) : ofImageChecked image = some (ofImage image) := by
  unfold ofImageChecked ofImage ofImageBy
  cases Header.parse image with
  | error e => rfl
  | ok h =>
    simp only [bind, Except.bind, pure, Except.pure]
    by_cases program : h.prgUnits = 0
    · rw [if_pos program, if_pos program]
      rfl
    · rw [if_neg program, if_neg program]
      by_cases cut : image.size < h.romEnd
      · rw [if_pos cut, if_pos cut]
        rfl
      · have whole := Nat.not_lt.mp cut
        have program : h.prgStart ≤ h.chrStart := Nat.le_add_right _ _
        have patterns : h.chrStart ≤ h.romEnd := Nat.le_add_right _ _
        rw [if_neg cut, if_neg cut, slice?_eq_some program (patterns.trans whole),
          slice?_eq_some patterns whole, slice?_eq_some (program.trans patterns) whole]
        simp only [Option.bind_some, Banks.mount?_eq, Board.ofMapperChecked_eq]
        cases Board.ofMapper? h.mapper h.mirroring (.mount h (image.extract h.prgStart h.chrStart)
          (image.extract h.chrStart h.romEnd)) with
        | none => rfl
        | some board => rfl

theorem ofImage_ok_iff (image : Array UInt8) :
    (∃ c, ofImage image = .ok c) ↔ WellFormed image ∧ boardNumber image ∈ boardNumbers := by
  constructor
  · rintro ⟨c, accepted⟩
    have well := wellFormed_of_accepted accepted
    refine ⟨well, ?_⟩
    by_contra unknown
    rw [ofImage_unknown well unknown] at accepted
    contradiction
  · rintro ⟨well, known⟩
    exact ofImage_known well known

theorem ofImage_unsupported_iff (image : Array UInt8) (number : Nat) :
    ofImage image = .error (.unsupportedMapper number) ↔
      WellFormed image ∧ boardNumber image ∉ boardNumbers ∧ number = boardNumber image := by
  constructor
  · intro refused
    have well : WellFormed image := by
      by_contra ill
      obtain ⟨e, other, fault⟩ := ofImage_refuses ill
      rw [refused] at other
      cases other
      contradiction
    have unknown : boardNumber image ∉ boardNumbers := by
      intro known
      obtain ⟨c, accepted⟩ := ofImage_known well known
      rw [refused] at accepted
      contradiction
    rw [ofImage_unknown well unknown] at refused
    cases refused
    exact ⟨well, unknown, rfl⟩
  · rintro ⟨well, unknown, rfl⟩
    exact ofImage_unknown well unknown

theorem ofImage_headerFault_iff (image : Array UInt8) :
    (∃ e, ofImage image = .error e ∧ e.isHeaderFault = true) ↔ ¬ WellFormed image := by
  constructor
  · rintro ⟨e, refused, fault⟩ well
    by_cases known : boardNumber image ∈ boardNumbers
    · obtain ⟨c, accepted⟩ := ofImage_known well known
      rw [refused] at accepted
      contradiction
    · rw [ofImage_unknown well known] at refused
      cases refused
      contradiction
  · exact ofImage_refuses

/-- An image is a cartridge if and only if it is well-formed and its board is known. If just the board
is not, that is what it is refused for; otherwise it is refused for its header or its sizes. All slices
that loading takes lie within the image, no division in it is by zero, and a fresh board shows the program
of the image. -/
theorem ofImage_outcome (image : Array UInt8) :
    ofImageChecked image = some (ofImage image) ∧
    ((∃ c, ofImage image = .ok c) ↔ WellFormed image ∧ boardNumber image ∈ boardNumbers) ∧
    (∀ number, ofImage image = .error (.unsupportedMapper number) ↔
      WellFormed image ∧ boardNumber image ∉ boardNumbers ∧ number = boardNumber image) ∧
    ((∃ e, ofImage image = .error e ∧ e.isHeaderFault = true) ↔ ¬ WellFormed image) ∧
    ∀ c, ofImage image = .ok c → c.board.ShowsProgram image :=
  ⟨ofImageChecked_eq image, ofImage_ok_iff image, ofImage_unsupported_iff image,
    ofImage_headerFault_iff image, fun _ accepted => ofImage_showsProgram accepted⟩

theorem plain_image_shows_program :
    ∃ c, ofImage (imageOfProgram [] 0x8000) = .ok c ∧
      c.board.ShowsProgram (imageOfProgram [] 0x8000) := by
  obtain ⟨c, accepted⟩ := ofImage_imageOfProgram [] 0x8000
  exact ⟨c, accepted, (ofImage_outcome _).2.2.2.2 c accepted⟩

end Cartridge

end Famiclone
