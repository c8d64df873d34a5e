import Famiclone.Cartridge
import Famiclone.Cartridge.Image
import Mathlib.Tactic

/-!
# Images around a program are cartridges

The image that is made around a program declares exactly the memory that it holds, so it is accepted
whatever the program is and wherever it starts.
-/
namespace Famiclone.Cartridge

@[simp] theorem place_size (memory : Array UInt8) (start : Nat) (bytes : List UInt8) :
    (place memory start bytes).size = memory.size := by
  have kept (n : Nat) (entries : List (UInt8 × Nat)) (m : Array UInt8) :
      (entries.foldl (fun m e => m.setIfInBounds ((start + e.2) % n) e.1) m).size = m.size := by
    induction entries generalizing m with
    | nil => rfl
    | cons e entries ih => rw [List.foldl_cons, ih, Array.size_setIfInBounds]
  exact kept memory.size bytes.zipIdx memory

theorem programMemory_size (program : List UInt8) (origin : UInt16) :
    (programMemory program origin).size = programSize := by
  simp only [programMemory, place_size, Array.size_replicate]

/-- The header of an image around a program. -/
def programHeader : Header := ⟨2, 1, 0x02, 0, 0, 0, 0, 0, 0⟩

/-- A header is read off the first sixteen bytes. -/
theorem parse_append {head : Array UInt8} (size : head.size = Header.size) (rest : Array UInt8) :
    Header.parse (head ++ rest) = Header.parse head := by
  have whole : head.size = 16 := size
  have both : ¬ (head ++ rest).size < Header.size := by
    rw [Array.size_append, size]
    omega
  have same (i : Nat) (left : i < 16) (h : i < (head ++ rest).size) :
      (head ++ rest)[i] = head[i] := Array.getElem_append_left (by omega)
  unfold Header.parse
  rw [dif_neg both, dif_neg (by omega)]
  simp only [same, Nat.reduceLT]

theorem parse_plainHeader (rest : Array UInt8) :
    Header.parse (plainHeader.toArray ++ rest) = .ok programHeader :=
  parse_append rfl rest

variable {checksum : Array UInt8 → UInt32}

/-- What becomes of an image with a header: it is a cartridge, or it is refused for its sizes or its board. -/
theorem ofImageBy_of_parsed {image : Array UInt8} {h : Header} (parsed : Header.parse image = .ok h) :
    ofImageBy checksum image =
      if h.prgUnits = 0 then .error .noProgram
      else if image.size < h.romEnd then
        .error (.truncated (h.romEnd - Header.size) (image.size - Header.size))
      else
        match Board.ofMapper? h.mapper h.mirroring (.mount h
          (image.extract h.prgStart h.chrStart) (image.extract h.chrStart h.romEnd)) with
        | none => .error (.unsupportedMapper h.mapper)
        | some board => .ok ⟨h, Hex.padded 8
          (checksum (image.extract h.prgStart h.romEnd)).toNat, board⟩ := by
  unfold ofImageBy
  simp only [parsed, bind, Except.bind, pure, Except.pure]
  split
  · rfl
  · split
    · rfl
    · split <;> simp_all [throw, throwThe, MonadExceptOf.throw]

/-- What is known of a cartridge whose image is accepted. -/
structure Accepted (image : Array UInt8) (c : Cartridge) : Prop where
  header : Header.parse image = .ok c.header
  program : c.header.prgUnits ≠ 0
  whole : c.header.romEnd ≤ image.size
  /-- The board is the one that the header names, with the memory that it declares. -/
  board : Board.ofMapper? c.header.mapper c.header.mirroring
    (.mount c.header (image.extract c.header.prgStart c.header.chrStart)
      (image.extract c.header.chrStart c.header.romEnd)) = some c.board

/-- The program that a header declares. -/
theorem Accepted.program_size {image : Array UInt8} {c : Cartridge} (h : Accepted image c) :
    (image.extract c.header.prgStart c.header.chrStart).size = c.header.prgUnits * 0x4000 := by
  have whole := h.whole
  have end_eq : c.header.romEnd = c.header.chrStart + c.header.chrSize := rfl
  have start_eq : c.header.chrStart = c.header.prgStart + c.header.prgUnits * 0x4000 := rfl
  rw [Array.size_extract]
  omega

/-- Saved memory of an accepted image is found by the checksum of program and patterns. -/
theorem ofImageBy_ok {image : Array UInt8} {c : Cartridge}
    (accepted : ofImageBy checksum image = .ok c) :
    Accepted image c ∧
      c.id = Hex.padded 8 (checksum (image.extract c.header.prgStart c.header.romEnd)).toNat := by
  cases parsed : Header.parse image with
  | error e =>
    rw [ofImageBy, parsed] at accepted
    contradiction
  | ok h =>
    rw [ofImageBy_of_parsed parsed] at accepted
    split at accepted
    · contradiction
    next program =>
      split at accepted
      · contradiction
      next whole =>
        split at accepted
        · contradiction
        next board known =>
          cases accepted
          exact ⟨⟨parsed, program, Nat.not_lt.mp whole, known⟩, rfl⟩

theorem ofImage_accepted {image : Array UInt8} {c : Cartridge} (accepted : ofImage image = .ok c) :
    Accepted image c := (ofImageBy_ok accepted).1

/-- An image is accepted when it holds what its header declares and its board is known. -/
theorem ofImage_accepts {image : Array UInt8} {header : Header}
    (parsed : Header.parse image = .ok header) (program : header.prgUnits ≠ 0)
    (whole : header.romEnd ≤ image.size)
    (known : ∀ banks, (Board.ofMapper? header.mapper header.mirroring banks).isSome) :
    ∃ cartridge, ofImage image = .ok cartridge := by
  have mounted := known (.mount header (image.extract header.prgStart header.chrStart)
    (image.extract header.chrStart header.romEnd))
  obtain ⟨board, found⟩ := Option.isSome_iff_exists.mp mounted
  rw [ofImage, ofImageBy_of_parsed parsed, if_neg program, if_neg (Nat.not_lt.mpr whole), found]
  exact ⟨_, rfl⟩

theorem parse_imageOfProgram (program : List UInt8) (origin : UInt16) :
    Header.parse (imageOfProgram program origin) = .ok programHeader := by
  unfold imageOfProgram
  rw [Array.append_assoc]
  exact parse_plainHeader _

/-- An image around a program is the image of a cartridge. -/
theorem ofImage_imageOfProgram (program : List UInt8) (origin : UInt16) :
    ∃ cartridge, ofImage (imageOfProgram program origin) = .ok cartridge := by
  have size : (imageOfProgram program origin).size = 40976 := by
    have headerSize : plainHeader.toArray.size = 16 := rfl
    simp only [imageOfProgram, Array.size_append, programMemory_size, Array.size_replicate,
      headerSize, programSize, patternSize]
  have whole : programHeader.romEnd = 40976 := by decide
  exact ofImage_accepts (parse_imageOfProgram program origin) (by decide) (by rw [size, whole])
    fun _ => rfl

end Famiclone.Cartridge
