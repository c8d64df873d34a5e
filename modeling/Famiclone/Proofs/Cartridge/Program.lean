import Famiclone.Proofs.Board.Windows
import Famiclone.Proofs.Cartridge.Image

/-!
# What a plain cartridge shows

The cartridge around a program has one bank of 32 KiB, so each address of the program always shows the
same byte: one of the program itself, of the vectors, of the idle handler, or the filler.
-/
namespace Famiclone.Cartridge

/-! ## Bytes in a row -/

theorem place_cons (memory : Array UInt8) (start : Nat) (b : UInt8) (bytes : List UInt8) :
    place memory start (b :: bytes) =
      place (memory.setIfInBounds (start % memory.size) b) (start + 1) bytes := by
  have later : bytes.zipIdx 1 = bytes.zipIdx.map fun e => (e.1, e.2 + 1) := by
    rw [List.zipIdx_succ]
  unfold place
  rw [List.zipIdx_cons, List.foldl_cons, later, List.foldl_map, Array.size_setIfInBounds]
  simp only [Nat.add_zero, Nat.add_assoc, Nat.add_comm 1]

/-- Bytes that fit in stand where they have been put, and the others are left alone. -/
theorem place_getElem? (memory : Array UInt8) (start : Nat) (bytes : List UInt8)
    (fits : start + bytes.length ≤ memory.size) (i : Nat) : (place memory start bytes)[i]? =
      if start ≤ i ∧ i < start + bytes.length then bytes[i - start]? else memory[i]? := by
  induction bytes generalizing memory start with
  | nil => simp [place]
  | cons b bytes ih =>
    rw [List.length_cons] at fits ⊢
    have first : start < memory.size := by omega
    rw [place_cons, Nat.mod_eq_of_lt first, ih _ _ (by rw [Array.size_setIfInBounds]; omega)]
    rcases Nat.lt_trichotomy i start with before | rfl | behind
    · rw [if_neg (by omega), if_neg (by omega), Array.getElem?_setIfInBounds_ne (by omega)]
    · rw [if_neg (by omega), if_pos (by omega), Nat.sub_self]
      simp [first]
    · have next : i - start = i - (start + 1) + 1 := by omega
      rw [Array.getElem?_setIfInBounds_ne (by omega), next, List.getElem?_cons_succ]
      exact if_congr (by omega) rfl rfl

/-- A byte of the program memory. -/
def programByte (program : List UInt8) (origin : UInt16) (i : Nat) : UInt8 :=
  let idle : UInt16 := UInt16.ofNat (0x8000 + idleHandler)
  let start := origin.toNat % programSize
  if programSize - 6 ≤ i ∧ i < programSize then
    (wordBytes idle ++ wordBytes origin ++ wordBytes idle).getD (i - (programSize - 6)) 0
  else if i = idleHandler then 0x40
  else if start ≤ i ∧ i < start + program.length then program.getD (i - start) 0
  else 0xEA

theorem getElem?_sub {xs : List UInt8} {start i : Nat} (h : start ≤ i ∧ i < start + xs.length) :
    xs[i - start]? = some (xs.getD (i - start) 0) := by
  rw [List.getD_eq_getElem?_getD, List.getElem?_eq_getElem (by omega)]
  rfl

theorem place_filler {program : List UInt8} {start i : Nat}
    (fits : start + program.length ≤ programSize) (inside : i < programSize) :
    (place (.replicate programSize 0xEA) start program)[i]? =
      some (if start ≤ i ∧ i < start + program.length then program.getD (i - start) 0 else 0xEA) := by
  rw [place_getElem? _ _ _ (by rwa [Array.size_replicate])]
  split
  next code => exact getElem?_sub code
  next => rw [Array.getElem?_replicate, if_pos inside]

theorem place_handler {bottom : Array UInt8} (size : bottom.size = programSize) (i : Nat) :
    (place bottom idleHandler [0x40])[i]? = if i = idleHandler then some 0x40 else bottom[i]? := by
  have room : idleHandler + [(0x40 : UInt8)].length ≤ bottom.size := by
    rw [size]
    decide
  have one : idleHandler ≤ i ∧ i < idleHandler + [(0x40 : UInt8)].length ↔ i = idleHandler := by
    rw [List.length_singleton]
    omega
  rw [place_getElem? _ _ _ room]
  simp only [one]
  split
  next here =>
    rw [here, Nat.sub_self]
    rfl
  next => rfl

/-- The vectors go over the idle handler, and that over the program. -/
theorem programMemory_getElem? (program : List UInt8) (origin : UInt16)
    (fits : origin.toNat % programSize + program.length ≤ programSize) {i : Nat}
    (inside : i < programSize) :
    (programMemory program origin)[i]? = some (programByte program origin i) := by
  have vectors (v w : UInt16) : (wordBytes v ++ wordBytes w ++ wordBytes v).length = 6 := rfl
  have top : programSize - 6 + 6 = programSize := rfl
  unfold programMemory programByte
  dsimp only
  rw [place_getElem? _ _ _ (by simp only [vectors, place_size, Array.size_replicate, top, le_refl]),
    place_handler (by simp only [place_size, Array.size_replicate]), place_filler fits inside, vectors,
    top]
  split
  next last => exact getElem?_sub (by rwa [vectors])
  next =>
    split
    · rfl
    · rfl

/-! ## The board -/

/-- A single bank of 32 KiB shows from its beginning to its end. -/
theorem mount_readPrg (h : Header) {prg : Array UInt8} (chr : Array UInt8)
    (size : prg.size = programSize) {address : UInt16} (high : 0x8000 ≤ address.toNat) :
    (Banks.mount h prg chr).readPrg address = prg.getD (address.toNat - 0x8000) 0 := by
  have below := address.toNat_lt
  have shown (i : Fin 4) : (Banks.mount h prg chr).prgWindows.get i = i.val * prgWindow := by
    have windows : (Banks.mount h prg chr).prgWindows =
        selectWindows (.replicate 4 0) prgWindow prg.size 0 4 0 := rfl
    rw [windows, selectWindows_get _ _ (by rw [size]; decide), if_pos (by omega), bankPlace_zero, size]
    unfold prgWindow programSize
    omega
  have offset : (Banks.mount h prg chr).prgOffset address = address.toNat - 0x8000 := by
    have window := shown ⟨address.toNat / prgWindow % 4, Nat.mod_lt _ (by decide)⟩
    show (Banks.mount h prg chr).prgWindows.get ⟨address.toNat / prgWindow % 4, _⟩ +
      address.toNat % prgWindow = _
    rw [window]
    unfold prgWindow
    dsimp only
    omega
  show prg.getD _ 0 = _
  rw [offset]

/-- The board of a plain cartridge shows the program memory. -/
theorem plain_readPrg {program : List UInt8} {origin : UInt16} {cartridge : Cartridge}
    (accepted : ofImage (imageOfProgram program origin) = .ok cartridge)
    (fits : origin.toNat % programSize + program.length ≤ programSize) {address : UInt16}
    (high : 0x8000 ≤ address.toNat) : cartridge.board.readPrg address =
      some (programByte program origin (address.toNat - 0x8000)) := by
  have below := address.toNat_lt
  have inside : address.toNat - 0x8000 < programSize := by
    unfold programSize
    omega
  have known := ofImage_accepted accepted
  have header : cartridge.header = programHeader :=
    Except.ok.inj (known.header.symm.trans (parse_imageOfProgram program origin))
  have prg : (imageOfProgram program origin).extract programHeader.prgStart programHeader.chrStart =
      programMemory program origin := by
    have size : (programMemory program origin).size = 0x8000 := programMemory_size program origin
    have start : programHeader.prgStart = 16 := rfl
    have stop : programHeader.chrStart = 0x8010 := rfl
    have head : plainHeader.toArray.size = 16 := rfl
    rw [start, stop]
    simp [imageOfProgram, Array.extract_append, head, size]
  have board := known.board
  rw [header, prg] at board
  have above : (0x8000 : UInt16) ≤ address := high
  rw [← Option.some.inj board]
  show (if 0x8000 ≤ address then some (Banks.readPrg _ address) else _) = _
  rw [if_pos above]
  show some ((Banks.mount _ _ _).readPrg address) = _
  rw [mount_readPrg _ _ (programMemory_size program origin) high, Array.getD_eq_getD_getElem?,
    programMemory_getElem? program origin fits inside, Option.getD_some]

end Famiclone.Cartridge
