import Famiclone.Proofs.Json.Reading
import Mathlib.Data.List.TakeDrop

/-!
# Reading numbers

A number ends where its bytes do, so a numeral that is read when it stands alone is read in the same
way in front of anything that cannot belong to it. The numerals of natural numbers are read back.
-/
namespace Famiclone.Json

open Reader

variable {α β : Type}

/-! ## Numerals and what follows them -/

/-- A reader takes no more when something follows that cannot belong to a number. -/
def Stable (r : Reader α) : Prop :=
  ∀ bytes a between rest, r bytes = .ok (a, between) → Stops rest →
    r (bytes ++ rest) = .ok (a, between ++ rest)

theorem Yields.stable {r : Reader α} (h : Yields r fun _ => False) : Stable r :=
  fun _ _ _ _ hr => (h _ _ _ hr).elim

namespace Stable

theorem pure (a : α) : Stable (pure a : Reader α) := by
  intro bytes b between rest h _
  simp only [pure_apply, Except.ok.injEq, Prod.mk.injEq] at h ⊢
  simp [h]

theorem throw (fault : Fault) : Stable (throw fault : Reader α) := (Yields.throw fault).stable

theorem bind {r : Reader α} {k : α → Reader β} (hr : Stable r) (hk : ∀ a, Stable (k a)) :
    Stable (r >>= k) := by
  intro bytes b between rest h hrest
  obtain ⟨a, middle, ha, hb⟩ := of_bind_ok h
  rw [bind_ok (hr _ _ _ rest ha hrest)]
  exact hk a _ _ _ rest hb hrest

theorem ite {c : Prop} [Decidable c] {r q : Reader α} (hr : Stable r) (hq : Stable q) :
    Stable (if c then r else q) := by
  split
  · exact hr
  · exact hq

/-- A mark is passed over where it stands, and it does not stand behind a number. -/
theorem mark {p : Option UInt8 → Bool} (hend : p none = false)
    (hstop : ∀ rest, Stops rest → p rest.head? = false) {yes no : Reader α} (hyes : Stable yes)
    (hno : Stable no) : Stable (peek >>= fun c => if p c then pass >>= fun _ => yes else no) := by
  intro bytes a between rest h hrest
  rw [bind_ok peek_apply] at h ⊢
  cases bytes with
  | nil =>
    rw [List.head?_nil, hend] at h
    rw [List.nil_append, hstop rest hrest]
    exact hno [] a between rest h hrest
  | cons c bytes =>
    rw [List.head?_cons] at h
    rw [List.cons_append, List.head?_cons]
    cases hc : p (some c) with
    | true =>
      rw [hc, if_pos rfl, bind_ok pass_apply, List.tail_cons] at h
      rw [if_pos rfl, bind_ok pass_apply, List.tail_cons]
      exact hyes bytes a between rest h hrest
    | false =>
      rw [hc] at h
      exact hno (c :: bytes) a between rest h hrest

end Stable

theorem Stops.takeWhile_digit {rest : List UInt8} (h : Stops rest) : rest.takeWhile isDigit = [] := by
  cases rest with
  | nil => simp
  | cons b rest => simp [(h b rfl).1]

theorem Stops.dropWhile_digit {rest : List UInt8} (h : Stops rest) : rest.dropWhile isDigit = rest := by
  cases rest with
  | nil => simp
  | cons b rest => simp [(h b rfl).1]

theorem Stops.not_point {rest : List UInt8} (h : Stops rest) : (rest.head? == some (ascii '.')) = false := by
  cases rest with
  | nil => rfl
  | cons b rest => simpa using (h b rfl).2.1

theorem Stops.not_mark {rest : List UInt8} (h : Stops rest) : isExponentMark rest.head? = false := by
  cases rest with
  | nil => rfl
  | cons b rest => exact (h b rfl).2.2

theorem digits_apply (bytes : List UInt8) :
    digits bytes = .ok (bytes.takeWhile isDigit, bytes.dropWhile isDigit) :=
  congrArg Except.ok (List.span_eq_takeWhile_dropWhile isDigit bytes)

theorem digits_stable : Stable digits := by
  intro bytes ds between rest h hrest
  rw [digits_apply, Except.ok.injEq, Prod.mk.injEq] at h
  obtain ⟨rfl, rfl⟩ := h
  rw [digits_apply, Except.ok.injEq, Prod.mk.injEq]
  induction bytes with
  | nil => simp [hrest.takeWhile_digit, hrest.dropWhile_digit]
  | cons b bytes ih => cases hb : isDigit b <;> simp [hb, ih]

/-- Where digits have to stand there is a fault without them. -/
theorem no_digits_yields (P : List UInt8 → Prop) : Yields (do
    if (← peek).isNone then throw .endsEarly else throw .malformed : Reader (List UInt8)) P :=
  .behind fun _ => .ite (.throw _) (.throw _)

theorem someDigits_stable : Stable someDigits := by
  refine digits_stable.bind fun ds => ?_
  cases ds with
  | nil => exact (no_digits_yields _).stable
  | cons d ds => exact .pure _

theorem wholeDigits_stable : Stable wholeDigits := by
  refine digits_stable.bind fun ds => ?_
  cases ds with
  | nil => exact (no_digits_yields _).stable
  | cons d ds => exact .ite (.throw _) (.pure _)

theorem exponent_stable : Stable exponent := by
  intro bytes a between rest h hrest
  rw [exponent, bind_ok peek_apply] at h ⊢
  cases bytes with
  | nil =>
    rw [List.head?_nil, if_neg (by simp)] at h
    obtain ⟨ds, _, hds, _⟩ := of_bind_ok h
    cases hds
  | cons b bytes =>
    rw [List.head?_cons] at h
    rw [List.cons_append, List.head?_cons]
    by_cases hsign : some b = some (ascii '+') ∨ some b = some (ascii '-')
    · rw [if_pos hsign, bind_ok pass_apply] at h ⊢
      exact (someDigits_stable.bind fun _ => .pure _) _ _ _ rest h hrest
    · rw [if_neg hsign] at h ⊢
      exact (someDigits_stable.bind fun _ => .pure _) (b :: bytes) _ _ rest h hrest

/-- The number that digits and marks make. -/
def evaluate (below point scaled : Bool) (s : Scientific) : Reader Number := do
  if !point && !scaled && s.exponent == 0 then
    if !below then return .natural s.significand
    else if s.significand ≠ 0 ∧ s.significand ≤ 0x8000000000000000 then return .negative s.significand
  match s.toFloat? with
  | none => throw .malformed
  | some x => return .real (if below then -x else x)

/-- What is left of a number behind its digits. -/
def scaled (below point : Bool) (s : Scientific) : Reader Number := do
  if isExponentMark (← peek) then
    pass
    evaluate below point true { s with exponent := s.exponent + (← exponent) }
  else evaluate below point false s

/-- A number is taken from mark to mark. -/
theorem number_eq (below : Bool) : number below = (do
    let whole := Scientific.takeWhole ⟨0, 0⟩ (← wholeDigits)
    if (← peek) == some (ascii '.') then
      pass
      scaled below true (whole.takeFraction (← someDigits))
    else scaled below false whole) := by
  unfold number scaled evaluate
  refine bind_congr fun whole => bind_congr fun c => ?_
  cases c == some (ascii '.') with
  | true =>
    simp only [if_true, pure_bind]
    refine bind_congr fun _ => bind_congr fun _ => bind_congr fun c => ?_
    cases isExponentMark c <;> rfl
  | false =>
    simp only [pure_bind, Bool.false_eq_true, if_false]
    refine bind_congr fun c => ?_
    cases isExponentMark c <;> rfl

theorem evaluate_stable (below point scaled : Bool) (s : Scientific) :
    Stable (evaluate below point scaled s) := by
  have hreal : Stable (match s.toFloat? with
      | none => throw .malformed
      | some x => pure (.real (if below then -x else x)) : Reader Number) := by
    cases s.toFloat? with
    | none => exact .throw _
    | some x => exact .pure _
  exact .ite (.ite (.pure _) (.ite (.pure _) hreal)) hreal

theorem scaled_stable (below point : Bool) (s : Scientific) : Stable (scaled below point s) :=
  .mark rfl (fun _ => Stops.not_mark) (exponent_stable.bind fun _ => evaluate_stable _ _ _ _)
    (evaluate_stable _ _ _ _)

theorem number_stable (below : Bool) : Stable (number below) := by
  rw [number_eq]
  refine wholeDigits_stable.bind fun whole => ?_
  have hfraction := someDigits_stable.bind fun ds =>
    scaled_stable below true ((Scientific.takeWhole ⟨0, 0⟩ whole).takeFraction ds)
  exact .mark rfl (fun _ => Stops.not_point) hfraction (scaled_stable _ _ _)

/-- A token that is there is there with all that follows. -/
theorem of_expectToken_ok {bytes between : List UInt8} {c : UInt8}
    (h : expectToken bytes = .ok (c, between)) :
    ∃ tail, between = c :: tail ∧ ∀ rest, expectToken (bytes ++ rest) = .ok (c, between ++ rest) := by
  induction bytes with
  | nil => cases h
  | cons b bytes ih =>
    cases hb : isBlank b with
    | true =>
      have hskip : Blank [b] := by simpa [Blank] using hb
      obtain ⟨tail, htail, hall⟩ := ih ((expectToken_skipsBlanks [b] bytes hskip).symm.trans h)
      exact ⟨tail, htail, fun rest => (expectToken_skipsBlanks [b] (bytes ++ rest) hskip).trans (hall rest)⟩
    | false =>
      rw [expectToken_cons hb] at h
      cases h
      exact ⟨bytes, rfl, fun rest => expectToken_cons hb⟩

theorem anyNumber_stable : Stable anyNumber := by
  intro bytes n between rest h hrest
  obtain ⟨c, _, htoken, h⟩ := of_bind_ok h
  obtain ⟨tail, rfl, htoken⟩ := of_expectToken_ok htoken
  rw [anyNumber, bind_ok (htoken rest)]
  by_cases hsign : c = ascii '-'
  · rw [if_pos hsign, bind_ok pass_apply, List.tail_cons] at h
    rw [if_pos hsign, bind_ok pass_apply, List.cons_append, List.tail_cons]
    exact number_stable true _ _ _ rest h hrest
  · rw [if_neg hsign] at h ⊢
    exact Stable.ite (number_stable false) (mismatch_yields _).stable _ _ _ rest h hrest

/-! ## Numerals of natural numbers -/

/-- The bytes of the numeral of a natural number. -/
def numeral (n : Nat) : List UInt8 := (Nat.toDigits 10 n).map ascii

theorem digitByte_eq : ∀ d < 10, ascii (Nat.digitChar d) = UInt8.ofNat (48 + d) := by decide

theorem numeral_of_lt {n : Nat} (h : n < 10) : numeral n = [UInt8.ofNat (48 + n)] := by
  rw [numeral, Nat.toDigits_of_lt_base h, List.map_singleton, digitByte_eq n h]

theorem numeral_of_le {n : Nat} (h : 10 ≤ n) :
    numeral n = numeral (n / 10) ++ [UInt8.ofNat (48 + n % 10)] := by
  rw [numeral, Nat.toDigits_of_base_le (by decide) h, List.map_append, List.map_singleton,
    digitByte_eq _ (Nat.mod_lt n (by decide)), numeral]

/-- Digit for digit along a numeral. -/
@[elab_as_elim]
theorem numeral_induction {P : Nat → Prop} (digit : ∀ n, n < 10 → P n)
    (further : ∀ n, 10 ≤ n → P (n / 10) → P n) (n : Nat) : P n := by
  induction n using Nat.strongRecOn with
  | ind n ih =>
    by_cases hn : n < 10
    · exact digit n hn
    · exact further n (by omega) (ih (n / 10) (by omega))

theorem isDigit_of_mem_numeral {n : Nat} {b : UInt8} (h : b ∈ numeral n) : isDigit b = true := by
  have hdigit : ∀ d < 10, isDigit (UInt8.ofNat (48 + d)) = true := by decide
  induction n using numeral_induction with
  | digit n hn =>
    rw [numeral_of_lt hn, List.mem_singleton] at h
    exact h ▸ hdigit n hn
  | further n hn ih =>
    rw [numeral_of_le hn, List.mem_append, List.mem_singleton] at h
    cases h with
    | inl h => exact ih h
    | inr h => exact h ▸ hdigit _ (Nat.mod_lt n (by decide))

theorem numeral_ne_nil (n : Nat) : numeral n ≠ [] := by
  simp [numeral, Nat.toDigits_ne_nil]

/-- Only the numeral of zero begins with a zero. -/
theorem eq_zero_of_head_numeral {n : Nat} (h : (numeral n).head? = some (ascii '0')) : n = 0 := by
  have hdigit : ∀ d < 10, UInt8.ofNat (48 + d) = ascii '0' → d = 0 := by decide
  induction n using numeral_induction with
  | digit n hn =>
    rw [numeral_of_lt hn, List.head?_cons, Option.some.injEq] at h
    exact hdigit n hn h
  | further n hn ih =>
    have hfront : (numeral (n / 10)).head? = some (ascii '0') := by
      obtain ⟨b, tail, hnumeral⟩ := List.exists_cons_of_ne_nil (numeral_ne_nil (n / 10))
      rw [numeral_of_le hn, hnumeral] at h
      rw [hnumeral]
      exact h
    have := ih hfront
    omega

theorem utf8_toString (n : Nat) : utf8 (toString n) = numeral n := by
  have hdigit : ∀ c : Char, c.isDigit = true → c.val.toNat ≤ 127 := by
    intro c hc
    have hle : c.val ≤ '9'.val := by
      simp [Char.isDigit] at hc
      exact hc.2
    have := UInt32.le_iff_toNat_le.mp hle
    exact Nat.le_trans this (by decide)
  have hchar : ∀ c ∈ (toString n).toList, c.val.toNat ≤ 127 := by
    intro c hc
    rw [Nat.toString_eq_ofList_toDigits, String.toList_ofList] at hc
    exact hdigit c (Nat.isDigit_of_mem_toDigits (by decide) (by decide) hc)
  rw [utf8_of_ascii hchar, asciiBytes, Nat.toString_eq_ofList_toDigits, String.toList_ofList, numeral]

namespace Scientific

/-- Digits that all fit are taken one after another. -/
theorem takeWhole_append {s t : Scientific} {ds : List UInt8} (h : takeWhole s ds = t)
    (hfit : t.exponent = s.exponent) (more : List UInt8) :
    takeWhole s (ds ++ more) = takeWhole t more := by
  induction ds generalizing s with
  | nil => rw [← h]; rfl
  | cons d ds ih =>
    simp only [List.cons_append, takeWhole] at h ⊢
    split at h
    case isTrue hnext => rw [if_pos hnext, ih h hfit]
    case isFalse hnext =>
      rw [← h] at hfit
      simp only at hfit
      omega

theorem takeWhole_numeral {n : Nat} (hn : n < UInt64.size) : takeWhole ⟨0, 0⟩ (numeral n) = ⟨n, 0⟩ := by
  have hdigit : ∀ d < 10, (UInt8.ofNat (48 + d)).toNat - 48 = d := by decide
  induction n using numeral_induction with
  | digit n hsmall =>
    have hsum : 0 * 10 + n = n := by omega
    simp only [numeral_of_lt hsmall, takeWhole, hdigit n hsmall, hsum, if_pos hn]
  | further n hlarge ih =>
    have hfront := ih (by omega)
    have hlast := hdigit (n % 10) (by omega)
    have hwhole : n / 10 * 10 + n % 10 = n := by omega
    rw [numeral_of_le hlarge, takeWhole_append hfront rfl]
    simp only [takeWhole, hlast, hwhole, if_pos hn]

end Scientific

variable {n : Nat} {rest : List UInt8}

theorem wholeDigits_numeral (n : Nat) (hrest : Stops rest) :
    wholeDigits (numeral n ++ rest) = .ok (numeral n, rest) := by
  have hdigits : digits (numeral n ++ rest) = .ok (numeral n, rest) := by
    rw [digits_apply, List.takeWhile_append_of_pos fun _ => isDigit_of_mem_numeral,
      List.dropWhile_append_of_pos fun _ => isDigit_of_mem_numeral, hrest.takeWhile_digit,
      hrest.dropWhile_digit, List.append_nil]
  have hzero : ¬ ((numeral n).length > 1 ∧ (numeral n).head? = some (ascii '0')) := by
    rintro ⟨hlength, hhead⟩
    rw [eq_zero_of_head_numeral hhead] at hlength
    exact absurd hlength (by decide)
  obtain ⟨b, tail, hnumeral⟩ := List.exists_cons_of_ne_nil (numeral_ne_nil n)
  rw [wholeDigits, bind_ok hdigits]
  rw [hnumeral] at hzero ⊢
  simp only [if_neg hzero, pure_apply]

theorem number_numeral (hn : n < UInt64.size) (hrest : Stops rest) :
    number false (numeral n ++ rest) = .ok (.natural n, rest) := by
  rw [number_eq, bind_ok (wholeDigits_numeral n hrest), Scientific.takeWhole_numeral hn, bind_ok peek_apply,
    hrest.not_point, if_neg (by decide), scaled, bind_ok peek_apply, hrest.not_mark, if_neg (by decide)]
  rfl

theorem isDigit_else {b : UInt8} (h : isDigit b = true) : isBlank b = false ∧ b ≠ ascii '-' := by
  obtain ⟨b, rfl⟩ : ∃ n : Fin 256, b = UInt8.ofFin n := ⟨b.toFin, rfl⟩
  revert h b
  decide +kernel

theorem anyNumber_numeral (hn : n < UInt64.size) (hrest : Stops rest) :
    anyNumber (numeral n ++ rest) = .ok (.natural n, rest) := by
  obtain ⟨b, tail, hnumeral⟩ := List.exists_cons_of_ne_nil (numeral_ne_nil n)
  have hdigit : isDigit b = true := isDigit_of_mem_numeral (hnumeral ▸ List.mem_cons_self)
  have hfirst : expectToken (numeral n ++ rest) = .ok (b, numeral n ++ rest) := by
    rw [hnumeral, List.cons_append, expectToken_cons (isDigit_else hdigit).1]
  rw [anyNumber, bind_ok hfirst, if_neg (isDigit_else hdigit).2, if_pos hdigit, number_numeral hn hrest]

/-- A natural number within a limit is read back. -/
theorem natBelow_readsAs {limit : Nat} (hn : n < limit) (hlimit : limit ≤ UInt64.size) :
    ReadsAs (natBelow limit) (.number (toString n)) (.ok n) := by
  refine .atom (by simp) (expectToken_skipsBlanks.bind _ |>.bind _) fun rest hrest => ?_
  rw [Value.atom, utf8_toString, natBelow, bind_ok (anyNumber_numeral (Nat.lt_of_lt_of_le hn hlimit) hrest)]
  simp only [if_pos hn]
  rfl

theorem natBelow_yields (limit : Nat) : Yields (natBelow limit) (· < limit) := by
  refine .behind fun number => ?_
  cases number with
  | natural n =>
    by_cases hn : n < limit
    · simp only [if_pos hn]
      exact .pure hn
    · simp only [if_neg hn]
      exact .throw .mismatch
  | negative n => exact .throw .mismatch
  | real x => exact .throw .mismatch

/-! ## Numbers in single precision -/

theorem single_stable : Stable single := by
  refine anyNumber_stable.bind fun n => ?_
  cases n <;> exact .pure _

/-- A numeral that is read when it stands alone is read wherever it stands. -/
theorem single_readsAs {text : String} {x : Float32} (h : single (utf8 text) = .ok (x, [])) :
    ReadsAs single (.number text) (.ok x) := by
  refine .atom (by simp) (expectToken_skipsBlanks.bind _ |>.bind _) fun rest hrest => ?_
  exact single_stable _ _ _ rest h hrest

/-- What is nothing is no number. -/
theorem single_null : ReadsAs single .null (.error .mismatch) := by
  refine .null (expectToken_skipsBlanks.bind _ |>.bind _) fun rest => ?_
  have hfirst : (asciiBytes "null").head? = some (ascii 'n') := by decide +kernel
  have hnumber : anyNumber (asciiBytes "null" ++ rest) = .error .mismatch := by
    rw [anyNumber, bind_ok (expectToken_word hfirst (by decide)), if_neg (by decide), if_neg (by decide),
      mismatch_null]
  exact bind_error hnumber

end Famiclone.Json
