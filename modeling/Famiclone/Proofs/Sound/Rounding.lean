import Mathlib

/-!
# Counting with double-precision numbers

A count of cycles is kept beside a clock that is a double-precision number and takes one more with each
cycle. What ties the two together is that rounding never loses a whole: as long as a number is below two
to the power of fifty-two, its sum with one is one whole further. The facts are read off the logical
model of the numbers, in which a finite one is a mantissa of fifty-three bits and an exponent.
-/
namespace Famiclone.Rounding

open Float.Model Float.Model.UnpackedFloat

/-! ## Mantissa and exponent -/

/-- The form in which a finite number is kept: its mantissa has fifty-three bits, and fewer only with
the smallest exponent. -/
structure Kept (m : Nat) (e : Int) : Prop where
  width : m < 2 ^ 53
  exponent : -1074 ≤ e
  full : 2 ^ 52 ≤ m ∨ e = -1074

/-- The whole part of a finite number. -/
def whole (m : Nat) (e : Int) : Nat := m * 2 ^ e.toNat / 2 ^ (-e).toNat

/-- The exponent that a finite number is rounded to. -/
def target (m : Nat) (e : Int) : Int := Format.binary64.targetExponent (totalExponent m e)

theorem target_eq (m : Nat) (e : Int) : target m e = max (m.log2 + e - 52) (-1074) := by
  show max ((m.log2 : Int) + 1 + e - 53) (-1074) = _
  congr 1
  omega

theorem whole_of_nonpos {e : Int} (h : e ≤ 0) (m : Nat) : whole m e = m / 2 ^ (-e).toNat := by
  have none : e.toNat = 0 := Int.toNat_of_nonpos h
  rw [whole, none, pow_zero, mul_one]

theorem whole_of_nonneg {e : Int} (h : 0 ≤ e) (m : Nat) : whole m e = m * 2 ^ e.toNat := by
  have none : (-e).toNat = 0 := by omega
  rw [whole, none, pow_zero, Nat.div_one]

theorem whole_mono {m n : Nat} (h : m ≤ n) (e : Int) : whole m e ≤ whole n e :=
  Nat.div_le_div_right (Nat.mul_le_mul_right _ h)

/-- A mantissa that has grown by a bit is cut to its half, and the exponent takes the bit. -/
theorem whole_double (m : Nat) (e : Int) : whole m (e + 1) = whole (2 * m) e := by
  rcases lt_or_ge e 0 with negative | nonneg
  · have next : (-e).toNat = (-(e + 1)).toNat + 1 := by omega
    rw [whole_of_nonpos (by omega), whole_of_nonpos (by omega), next, pow_succ',
      Nat.mul_div_mul_left _ _ (by decide)]
  · have next : (e + 1).toNat = e.toNat + 1 := by omega
    rw [whole_of_nonneg (by omega), whole_of_nonneg nonneg, next, pow_succ', ← mul_assoc,
      mul_comm m 2]

theorem whole_shiftLeft (m : Nat) (e : Int) (k : Nat) : whole (m <<< k) (e - k) = whole m e := by
  induction k with
  | zero => rw [Nat.shiftLeft_zero, Nat.cast_zero, sub_zero]
  | succ k ih =>
    rw [Nat.shiftLeft_succ, ← whole_double, ← ih]
    congr 1
    push_cast
    ring

/-! ## Rounding -/

theorem shifted_mantissa (em : ExtendedMantissa) (k : Nat) :
    (em >>> k).mantissa = em.mantissa / 2 ^ k := by
  induction k with
  | zero => exact (Nat.div_one _).symm
  | succ k ih =>
    show (em >>> k).mantissa / 2 = _
    rw [ih, Nat.div_div_eq_div_mul, pow_succ]

theorem roundedMantissa_bounds (em : ExtendedMantissa) :
    em.mantissa ≤ em.roundedMantissa ∧ em.roundedMantissa ≤ em.mantissa + 1 := by
  obtain ⟨m, half, rest⟩ := em
  cases half <;> cases rest <;>
    simp only [ExtendedMantissa.roundedMantissa, ExtendedMantissa.accuracy,
      Accuracy.roundToNearestEven] <;> omega

theorem shifted_lt (m k : Nat) (h : m.log2 ≤ 52 + k) : m / 2 ^ k < 2 ^ 53 := by
  rw [Nat.div_lt_iff_lt_mul (Nat.two_pow_pos k), ← pow_add]
  exact Nat.lt_of_lt_of_le Nat.lt_log2_self (Nat.pow_le_pow_right (by decide) (by omega))

theorem le_shifted {m k : Nat} (h : 52 + k ≤ m.log2) : 2 ^ 52 ≤ m / 2 ^ k := by
  have positive : m ≠ 0 := fun zero => by
    subst zero
    exact absurd h (by simp only [Nat.log2_zero]; omega)
  rw [Nat.le_div_iff_mul_le (Nat.two_pow_pos k), ← pow_add]
  exact (Nat.le_log2 positive).mp h

/-- Shifting a mantissa to the exponent aimed at. -/
theorem shiftToTarget_eq (m : Nat) (e : Int) (accuracy : Accuracy) :
    shiftToTargetExponent Format.binary64 m e accuracy =
      (ExtendedMantissa.ofMantissaAndAccuracy m accuracy >>> (target m e - e).toNat,
        e + ((target m e - e).toNat : Int)) := rfl

/-- A mantissa that fits is left alone by a second look at it. -/
theorem shiftToTarget_of_lt {r : Nat} {t : Int} (fits : r < 2 ^ 53) (h : -1074 ≤ t) :
    shiftToTargetExponent Format.binary64 r t .exact = (⟨r, false, false⟩, t) := by
  have bits : r.log2 ≤ 52 := by
    rcases Nat.eq_zero_or_pos r with rfl | positive
    · decide
    · exact Nat.lt_succ_iff.mp ((Nat.log2_lt positive.ne').mpr fits)
  have shift : (target r t - t).toNat = 0 := by
    rw [target_eq]
    omega
  rw [shiftToTarget_eq, shift, Nat.cast_zero, add_zero]
  rfl

/-- One that has grown by a bit is cut. -/
theorem shiftToTarget_of_eq {t : Int} (h : -1074 ≤ t) :
    shiftToTargetExponent Format.binary64 (2 ^ 53) t .exact = (⟨2 ^ 52, false, false⟩, t + 1) := by
  have shift : (target (2 ^ 53) t - t).toNat = 1 := by
    rw [target_eq, Nat.log2_two_pow]
    omega
  rw [shiftToTarget_eq, shift]
  rfl

theorem target_ge (m : Nat) (e : Int) : -1074 ≤ target m e := by
  rw [target_eq]
  exact le_max_right _ _

/-- The first shift brings the exponent to the one aimed at, and rounding what is left of the mantissa
makes it no smaller and adds at most a bit. -/
theorem shiftToTarget_rounded {m : Nat} {e : Int} (accuracy : Accuracy) (h : e ≤ target m e) :
    ∃ first, shiftToTargetExponent Format.binary64 m e accuracy = (first, target m e) ∧
      m / 2 ^ (target m e - e).toNat ≤ first.roundedMantissa ∧ first.roundedMantissa ≤ 2 ^ 53 := by
  refine ⟨_, (shiftToTarget_eq m e accuracy).trans (Prod.ext rfl ?_), ?_⟩
  · dsimp only
    omega
  generalize hfirst :
    ExtendedMantissa.ofMantissaAndAccuracy m accuracy >>> (target m e - e).toNat = first
  have mantissa : first.mantissa = m / 2 ^ (target m e - e).toNat := by
    rw [← hfirst, shifted_mantissa]
    rcases accuracy with _ | _ | _ | _ <;> rfl
  have fits : first.mantissa < 2 ^ 53 := by
    have aim := target_eq m e
    rw [mantissa]
    exact shifted_lt _ _ (by omega)
  have bounds := roundedMantissa_bounds first
  exact ⟨mantissa ▸ bounds.1, by omega⟩

/-- What rounding gives: the mantissa is cut at the exponent aimed at, and perhaps one larger. -/
theorem roundWithAccuracy_eq {m : Nat} {e : Int} (accuracy : Accuracy) (h : e ≤ target m e) :
    ∃ r, m / 2 ^ (target m e - e).toNat ≤ r ∧
      (r = 0 ∧ roundWithAccuracy Format.binary64 .positive m e accuracy = .zero .positive ∨
        (∃ positive : 0 < r, r < 2 ^ 53 ∧
          roundWithAccuracy Format.binary64 .positive m e accuracy =
            .finite .positive r (target m e) positive) ∨
        r = 2 ^ 53 ∧ roundWithAccuracy Format.binary64 .positive m e accuracy =
          .finite .positive (2 ^ 52) (target m e + 1) (by decide)) := by
  have smallest := target_ge m e
  obtain ⟨first, shift, cut, bound⟩ := shiftToTarget_rounded accuracy h
  refine ⟨first.roundedMantissa, cut, ?_⟩
  unfold roundWithAccuracy
  rw [shift]
  dsimp only
  generalize first.roundedMantissa = r at bound ⊢
  rcases Nat.eq_zero_or_pos r with rfl | positive
  · left
    rw [shiftToTarget_of_lt (by decide) smallest]
    exact ⟨rfl, rfl⟩
  · right
    rcases Nat.lt_or_ge r (2 ^ 53) with small | large
    · left
      refine ⟨positive, small, ?_⟩
      rw [shiftToTarget_of_lt small smallest]
      exact dif_neg positive.ne'
    · right
      have grown : r = 2 ^ 53 := by omega
      refine ⟨grown, ?_⟩
      rw [grown, shiftToTarget_of_eq smallest]
      rfl

/-- The mantissa cut at the exponent aimed at is full, unless that is the smallest exponent. -/
theorem full_cut {m : Nat} {e : Int} (h : e ≤ target m e) :
    2 ^ 52 ≤ m / 2 ^ (target m e - e).toNat ∨ target m e = -1074 := by
  have aim := target_eq m e
  by_cases smallest : target m e = -1074
  · exact .inr smallest
  · exact .inl (le_shifted (by omega))

/-- The result of rounding is kept, and not below what is left when the mantissa is cut. -/
theorem roundWithAccuracy_kept {m : Nat} {e : Int} (accuracy : Accuracy) (h : e ≤ target m e) :
    m / 2 ^ (target m e - e).toNat = 0 ∧
        roundWithAccuracy Format.binary64 .positive m e accuracy = .zero .positive ∨
      ∃ m' e', ∃ positive' : 0 < m',
        roundWithAccuracy Format.binary64 .positive m e accuracy =
          .finite .positive m' e' positive' ∧
        Kept m' e' ∧ e' ≤ target m e + 1 ∧
        whole (m / 2 ^ (target m e - e).toNat) (target m e) ≤ whole m' e' := by
  have smallest := target_ge m e
  have full := full_cut h
  obtain ⟨r, cut, ⟨zero, result⟩ | ⟨positive', small, result⟩ | ⟨grown, result⟩⟩ :=
    roundWithAccuracy_eq accuracy h
  · exact .inl ⟨Nat.le_zero.mp (zero ▸ cut), result⟩
  · exact .inr ⟨r, _, positive', result,
      ⟨small, smallest, full.imp_left (le_trans · cut)⟩, by omega, whole_mono cut _⟩
  · refine .inr ⟨2 ^ 52, _, _, result, ⟨by decide, by omega, .inl (le_refl _)⟩, le_refl _, ?_⟩
    rw [whole_double]
    exact whole_mono (cut.trans grown.le) _

/-- Cutting a mantissa loses no whole below two to the power of fifty-three. -/
theorem le_whole_cut {m n : Nat} {e : Int} (h : e ≤ target m e)
    (exact : n ≤ whole m e) (small : n ≤ 2 ^ 53) :
    n ≤ whole (m / 2 ^ (target m e - e).toNat) (target m e) := by
  rcases le_or_gt (target m e) 0 with nonpos | above
  · have shifts : (target m e - e).toNat + (-target m e).toNat = (-e).toNat := by omega
    rw [whole_of_nonpos nonpos, Nat.div_div_eq_div_mul, ← pow_add, shifts]
    rwa [whole_of_nonpos (by omega)] at exact
  · have full := (full_cut h).resolve_right (by omega)
    have doubled : 2 ^ 1 ≤ 2 ^ (target m e).toNat := Nat.pow_le_pow_right (by decide) (by omega)
    calc n ≤ 2 ^ 52 * 2 ^ 1 := small
      _ ≤ _ := Nat.mul_le_mul full doubled
      _ = _ := (whole_of_nonneg (by omega) _).symm

/-! ## Lower bounds -/

/-- A number, in the form in which it is kept, that is not below a natural number. -/
inductive AtLeast : Nat → UnpackedFloat → Prop where
  | zero (sign : Sign) : AtLeast 0 (.zero sign)
  | finite {n m : Nat} {e : Int} (positive : 0 < m) (kept : Kept m e) (le : n ≤ whole m e) :
    AtLeast n (.finite .positive m e positive)
  | infinity (n : Nat) : AtLeast n (.infinity .positive)

/-- A number, in the form in which it is kept, that is neither negative nor above two to the power of
twenty-four. -/
inductive Short : UnpackedFloat → Prop where
  | zero (sign : Sign) : Short (.zero sign)
  | finite {m : Nat} {e : Int} (positive : 0 < m) (kept : Kept m e) (low : e ≤ -29) :
    Short (.finite .positive m e positive)

theorem unpack_pack_infinity : (pack (.infinity .positive)).unpack = .infinity .positive := rfl

theorem unpack_pack_zero (sign : Sign) : (pack (.zero sign)).unpack = .zero sign :=
  unpack_packedZero

theorem log2_of_full {m : Nat} (width : m < 2 ^ 53) (full : 2 ^ 52 ≤ m) : m.log2 = 52 :=
  (Nat.log2_eq_iff (by omega)).mpr ⟨full, width⟩

theorem finite_congr {sign : Sign} {m n : Nat} {e f : Int} {hm : 0 < m} {hn : 0 < n} (mantissa : m = n)
    (exponent : e = f) : UnpackedFloat.finite sign m e hm = .finite sign n f hn := by
  subst mantissa exponent
  rfl

/-- A number whose mantissa is full is written without the highest bit. -/
theorem unpack_full {m biased : Nat} (positive : 0 < m) (width : m < 2 ^ 53) (full : 2 ^ 52 ≤ m)
    (low : 0 < biased) (high : biased < 2047) :
    UnpackedFloat.unpack Format.binary64 (packComponents Format.binary64 .positive
      (BitVec.ofNat 11 biased) (BitVec.ofNat 52 m)) =
        .finite .positive m ((biased : Int) - 1075) positive := by
  have value : (BitVec.ofNat 11 biased).toNat = biased :=
    Nat.mod_eq_of_lt (Nat.lt_trans high (by decide))
  have notLast : BitVec.ofNat 11 biased ≠ -1#11 := fun same => by
    have equal : biased = 2047 := value.symm.trans (congrArg BitVec.toNat same)
    omega
  have notFirst : BitVec.ofNat 11 biased ≠ 0#11 := fun same => by
    have equal : biased = 0 := value.symm.trans (congrArg BitVec.toNat same)
    omega
  have mantissa : (1#1 ++ BitVec.ofNat 52 m).toNat = m := by
    rw [BitVec.toNat_append, ← Nat.shiftLeft_add_eq_or_of_lt (BitVec.isLt _), BitVec.toNat_ofNat,
      BitVec.toNat_ofNat, Nat.shiftLeft_eq]
    omega
  unfold UnpackedFloat.unpack
  simp only [unpackExponent_packComponents, unpackMantissa_packComponents,
    unpackSign_packComponents, if_neg notLast, if_neg notFirst]
  refine finite_congr mantissa ?_
  rw [value]
  rfl

/-- With the smallest exponent the mantissa is written as it is. -/
theorem unpack_subnormal {m : Nat} (positive : 0 < m) (width : m < 2 ^ 52) :
    UnpackedFloat.unpack Format.binary64 (packComponents Format.binary64 .positive
      0#11 (BitVec.ofNat 52 m)) = .finite .positive m (-1074) positive := by
  have value : (BitVec.ofNat 52 m).toNat = m := Nat.mod_eq_of_lt width
  have notZero : BitVec.ofNat 52 m ≠ 0#52 := fun same => by
    have equal : m = 0 := value.symm.trans (congrArg BitVec.toNat same)
    omega
  unfold UnpackedFloat.unpack
  simp only [unpackExponent_packComponents, unpackMantissa_packComponents,
    unpackSign_packComponents, dif_neg notZero]
  exact finite_congr value rfl

/-- The kept form survives in memory, unless its exponent is too large for a finite number. -/
theorem unpack_pack_finite {m : Nat} {e : Int} (positive : 0 < m) (h : Kept m e) :
    (pack (.finite .positive m e positive)).unpack =
      if 971 < e then .infinity .positive else .finite .positive m e positive := by
  have smallest := h.exponent
  show UnpackedFloat.unpack Format.binary64
    (if 2 ^ 11 ≤ (e + 1023 + 52).toNat + 1 then packedInfinity Format.binary64 .positive
      else if m.log2 + 1 = 53 then packComponents Format.binary64 .positive
        (BitVec.ofNat 11 (e + 1023 + 52).toNat) (BitVec.ofNat 52 m)
      else packComponents Format.binary64 .positive 0#11 (BitVec.ofNat 52 m)) = _
  by_cases large : 971 < e
  · rw [if_pos (by omega), if_pos large]
    exact unpack_pack_infinity
  · rw [if_neg (by omega), if_neg large]
    by_cases full : 2 ^ 52 ≤ m
    · rw [log2_of_full h.width full, if_pos rfl,
        unpack_full positive h.width full (by omega) (by omega)]
      exact finite_congr rfl (by omega)
    · have subnormal := Nat.lt_of_not_le full
      have bits := (Nat.log2_lt positive.ne').mpr subnormal
      rw [if_neg (by omega), unpack_subnormal positive subnormal]
      exact finite_congr rfl (h.full.resolve_left full).symm

theorem AtLeast.pack {n : Nat} {x : UnpackedFloat} (h : AtLeast n x) :
    AtLeast n (Float.Model.pack x).unpack := by
  cases h with
  | zero sign =>
    rw [unpack_pack_zero]
    exact .zero sign
  | finite positive kept le =>
    rw [unpack_pack_finite positive kept]
    split
    · exact .infinity n
    · exact .finite positive kept le
  | infinity => exact .infinity n

theorem Short.pack {x : UnpackedFloat} (h : Short x) : Short (Float.Model.pack x).unpack := by
  cases h with
  | zero sign =>
    rw [unpack_pack_zero]
    exact .zero sign
  | finite positive kept low =>
    rw [unpack_pack_finite positive kept, if_neg (by omega)]
    exact .finite positive kept low

theorem AtLeast.roundWithAccuracy {m n : Nat} {e : Int} (accuracy : Accuracy)
    (h : e ≤ target m e) (exact : n ≤ whole m e) (small : n ≤ 2 ^ 53) :
    AtLeast n (roundWithAccuracy Format.binary64 .positive m e accuracy) := by
  have bound := le_whole_cut h exact small
  obtain ⟨zero, result⟩ | ⟨m', e', positive', result, kept, -, cut⟩ :=
    roundWithAccuracy_kept accuracy h
  · rw [result]
    rw [zero, whole, zero_mul, Nat.zero_div] at bound
    rw [Nat.le_zero.mp bound]
    exact .zero .positive
  · rw [result]
    exact .finite positive' kept (bound.trans cut)

theorem Short.roundWithAccuracy {m : Nat} {e : Int} (accuracy : Accuracy)
    (h : e ≤ target m e) (low : target m e ≤ -30) :
    Short (roundWithAccuracy Format.binary64 .positive m e accuracy) := by
  obtain ⟨-, result⟩ | ⟨m', e', positive', result, kept, high, -⟩ :=
    roundWithAccuracy_kept accuracy h
  · rw [result]
    exact .zero .positive
  · rw [result]
    exact .finite positive' kept (by omega)

/-! ## Sums, differences and quotients -/

theorem log2_shiftLeft {m : Nat} (positive : 0 < m) (k : Nat) : (m <<< k).log2 = m.log2 + k := by
  have low := Nat.log2_self_le positive.ne'
  have high := Nat.lt_log2_self (n := m)
  rw [Nat.shiftLeft_eq, Nat.log2_eq_iff (Nat.mul_pos positive (Nat.two_pow_pos k)).ne']
  constructor
  · rw [pow_add]
    exact Nat.mul_le_mul_right _ low
  · rw [Nat.add_right_comm, pow_add]
    exact Nat.mul_lt_mul_of_pos_right high (Nat.two_pow_pos k)

theorem target_shiftLeft {m : Nat} (positive : 0 < m) (e : Int) (k : Nat) :
    target (m <<< k) (e - k) = target m e := by
  rw [target_eq, target_eq, log2_shiftLeft positive]
  congr 1
  omega

/-- A number whose exponent may be too large is rounded after its mantissa has been extended. -/
theorem AtLeast.round {m n : Nat} {e : Int} (positive : 0 < m)
    (exact : n ≤ whole m e) (small : n ≤ 2 ^ 53) :
    AtLeast n (UnpackedFloat.round Format.binary64 .positive m e) := by
  show AtLeast n (UnpackedFloat.roundWithAccuracy Format.binary64 .positive
    (m <<< (e - target m e).toNat) (e - ((e - target m e).toNat : Int)) .exact)
  generalize hk : (e - target m e).toNat = k
  refine .roundWithAccuracy .exact ?_ ?_ small
  · rw [target_shiftLeft positive]
    omega
  · rw [whole_shiftLeft]
    exact exact

theorem normalize_pos {m : Nat} (positive : 0 < m) (e : Int) (sign : Sign) :
    UnpackedFloat.normalize Format.binary64 m e sign = UnpackedFloat.round Format.binary64 .positive m e := by
  have above : compare (m : Int) 0 = .gt := Int.compare_eq_gt.mpr (by omega)
  unfold UnpackedFloat.normalize
  rw [above]
  rfl

/-- The sum of two positive numbers is rounded after their mantissas have been brought to the smaller
exponent. -/
theorem add_finite {m n : Nat} {e f : Int} (hm : 0 < m) (hn : 0 < n) :
    UnpackedFloat.add Format.binary64 (.finite .positive m e hm) (.finite .positive n f hn) =
      UnpackedFloat.round Format.binary64 .positive
        (m <<< (e - min e f).toNat + n <<< (f - min e f).toNat) (min e f) := by
  rw [← normalize_pos (Nat.add_pos_left (Nat.shiftLeft_pos_iff.mpr hm) _) _ .positive]
  rfl

theorem AtLeast.add_one {n : Nat} {x : UnpackedFloat} (h : AtLeast n x) (small : n < 2 ^ 53) :
    AtLeast (n + 1)
      (UnpackedFloat.add Format.binary64 x (.finite .positive (2 ^ 52) (-52) (by decide))) := by
  cases h with
  | zero => exact .finite (by decide) ⟨by decide, by decide, .inl (le_refl _)⟩ (by decide)
  | infinity => exact .infinity _
  | @finite _ m e positive kept le =>
    rw [add_finite]
    generalize hs : min e (-52) = s
    have exponent : e - ((e - s).toNat : Int) = s := by omega
    have unit : 2 ^ 52 <<< (-52 - s).toNat = 2 ^ (-s).toNat := by
      rw [Nat.shiftLeft_eq, ← pow_add]
      congr 1
      omega
    have same : whole (m <<< (e - s).toNat) s = whole m e := by
      rw [← whole_shiftLeft m e (e - s).toNat, exponent]
    refine .round (Nat.add_pos_left (Nat.shiftLeft_pos_iff.mpr positive) _) ?_ small
    -- One is a power of two units of the common exponent, so that it is added to the whole part.
    rw [unit, whole_of_nonpos (by omega), Nat.add_div_right _ (Nat.two_pow_pos _),
      ← whole_of_nonpos (by omega), same]
    exact Nat.succ_le_succ le

/-! ## Order -/

theorem finite_le_iff {m n : Nat} {e f : Int} (hm : 0 < m) (hn : 0 < n) :
    UnpackedFloat.le (.finite .positive m e hm) (.finite .positive n f hn) = true ↔
      e < f ∨ e = f ∧ m ≤ n := by
  show ((compare e f).then (compare m n)).isLE = true ↔ _
  rw [Ordering.isLE_then_iff_or, Int.compare_eq_lt, Int.compare_eq_eq, Nat.isLE_compare]

/-- What a short number is not below is less than two to the power of twenty-four. -/
theorem AtLeast.lt_of_not_le {n : Nat} {x p : UnpackedFloat} (h : AtLeast n x) (short : Short p)
    (not : UnpackedFloat.le p x ≠ true) : n < 2 ^ 24 := by
  cases h with
  | zero => decide
  | infinity => cases short <;> exact absurd rfl not
  | @finite _ m e hm kept le =>
    cases short with
    | zero => exact absurd rfl not
    | @finite k f hk _ low =>
      rw [ne_eq, finite_le_iff] at not
      have width := kept.width
      calc n ≤ whole m e := le
        _ = m / 2 ^ (-e).toNat := whole_of_nonpos (by omega) m
        _ ≤ m / 2 ^ 29 :=
          Nat.div_le_div_left (Nat.pow_le_pow_right (by decide) (by omega)) (by decide)
        _ < 2 ^ 24 := by omega

/-- Brought to a common exponent, the mantissas are in the order of the numbers. -/
theorem aligned_le {m n : Nat} {e f : Int} (hm : Kept m e) (hn : Kept n f)
    (le : f < e ∨ f = e ∧ n ≤ m) : n <<< (f - min e f).toNat ≤ m <<< (e - min e f).toNat := by
  rcases le with below | ⟨rfl, le⟩
  · have whole : (f - min e f).toNat = 0 := by omega
    have one : 1 ≤ (e - min e f).toNat := by omega
    have smallest := hn.exponent
    have full := hm.full.resolve_right (by omega)
    rw [whole, Nat.shiftLeft_zero, Nat.shiftLeft_eq]
    calc n ≤ 2 ^ 52 * 2 ^ 1 := hn.width.le
      _ ≤ _ := Nat.mul_le_mul full (Nat.pow_le_pow_right (by decide) one)
  · rw [Nat.shiftLeft_eq, Nat.shiftLeft_eq]
    exact Nat.mul_le_mul_right _ le

theorem sub_finite {m n : Nat} {e f : Int} (hm : 0 < m) (hn : 0 < n) :
    UnpackedFloat.sub Format.binary64 (.finite .positive m e hm) (.finite .positive n f hn) =
      UnpackedFloat.normalize Format.binary64
        ((m <<< (e - min e f).toNat : Nat) - (n <<< (f - min e f).toNat : Nat) : Int) (min e f)
        .positive := rfl

/-- What is taken off a number that is not smaller leaves no negative number. -/
theorem AtLeast.sub {n : Nat} {x p : UnpackedFloat} (h : AtLeast n x) (short : Short p)
    (le : UnpackedFloat.le p x = true) : AtLeast 0 (UnpackedFloat.sub Format.binary64 x p) := by
  cases h with
  | zero sign =>
    cases short with
    | zero sign' => cases sign <;> cases sign' <;> exact .zero _
    | finite => exact Bool.noConfusion le
  | infinity => cases short <;> exact .infinity 0
  | @finite _ m e hm kept _ =>
    cases short with
    | zero => exact .finite hm kept (Nat.zero_le _)
    | @finite k f hk kept' _ =>
      have aligned := aligned_le kept kept' ((finite_le_iff hk hm).mp le)
      rw [sub_finite, ← Nat.cast_sub aligned]
      rcases Nat.eq_zero_or_pos (m <<< (e - min e f).toNat - k <<< (f - min e f).toNat)
        with none | positive
      · rw [none]
        exact .zero .positive
      · rw [normalize_pos positive]
        exact .round positive (Nat.zero_le _) (Nat.zero_le _)

/-! ## Natural numbers and quotients -/

theorem mul_finite {m n : Nat} {e f : Int} (hm : 0 < m) (hn : 0 < n) :
    UnpackedFloat.mul Format.binary64 (.finite .positive m e hm) (.finite .positive n f hn) =
      UnpackedFloat.roundWithAccuracy Format.binary64 .positive (m * n) (e + f) .exact := rfl

theorem AtLeast.mul_one {n : Nat} {x : UnpackedFloat} (h : AtLeast n x) (small : n ≤ 2 ^ 53) :
    AtLeast n
      (UnpackedFloat.mul Format.binary64 x (.finite .positive (2 ^ 52) (-52) (by decide))) := by
  cases h with
  | zero sign => exact .zero _
  | infinity => exact .infinity n
  | @finite _ m e positive kept le =>
    have exponent : e + -52 = e - (52 : Nat) := rfl
    rw [mul_finite, ← Nat.shiftLeft_eq, exponent]
    refine .roundWithAccuracy .exact ?_ ?_ small
    · rw [target_shiftLeft positive, target_eq]
      omega
    · rw [whole_shiftLeft]
      exact le

theorem whole_zero (m : Nat) : whole m 0 = m := by
  rw [whole_of_nonneg (le_refl _)]
  exact mul_one m

theorem atLeast_toFloat {n : UInt64} (positive : 0 < n.toNat) :
    AtLeast 1 n.toFloat.toModel.unpack := by
  show AtLeast 1 (Float.Model.pack
    (UnpackedFloat.normalize Format.binary64 n.toNat 0 .positive)).unpack
  rw [normalize_pos positive]
  refine .pack (.round positive ?_ (by decide))
  rw [whole_zero]
  exact positive

theorem unpack_mul (x y : Float) : (x * y).toModel.unpack =
    (Float.Model.pack (UnpackedFloat.mul Format.binary64 x.toModel.unpack y.toModel.unpack)).unpack :=
  rfl

theorem atLeast_ofScientific {d : Nat} (positive : 0 < d) :
    AtLeast 1 (UnpackedFloat.ofScientific Format.binary64 d 0) := by
  have range : (0 : Int) < 2 ^ Format.binary64.exponentBits := by decide
  have width : Format.binary64.mantissaBits = 53 := rfl
  have exponent : -((53 : Nat) : Int) + 0 = 0 - (53 : Nat) := rfl
  unfold UnpackedFloat.ofScientific
  rw [dif_neg positive.ne', if_neg range.not_gt, if_neg (by omega), if_pos (le_refl _), mul_finite,
    Int.toNat_zero, pow_zero, mul_one, width, exponent]
  refine .roundWithAccuracy .exact ?_ ?_ (by decide)
  · rw [target_shiftLeft positive, target_eq]
    omega
  · rw [whole_shiftLeft, whole_zero]
    exact positive

/-- A natural number other than zero is at least one. -/
theorem atLeast_ofNat {d : Nat} (positive : 0 < d) : AtLeast 1 (Float.ofNat d).toModel.unpack := by
  show AtLeast 1 (Float.toModel (if _ : d < 2 ^ 53 ∧ 0 ≤ 22 then
    d.toUInt64.toFloat * Float.exactlyRepresentablePowersOfTen[0]
    else Float.ofModel (Float.Model.ofScientific d 0))).unpack
  split
  · have whole : d.toUInt64.toNat = d := UInt64.toNat_ofNat_of_lt' (by rw [UInt64.size]; omega)
    have unit : Float.exactlyRepresentablePowersOfTen[0].toModel.unpack =
        .finite .positive (2 ^ 52) (-52) (by decide) := rfl
    rw [unpack_mul, unit]
    exact .pack (.mul_one (atLeast_toFloat (by omega)) (by decide))
  · exact .pack (atLeast_ofScientific positive)

/-- A number that is at least one has a full mantissa. -/
theorem exponent_of_one_le {n : Nat} {f : Int} (kept : Kept n f) (one : 1 ≤ whole n f) :
    -52 ≤ f ∧ 2 ^ 52 ≤ n := by
  have low : -52 ≤ f := by
    by_contra below
    have width := kept.width
    have none : n / 2 ^ (-f).toNat = 0 := Nat.div_eq_of_lt
      (Nat.lt_of_lt_of_le width (Nat.pow_le_pow_right (by decide) (by omega)))
    rw [whole_of_nonpos (by omega), none] at one
    exact absurd one (by decide)
  exact ⟨low, kept.full.resolve_right (by omega)⟩

section
variable {m n k : Nat}

/-- Full mantissas have a quotient between a half and two, which an extension of the first one by `k`
bits shows. -/
theorem log2_quotient_le (hm : m.log2 = 52) (hn : 2 ^ 52 ≤ n) : ((m <<< k) / n).log2 ≤ k := by
  rcases Nat.eq_zero_or_pos ((m <<< k) / n) with none | positive
  · rw [none]
    exact Nat.zero_le k
  · have width : m < 2 ^ (m.log2 + 1) := Nat.lt_log2_self
    rw [hm] at width
    rw [← Nat.lt_succ_iff, Nat.log2_lt positive.ne', Nat.div_lt_iff_lt_mul (by omega),
      Nat.shiftLeft_eq]
    calc m * 2 ^ k < 2 ^ 53 * 2 ^ k := Nat.mul_lt_mul_of_pos_right width (Nat.two_pow_pos k)
      _ = 2 ^ (k + 1) * 2 ^ 52 := by rw [pow_succ]; ring
      _ ≤ 2 ^ (k + 1) * n := Nat.mul_le_mul_left _ hn

theorem le_log2_quotient (positive : 0 < m) (hm : m.log2 = 52) (hn : n < 2 ^ 53) (pos : 0 < n) :
    52 ≤ ((m <<< 53) / n).log2 := by
  have full : 2 ^ 52 ≤ m := hm ▸ Nat.log2_self_le positive.ne'
  have quotient : 2 ^ 52 ≤ (m <<< 53) / n := by
    rw [Nat.le_div_iff_mul_le pos, Nat.shiftLeft_eq]
    exact Nat.mul_le_mul full hn.le
  exact (Nat.le_log2 (by omega)).mpr quotient

end

/-- The quotient of a number below two to the power of twenty-one by one that is at least one. -/
theorem Short.div {m : Nat} {x : UnpackedFloat} (positive : 0 < m) (full : m.log2 = 52)
    (h : AtLeast 1 x) :
    Short (UnpackedFloat.div Format.binary64 (.finite .positive m (-32) positive) x) := by
  cases h with
  | infinity => exact .zero _
  | @finite _ n f hn kept one =>
    obtain ⟨low, full'⟩ := exponent_of_one_le kept one
    have total : totalExponent m (-32) - totalExponent n f = -32 - f := by
      rw [totalExponent, totalExponent, full, log2_of_full kept.width full']
      omega
    generalize ht : min (-32 - f) (max (-32 - f - 53) (-1074)) = t
    generalize hk : (-32 - f - t).toNat = k
    have core : divCore Format.binary64 m (-32) n f =
        ((m <<< k) / n, t, accuracyOfFraction ((m <<< k) % n) n) := by
      rw [← hk, ← ht, divCore, total]
      rfl
    show Short (UnpackedFloat.roundWithAccuracy Format.binary64 .positive
      (divCore Format.binary64 m (-32) n f).1 (divCore Format.binary64 m (-32) n f).2.1
      (divCore Format.binary64 m (-32) n f).2.2)
    rw [core]
    dsimp only
    have upper := log2_quotient_le (k := k) full full'
    have aim := target_eq ((m <<< k) / n) t
    refine .roundWithAccuracy _ ?_ (by omega)
    by_cases smallest : t ≤ -1074
    · omega
    · have extended : k = 53 := by omega
      have lower := le_log2_quotient positive full kept.width hn
      rw [← extended] at lower
      omega

/-! ## The operations of a clock -/

section
variable {n : Nat} {x p : Float}

theorem atLeast_zero : AtLeast 0 (0 : Float).toModel.unpack := .zero .positive

/-- One more cycle on a clock. -/
theorem atLeast_add_one (h : AtLeast n x.toModel.unpack) (small : n < 2 ^ 53) :
    AtLeast (n + 1) (x + 1).toModel.unpack :=
  (h.add_one small).pack

theorem le_iff : x ≤ p ↔ UnpackedFloat.le x.toModel.unpack p.toModel.unpack = true :=
  decide_eq_true_iff

/-- A clock from which a period is taken. -/
theorem atLeast_sub (h : AtLeast n x.toModel.unpack) (short : Short p.toModel.unpack) (le : p ≤ x) :
    AtLeast 0 (x - p).toModel.unpack :=
  (h.sub short (le_iff.mp le)).pack

/-- A clock that has not come to the end of a period. -/
theorem lt_of_not_le (h : AtLeast n x.toModel.unpack) (short : Short p.toModel.unpack) (not : ¬ p ≤ x) :
    n < 2 ^ 24 :=
  h.lt_of_not_le short fun le => not (le_iff.mpr le)

end

end Famiclone.Rounding
