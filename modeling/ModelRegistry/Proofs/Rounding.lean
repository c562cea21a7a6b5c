import Mathlib

/-!
# Rounding to doubles

The result of an operation on doubles is a mantissa and an exponent, rounded to 53 bits and packed.
Rounding shifts the mantissa until 53 bits of it remain and adds at most one, so it adds at most half
of the last bit. A rounded result is packed as it is, unless its exponent is too large.
-/

namespace ModelRegistry.Double

open Float.Model (Format UnpackedFloat totalExponent)
open Float.Model.UnpackedFloat

variable {m k : Nat} {e : Int} {a : Accuracy} {s : Sign}

section Shift

/-- By how many bits a mantissa is shifted before it is rounded. -/
def excess (m : Nat) (e : Int) : Nat :=
  (max ((m.log2 : Int) + e - 52) (-1074) - e).toNat

theorem targetExponent_eq (m : Nat) (e : Int) :
    Format.binary64.targetExponent (totalExponent m e) = max ((m.log2 : Int) + e - 52) (-1074) := by
  simp only [Format.targetExponent, totalExponent, Format.mantissaBits, Format.minExponent]
  norm_num
  omega

theorem shift_succ (em : ExtendedMantissa) (k : Nat) :
    em >>> (k + 1) = (em >>> k).shiftRightOne := rfl

theorem shift_mantissa (em : ExtendedMantissa) (k : Nat) :
    (em >>> k).mantissa = em.mantissa / 2 ^ k := by
  induction k with
  | zero => exact (Nat.div_one _).symm
  | succ k ih =>
    rw [shift_succ, ExtendedMantissa.shiftRightOne, ih, Nat.div_div_eq_div_mul, Nat.pow_succ]

/-- The bit behind the mantissa is set only if at least half of the last bit is cut off. -/
theorem le_of_roundBit (m : Nat) (h : (ExtendedMantissa.mk m false false >>> k).roundBit = true) :
    2 ^ k ≤ 2 * (m % 2 ^ k) := by
  cases k with
  | zero => cases h
  | succ k =>
    have hbit : m / 2 ^ k % 2 = 1 := by
      have hne : m / 2 ^ k % 2 ≠ 0 := by
        simpa [shift_succ, ExtendedMantissa.shiftRightOne, shift_mantissa] using h
      omega
    have hsplit : m % 2 ^ (k + 1) = m % 2 ^ k + 2 ^ k * (m / 2 ^ k % 2) := by
      rw [Nat.pow_succ, Nat.mod_mul]
    rw [hsplit, hbit, Nat.pow_succ]
    omega

theorem roundedMantissa_bounds (em : ExtendedMantissa) :
    em.mantissa ≤ em.roundedMantissa ∧
      em.roundedMantissa ≤ em.mantissa + if em.roundBit then 1 else 0 := by
  obtain ⟨m, r, s⟩ := em
  cases r <;> cases s <;>
    simp [ExtendedMantissa.roundedMantissa, ExtendedMantissa.accuracy,
      Accuracy.roundToNearestEven]
  omega

end Shift

/-- The mantissa after it was shifted and rounded. -/
def rounded (m : Nat) (e : Int) (a : Accuracy) : Nat :=
  (ExtendedMantissa.ofMantissaAndAccuracy m a >>> excess m e).roundedMantissa

theorem shiftToTargetExponent_eq (m : Nat) (e : Int) (a : Accuracy) :
    shiftToTargetExponent Format.binary64 m e a =
      (ExtendedMantissa.ofMantissaAndAccuracy m a >>> excess m e, e + excess m e) := by
  simp only [shiftToTargetExponent, shiftToExponent, targetExponent_eq, excess]

theorem mantissa_ofMantissaAndAccuracy (m : Nat) (a : Accuracy) :
    (ExtendedMantissa.ofMantissaAndAccuracy m a).mantissa = m := by
  cases a with
  | exact => rfl
  | inexact o => cases o <;> rfl

theorem rounded_bounds (m : Nat) (e : Int) (a : Accuracy) :
    m / 2 ^ excess m e ≤ rounded m e a ∧ rounded m e a ≤ m / 2 ^ excess m e + 1 := by
  have h := roundedMantissa_bounds (ExtendedMantissa.ofMantissaAndAccuracy m a >>> excess m e)
  rw [shift_mantissa, mantissa_ofMantissaAndAccuracy] at h
  exact ⟨h.1, h.2.trans (by split <;> omega)⟩

/-- Rounding adds at most half of the last bit. -/
theorem rounded_mul_le (m : Nat) (e : Int) :
    2 * (rounded m e .exact * 2 ^ excess m e) ≤ 2 * m + 2 ^ excess m e := by
  set p := 2 ^ excess m e
  let em := ExtendedMantissa.mk m false false >>> excess m e
  have hmantissa : em.mantissa = m / p := shift_mantissa _ _
  have h : rounded m e .exact ≤ em.mantissa + if em.roundBit then 1 else 0 :=
    (roundedMantissa_bounds em).2
  rw [hmantissa] at h
  cases hbit : em.roundBit with
  | false =>
    have hrounded : rounded m e .exact ≤ m / p := by simpa [hbit] using h
    calc 2 * (rounded m e .exact * p)
        ≤ 2 * (m / p * p) := by gcongr
      _ ≤ 2 * m + p := by linarith [Nat.div_mul_le_self m p]
  | true =>
    have hrounded : rounded m e .exact ≤ m / p + 1 := by simpa [hbit] using h
    have hhalf : p ≤ 2 * (m % p) := le_of_roundBit m hbit
    calc 2 * (rounded m e .exact * p)
        ≤ 2 * ((m / p + 1) * p) := by gcongr
      _ ≤ 2 * m + p := by linarith [Nat.div_add_mod m p]

theorem div_two_pow_excess_lt (m : Nat) (e : Int) : m / 2 ^ excess m e < 2 ^ 53 := by
  rw [Nat.div_lt_iff_lt_mul (Nat.two_pow_pos _), ← Nat.pow_add]
  refine Nat.lt_log2_self.trans_le (Nat.pow_le_pow_right Nat.two_pos ?_)
  simp only [excess]
  omega

theorem excess_eq_zero (hm : m < 2 ^ 53) (he : -1074 ≤ e) : excess m e = 0 := by
  have hlog : m.log2 ≤ 52 := by
    rcases Nat.eq_zero_or_pos m with rfl | hpos
    · simp
    · have := (Nat.log2_lt hpos.ne').mpr hm
      omega
  simp only [excess]
  omega

/-- What rounding gives: the rounded mantissa, or the next power of two if that takes 54 bits. -/
theorem roundWithAccuracy_eq (s : Sign) (m : Nat) (e : Int) (a : Accuracy) :
    roundWithAccuracy Format.binary64 s m e a =
      if h : rounded m e a = 0 then .zero s
      else if rounded m e a < 2 ^ 53 then
        .finite s (rounded m e a) (e + excess m e) (Nat.pos_of_ne_zero h)
      else .finite s (2 ^ 52) (e + excess m e + 1) (Nat.two_pow_pos 52) := by
  have he : -1074 ≤ e + excess m e := by
    simp only [excess]
    omega
  have hle := (rounded_bounds m e a).2
  have hlt := div_two_pow_excess_lt m e
  rw [roundWithAccuracy, shiftToTargetExponent_eq]
  change (let p := shiftToTargetExponent Format.binary64 (rounded m e a) (e + excess m e) .exact
    if h : p.1.mantissa = 0 then UnpackedFloat.zero s
    else .finite s p.1.mantissa p.2 (Nat.pos_of_ne_zero h)) = _
  simp only [shiftToTargetExponent_eq, shift_mantissa, mantissa_ofMantissaAndAccuracy]
  by_cases hsmall : rounded m e a < 2 ^ 53
  · simp only [excess_eq_zero hsmall he, if_pos hsmall, Nat.pow_zero, Nat.div_one,
      Int.natCast_zero, Int.add_zero]
  · have hr : rounded m e a = 2 ^ 53 := by omega
    have hone : excess (2 ^ 53) (e + excess m e) = 1 := by
      rw [excess, Nat.log2_two_pow]
      omega
    simp only [hr, hone]
    rfl

/-- Rounding gives a zero or a number. -/
theorem zero_or_finite_of_round (s : Sign) (m : Nat) (e : Int) (a : Accuracy) :
    roundWithAccuracy Format.binary64 s m e a = .zero s ∨
      ∃ m' e' h, roundWithAccuracy Format.binary64 s m e a = .finite s m' e' h := by
  rw [roundWithAccuracy_eq]
  split
  · exact .inl rfl
  · next hne =>
    split
    · exact .inr ⟨_, _, Nat.pos_of_ne_zero hne, rfl⟩
    · exact .inr ⟨_, _, Nat.two_pow_pos 52, rfl⟩

/-- However a mantissa is rounded, its exponent grows by one bit more than the mantissa is long. -/
theorem exponent_le_of_roundWithAccuracy {s' : Sign} {m' : Nat} {e' : Int} {h : 0 < m'}
    (hround : roundWithAccuracy Format.binary64 s m e a = .finite s' m' e' h) :
    e' ≤ max (max ((m.log2 : Int) + e - 52) (-1074)) e + 1 := by
  rw [roundWithAccuracy_eq] at hround
  have hexcess : e + excess m e ≤ max (max ((m.log2 : Int) + e - 52) (-1074)) e := by
    simp only [excess]
    omega
  split at hround
  · cases hround
  · split at hround <;> cases hround <;> omega

section Exact

variable (hm : 2 ^ 52 ≤ m) (he : -1074 ≤ e)

include hm he

theorem log2_eq_of_le : m.log2 = 52 + excess m e := by
  have hlog : 52 ≤ m.log2 := (Nat.le_log2 (by omega)).mpr hm
  simp only [excess]
  omega

/-- A mantissa of at least 53 bits is rounded to 53 bits. It grows by one part in `2 ^ 53` at
most, and does not reach the next power of two if it is less than half of its last bit below. -/
theorem exists_roundWithAccuracy_eq (s : Sign) :
    ∃ (m' j : Nat) (h : 0 < m'), roundWithAccuracy Format.binary64 s m e .exact = .finite s m' (e + j) h ∧
      2 ^ 52 ≤ m' ∧ m' < 2 ^ 53 ∧ m.log2 ≤ 52 + j ∧
      2 * (m' * 2 ^ j) ≤ 2 * m + 2 ^ excess m e := by
  have hlog := log2_eq_of_le hm he
  have hmul := rounded_mul_le m e
  have hle : 2 ^ 52 ≤ rounded m e .exact := by
    refine le_trans ?_ (rounded_bounds m e .exact).1
    rw [Nat.le_div_iff_mul_le (Nat.two_pow_pos _), ← Nat.pow_add, ← hlog]
    exact Nat.log2_self_le (by omega)
  rw [roundWithAccuracy_eq, dif_neg (by omega)]
  split
  · next hlt => exact ⟨_, _, Nat.pos_of_ne_zero (by omega), rfl, hle, hlt, hlog.le, hmul⟩
  · next hge =>
    have hdiv := div_two_pow_excess_lt m e
    have hone := (rounded_bounds m e .exact).2
    have hr : rounded m e .exact = 2 * 2 ^ 52 := by omega
    refine ⟨2 ^ 52, excess m e + 1, by positivity, ?_, le_rfl, by norm_num, by omega, ?_⟩
    · push_cast
      rw [add_assoc]
    · calc 2 * (2 ^ 52 * 2 ^ (excess m e + 1))
          = 2 * (rounded m e .exact * 2 ^ excess m e) := by rw [hr, pow_succ]; ring
        _ ≤ 2 * m + 2 ^ excess m e := hmul

theorem two_pow_excess_le : 2 ^ 53 * 2 ^ excess m e ≤ 2 * m := by
  have hself : 2 ^ m.log2 ≤ m := Nat.log2_self_le (by omega)
  rw [log2_eq_of_le hm he] at hself
  calc 2 ^ 53 * 2 ^ excess m e = 2 * 2 ^ (52 + excess m e) := by rw [pow_add]; ring
    _ ≤ 2 * m := by gcongr

end Exact

/-- The sizes of mantissa and exponent of a double that is not subnormal. -/
structure IsNormal (m : Nat) (e : Int) : Prop where
  le : 2 ^ 52 ≤ m
  lt : m < 2 ^ 53
  minExponent_le : -1074 ≤ e
  le_maxExponent : e ≤ 971

theorem IsNormal.pos (h : IsNormal m e) : 0 < m :=
  (Nat.two_pow_pos 52).trans_le h.le

/-- A value that is less than half of the last bit below a power of two stays below it. -/
theorem shift_le {m' j n K : Nat} (hle : 2 ^ 52 ≤ m') (hexcess : 2 ^ 53 * 2 ^ k ≤ 2 * m)
    (hmul : 2 * (m' * 2 ^ j) ≤ 2 * m + 2 ^ k) (hbound : m * 2 ^ n < (2 ^ 54 - 1) * 2 ^ K) :
    n + j ≤ K + 1 := by
  have hexcess' : 2 ^ 53 * 2 ^ (k + n) ≤ 2 * (m * 2 ^ n) := by
    calc 2 ^ 53 * 2 ^ (k + n) = 2 ^ 53 * 2 ^ k * 2 ^ n := by rw [pow_add, mul_assoc]
      _ ≤ 2 * m * 2 ^ n := by gcongr
      _ = 2 * (m * 2 ^ n) := mul_assoc _ _ _
  have hbit : 2 ^ (k + n) ≤ 2 * 2 ^ K := by
    have hlt : 2 ^ (k + n) < 2 ^ (K + 2) := by
      rw [pow_add 2 K]
      omega
    have hle : k + n ≤ K + 1 := Nat.lt_succ_iff.mp ((Nat.pow_lt_pow_iff_right Nat.one_lt_two).mp hlt)
    calc 2 ^ (k + n) ≤ 2 ^ (K + 1) := Nat.pow_le_pow_right Nat.two_pos hle
      _ = 2 * 2 ^ K := by rw [pow_succ, mul_comm]
  have hvalue : 2 * (m' * 2 ^ (n + j)) ≤ 2 * (m * 2 ^ n) + 2 ^ (k + n) := by
    calc 2 * (m' * 2 ^ (n + j)) = 2 * (m' * 2 ^ j) * 2 ^ n := by rw [pow_add]; ring
      _ ≤ (2 * m + 2 ^ k) * 2 ^ n := by gcongr
      _ = 2 * (m * 2 ^ n) + 2 ^ (k + n) := by rw [pow_add]; ring
  by_contra hgt
  have hlarge : 2 ^ 54 * 2 ^ K ≤ m' * 2 ^ (n + j) := by
    calc 2 ^ 54 * 2 ^ K = 2 ^ 52 * 2 ^ (K + 2) := by rw [pow_add 2 K]; ring
      _ ≤ m' * 2 ^ (n + j) := Nat.mul_le_mul hle (Nat.pow_le_pow_right Nat.two_pos (by omega))
  omega

/-- A value below the middle between the largest double and the power of two that follows is rounded
to a double. -/
theorem exists_isNormal (n : Nat) (hm : 2 ^ 52 ≤ m) (hbound : m * 2 ^ n < (2 ^ 54 - 1) * 2 ^ 2044)
    (s : Sign) :
    ∃ (m' j : Nat) (h : IsNormal m' (n - 1074 + j)),
      roundWithAccuracy Format.binary64 s m (n - 1074) .exact =
        .finite s m' (n - 1074 + j) h.pos ∧
      m.log2 ≤ 52 + j ∧ 2 ^ 53 * (m' * 2 ^ j) ≤ (2 ^ 53 + 1) * m := by
  have he : -1074 ≤ (n : Int) - 1074 := by omega
  obtain ⟨m', j, hpos, hround, hle, hlt, hlog, hmul⟩ := exists_roundWithAccuracy_eq hm he s
  have hexcess := two_pow_excess_le hm he
  have hj := shift_le hle hexcess hmul hbound
  refine ⟨m', j, ⟨hle, hlt, by omega, by omega⟩, hround, hlog, ?_⟩
  linarith

section Quotients

variable {m₁ m₂ : Nat} {e₁ e₂ : Int}

/-- The quotient of two mantissas and the exponent that it is computed for. -/
theorem divCore_eq (m₁ m₂ : Nat) (e₁ e₂ : Int) :
    ∃ a, divCore Format.binary64 m₁ e₁ m₂ e₂ =
      let t := min (e₁ - e₂) (max ((m₁.log2 : Int) + e₁ - (m₂.log2 + e₂) - 53) (-1074))
      (m₁ * 2 ^ (e₁ - e₂ - t).toNat / m₂, t, a) := by
  have htarget : Format.binary64.targetExponent (totalExponent m₁ e₁ - totalExponent m₂ e₂) =
      max ((m₁.log2 : Int) + e₁ - (m₂.log2 + e₂) - 53) (-1074) := by
    simp only [Format.targetExponent, totalExponent, Format.mantissaBits, Format.minExponent]
    norm_num
    omega
  simp only [divCore, htarget, Nat.shiftLeft_eq]
  exact ⟨_, rfl⟩

/-- Division by a double of at least 8 gives at most a fourth of the largest power of two. -/
theorem exists_divCore_eq (hpos : 0 < m₁) (hlt : m₁ < 2 ^ 53) (he₁ : e₁ ≤ 971)
    (hm₂ : IsNormal m₂ e₂) (he₂ : -49 ≤ e₂) :
    ∃ q t a, divCore Format.binary64 m₁ e₁ m₂ e₂ = (q, t, a) ∧ (q.log2 : Int) + t ≤ 1022 ∧ t ≤ 970 := by
  obtain ⟨a, hcore⟩ := divCore_eq m₁ m₂ e₁ e₂
  have hlog₁ : m₁.log2 < 53 := (Nat.log2_lt hpos.ne').mpr hlt
  have hlog₂ : m₂.log2 = 52 := (Nat.log2_eq_iff hm₂.pos.ne').mpr ⟨hm₂.le, hm₂.lt⟩
  refine ⟨_, _, a, hcore, ?_, by omega⟩
  generalize ht : min (e₁ - e₂) (max ((m₁.log2 : Int) + e₁ - (m₂.log2 + e₂) - 53) (-1074)) = t
  generalize hk : (e₁ - e₂ - t).toNat = k
  have hquotient : m₁ * 2 ^ k / m₂ < 2 ^ (k + 1) := by
    rw [Nat.div_lt_iff_lt_mul hm₂.pos]
    calc m₁ * 2 ^ k < 2 ^ 53 * 2 ^ k := Nat.mul_lt_mul_of_pos_right hlt (Nat.two_pow_pos _)
      _ = 2 ^ (k + 1) * 2 ^ 52 := by rw [pow_succ]; ring
      _ ≤ 2 ^ (k + 1) * m₂ := Nat.mul_le_mul_left _ hm₂.le
  have hlog : (m₁ * 2 ^ k / m₂).log2 ≤ k := by
    rcases Nat.eq_zero_or_pos (m₁ * 2 ^ k / m₂) with hzero | hpos
    · simp [hzero]
    · exact Nat.lt_succ_iff.mp ((Nat.log2_lt hpos.ne').mpr hquotient)
  omega

end Quotients

section Packing

variable {u : UnpackedFloat} {b : BitVec Format.binary64.numBits}

/-- The exponent of what is packed, if it is not too large. -/
def biased (e : Int) : Nat :=
  (e + 1075).toNat

theorem pack_finite (h : 0 < m) : pack Format.binary64 (.finite s m e h) =
    if 2 ^ 11 ≤ biased e + 1 then packedInfinity Format.binary64 s
    else if m.log2 + 1 = 53 then
      packComponents Format.binary64 s (BitVec.ofNat 11 (biased e)) (BitVec.ofNat 52 m)
    else packComponents Format.binary64 s 0#11 (BitVec.ofNat 52 m) := by
  have hbias : e + (1023 : Nat) + (52 : Nat) = e + 1075 := by omega
  exact congrArg (fun x : Int => if 2 ^ 11 ≤ x.toNat + 1 then packedInfinity Format.binary64 s
    else if m.log2 + 1 = 53 then
      packComponents Format.binary64 s (BitVec.ofNat 11 x.toNat) (BitVec.ofNat 52 m)
    else packComponents Format.binary64 s 0#11 (BitVec.ofNat 52 m)) hbias

theorem isFinite_unpack :
    (unpack Format.binary64 b).isFinite = true ↔ unpackExponent b ≠ -1#11 := by
  rw [unpack]
  split
  · next h =>
    refine iff_of_false ?_ (not_not_intro h)
    split <;> simp [UnpackedFloat.isFinite]
  · next h =>
    refine iff_of_true ?_ h
    split
    · split <;> rfl
    · rfl

theorem ofNat_ne_neg_one {n : Nat} (h : n + 1 < 2 ^ 11) : BitVec.ofNat 11 n ≠ -1#11 := by
  intro heq
  have hn := congrArg BitVec.toNat heq
  rw [BitVec.toNat_ofNat, Nat.mod_eq_of_lt (by omega)] at hn
  change n = 2047 at hn
  omega

/-- What is packed is infinite or finite. -/
theorem isFinite_or_isInf_of_pack (h : 0 < m) :
    (biased e + 1 < 2 ^ 11 ∧
      (unpack Format.binary64 (pack Format.binary64 (.finite s m e h))).isFinite = true) ∨
    (2 ^ 11 ≤ biased e + 1 ∧
      (unpack Format.binary64 (pack Format.binary64 (.finite s m e h))).isInf = true) := by
  rw [pack_finite]
  split
  · next hlarge =>
    refine .inr ⟨hlarge, ?_⟩
    simp only [unpack, packedInfinity, unpackExponent_packComponents,
      unpackMantissa_packComponents, if_true]
    rfl
  · next hsmall =>
    have hlt : biased e + 1 < 2 ^ 11 := by omega
    refine .inl ⟨hlt, isFinite_unpack.mpr ?_⟩
    split
    · rw [unpackExponent_packComponents]
      exact ofNat_ne_neg_one hlt
    · rw [unpackExponent_packComponents]
      decide

theorem isFinite_of_exponent_le (h : 0 < m) (he : e ≤ 971) :
    (unpack Format.binary64 (pack Format.binary64 (.finite s m e h))).isFinite = true := by
  rcases isFinite_or_isInf_of_pack h with ⟨-, hfinite⟩ | ⟨hlarge, -⟩
  · exact hfinite
  · simp only [biased] at hlarge
    omega

theorem isFinite_pack_zero (s : Sign) :
    (unpack Format.binary64 (pack Format.binary64 (.zero s))).isFinite = true := by
  rw [isFinite_unpack]
  change unpackExponent (packComponents Format.binary64 s 0 0) ≠ -1#11
  rw [unpackExponent_packComponents]
  decide

theorem toNat_implicit_append (mantissa : BitVec 52) :
    (1#1 ++ mantissa).toNat = 2 ^ 52 + mantissa.toNat := by
  rw [BitVec.toNat_append, ← Nat.shiftLeft_add_eq_or_of_lt mantissa.isLt]
  rfl

/-- A double that is not subnormal is packed without loss. -/
theorem unpack_pack (h : IsNormal m e) :
    unpack Format.binary64 (pack Format.binary64 (.finite s m e h.pos)) = .finite s m e h.pos := by
  obtain ⟨hle, hlt, hmin, hmax⟩ := h
  have hlog : m.log2 + 1 = 53 := congrArg (· + 1) ((Nat.log2_eq_iff (by omega)).mpr ⟨hle, hlt⟩)
  have hbiased : biased e + 1 < 2 ^ 11 := by
    simp only [biased]
    omega
  have hexponent : (BitVec.ofNat 11 (biased e)).toNat = biased e := by
    rw [BitVec.toNat_ofNat, Nat.mod_eq_of_lt (by omega)]
  have hnonzero : BitVec.ofNat 11 (biased e) ≠ 0#11 := by
    intro hzero
    rw [hzero] at hexponent
    have hbiased : biased e ≠ 0 := by
      simp only [biased]
      omega
    exact hbiased hexponent.symm
  have hmantissa : (1#1 ++ BitVec.ofNat 52 m).toNat = m := by
    rw [toNat_implicit_append, BitVec.toNat_ofNat]
    omega
  rw [pack_finite, if_neg (by omega), if_pos hlog]
  simp only [unpack, unpackExponent_packComponents, unpackMantissa_packComponents,
    unpackSign_packComponents, Sign.ofBitVec_toBitVec, if_neg (ofNat_ne_neg_one hbiased),
    if_neg hnonzero, hmantissa, hexponent]
  have hexponent : (biased e : Int) - ((1023 : Nat) + (52 : Nat)) = e := by
    simp only [biased]
    omega
  exact UnpackedFloat.finite.injEq .. ▸ ⟨rfl, rfl, hexponent⟩

end Packing

end ModelRegistry.Double
